import Accession.Proofs.Batch.History
import Accession.Proofs.Batch.Resolution
import Accession.Proofs.Json.ReadBack
import Accession.Proofs.Registry.StandardTypes
import Accession.Proofs.Registry.Uris
import Accession.Proofs.Store.Tables
import Accession.Store.Schema
set_option autoImplicit false

/-!
# Referential integrity

In a database that repositories and imports made, every stored reference names a stored record: one
that its field admits, of the repository of the row that holds it or of none. `Consistent` is what
every event keeps; within an import the records it created are rows too (`Rooted`), so a reference
that was resolved either way names a row, and rows never go away.
-/
namespace Accession.Batch

open Json (Value Members)
open Store (Connection Database Row sameName)
open Registry (Field RecordType refValue? references shownRepository standard table_apart table_inj
  get?_name reference_scope field_names)

section

variable (db : Database) (owner : Option Int)

/-- A reference of a row that belongs to `owner` is in order: the type is one that the field admits,
the repository is that of the row if the type has one, and the record exists. -/
structure Names (allowed : List String) (r : Reference) (t : RecordType) : Prop where
  admitted : r.typeName ∈ allowed
  type : standard.get? r.typeName = some t
  repository : r.repository = if t.scope = .repository then owner else none
  stored : ∃ row ∈ db.rowsOf t.table, row.id = r.id ∧ row.repository = r.repository

/-- All references of a body in declared fields read as references that are in order. -/
def Linked (t : RecordType) (body : Members) : Prop :=
  ∀ field ∈ t.schema.fields, ∀ allowed, field.kind.allowed? = some allowed →
    ∀ v ∈ references body field, ∃ uri r u, refValue? v = some uri ∧
      standard.parseReference? uri = some r ∧ Names db owner allowed r u

end

/-- Every row is in the table of a standard type, and what it holds is linked: what was written to
it, and whatever object its text reads as. -/
def Intact (db : Database) : Prop :=
  ∀ name, ∀ row ∈ db.rowsOf name, ∃ t ∈ standard.types, sameName t.table name = true ∧
    (∃ stored : Members, row.json = stored.render ∧ Linked db row.repository t stored) ∧
    ∀ body, Json.parseObject (Text.Utf8.encode row.json) = .ok body →
      Linked db row.repository t body

structure Kept (db : Database) (t : RecordType) (row : Row) : Prop where
  owner : t.scope = .global → row.repository = none
  written : ∃ stored : Members, stored.Distinct ∧ row.json = stored.render ∧
    Linked db row.repository t stored

def Consistent (db : Database) : Prop :=
  ∀ name, ∀ row ∈ db.rowsOf name, ∃ t ∈ standard.types, sameName t.table name = true ∧
    Kept db t row

def Rooted (repository : Int) (created : Created) (db : Database) : Prop :=
  ∀ entry ∈ created.toList, ∃ t ∈ standard.types, ∃ row ∈ db.rowsOf t.table,
    entry.2.uri = Registry.uriFor t repository row.id ∧
      row.repository = shownRepository t repository

section Growing

variable {db db' : Database} (grows : ∀ name, db.rowsOf name ⊆ db'.rowsOf name)

include grows

theorem Names.mono {owner : Option Int} {allowed : List String} {r : Reference} {t : RecordType}
    (h : Names db owner allowed r t) : Names db' owner allowed r t where
  admitted := h.admitted
  type := h.type
  repository := h.repository
  stored := by
    obtain ⟨row, hrow, hid, hrepository⟩ := h.stored
    exact ⟨row, grows t.table hrow, hid, hrepository⟩

theorem Linked.mono {owner : Option Int} {t : RecordType} {body : Members}
    (h : Linked db owner t body) : Linked db' owner t body := by
  intro field hfield allowed hallowed v hv
  obtain ⟨uri, r, u, huri, hr, hnames⟩ := h field hfield allowed hallowed v hv
  exact ⟨uri, r, u, huri, hr, hnames.mono grows⟩

theorem Kept.mono {t : RecordType} {row : Row} (h : Kept db t row) : Kept db' t row where
  owner := h.owner
  written := by
    obtain ⟨stored, hdistinct, hjson, hlinked⟩ := h.written
    exact ⟨stored, hdistinct, hjson, hlinked.mono grows⟩

theorem Rooted.mono {repository : Int} {created : Created} (h : Rooted repository created db) :
    Rooted repository created db' := by
  intro entry hentry
  obtain ⟨t, ht, row, hrow, huri, howner⟩ := h entry hentry
  exact ⟨t, ht, row, grows t.table hrow, huri, howner⟩

end Growing

theorem Linked.of_skeleton_eq {db : Database} {owner : Option Int} {t : RecordType}
    {stored body : Members} (h : Linked db owner t stored)
    (same : Json.skeletonMembers body = Json.skeletonMembers stored) : Linked db owner t body := by
  intro field hfield allowed hallowed v hv
  obtain ⟨w, hw, htext⟩ := Registry.exists_reference_of_skeleton_eq same hv
  obtain ⟨uri, r, u, huri, hr, hnames⟩ := h field hfield allowed hallowed w hw
  exact ⟨uri, r, u, htext ▸ huri, hr, hnames⟩

theorem Consistent.intact {db : Database} (h : Consistent db) : Intact db := by
  intro name row hrow
  obtain ⟨t, ht, htable, hkept⟩ := h name row hrow
  obtain ⟨stored, hdistinct, hjson, hlinked⟩ := hkept.written
  refine ⟨t, ht, htable, ⟨stored, hjson, hlinked⟩, ?_⟩
  intro body hbody
  rw [hjson] at hbody
  exact hlinked.of_skeleton_eq (Json.parseObject_render hdistinct hbody)

theorem Consistent.kept {db : Database} (h : Consistent db) {t : RecordType}
    (ht : t ∈ standard.types) {row : Row} (hrow : row ∈ db.rowsOf t.table) : Kept db t row := by
  obtain ⟨u, hu, htable, hkept⟩ := h t.table row hrow
  obtain rfl := table_inj u hu t ht htable
  exact hkept

section Resolving

variable {repository : Int} {transactional : Bool} {created : Created} {c : Connection}
  (consistent : Consistent c.database) (indexed : created.Indexed)
  (rooted : Rooted repository created c.database)

include consistent indexed rooted

theorem resolve_names {site : Site} {reference uri : String}
    (h : resolve ⟨standard, repository⟩ (Connection.storage transactional) created site reference c
      = (.ok uri, c)) :
    ∃ r t, standard.parseReference? uri = some r ∧
      Names c.database (some repository) site.allowed r t := by
  obtain ⟨-, r, hr, hallowed, hfound⟩ := resolve_ok (recordExists_reads transactional) h
  obtain ⟨record, hget, rfl⟩ | ⟨-, rfl, hrepository, t, ht, hexists⟩ := hfound
  · obtain ⟨t, ht, row, hrow, huri, howner⟩ := rooted _ (Created.mem_of_get?_eq_some indexed hget)
    have hparsed := hr
    rw [huri, Registry.parseReference?_standard ht] at hparsed
    split at hparsed
    · obtain rfl := Option.some.inj hparsed
      refine ⟨_, t, hr, hallowed, get?_name t ht, ?_, row, hrow, rfl, howner⟩
      rw [shownRepository]
      cases t.scope <;> rfl
    · cases hparsed
  · obtain ⟨u, hu, hname, hagrees⟩ := Registry.parseReference?_type hr
    have htype : standard.get? r.typeName = some u := by
      rw [← hname]
      exact get?_name u hu
    obtain rfl : u = t := Option.some.inj (htype.symm.trans ht)
    have hstored : c.database.recordExists u.table r.id r.repository = .ok true :=
      Connection.recordExists_ok (congrArg Prod.fst hexists)
    obtain ⟨row, hrow, hid, howner⟩ := Database.recordExists_ok (table_apart u hu) hstored
    cases hscope : u.scope with
    | repository =>
      rw [hscope] at hagrees
      have hsome : r.repository ≠ none := Option.isSome_iff_ne_none.1 hagrees
      refine ⟨r, u, hr, hallowed, htype, ?_, row, hrow, hid, howner.resolve_left hsome⟩
      rw [hscope, if_pos rfl]
      exact hrepository.resolve_left hsome
    | global =>
      rw [hscope] at hagrees
      have hnone : r.repository = none := Option.isNone_iff_eq_none.1 hagrees
      refine ⟨r, u, hr, hallowed, htype, ?_, row, hrow, hid, ?_⟩
      · rw [hscope, hnone]
        rfl
      · rw [hnone]
        exact (consistent.kept hu hrow).owner hscope

theorem linked_storedBody {t : RecordType} (ht : t ∈ standard.types) {subject : String}
    {body body' : Members} (distinct : body.Distinct)
    (h : rewriteFields ⟨standard, repository⟩ (Connection.storage transactional) created subject
      t.schema.referenceFields body c = (.ok body', c)) :
    (storedBody t body').Distinct ∧
      Linked c.database (shownRepository t repository) t (storedBody t body') := by
  obtain ⟨hnames, hkept⟩ := field_names t ht
  obtain ⟨-, hresolved⟩ := rewriteFields_ok (recordExists_reads transactional) hnames distinct h
  refine ⟨distinct_storedBody hresolved.distinct, ?_⟩
  intro field hfield allowed hallowed v hv
  have hreference : field.kind.isReference = true := by
    rw [Registry.FieldKind.isReference, hallowed]
    rfl
  rw [Registry.references_congr
    (get?_storedBody hresolved.distinct (hkept field hfield))] at hv
  obtain ⟨_, -, reference, uri, -, huri, hresolve, -⟩ :=
    hresolved.rewritten field (List.mem_filter.2 ⟨hfield, hreference⟩) v hv
  obtain ⟨r, u, hr, hu⟩ := resolve_names consistent indexed rooted hresolve
  have hsite : (siteOf subject field).allowed = allowed := by
    rw [siteOf, hallowed]
    rfl
  have howner : shownRepository t repository = some repository := by
    rw [shownRepository, reference_scope t ht field hfield hreference]
  rw [hsite] at hu
  rw [howner]
  exact ⟨uri, r, u, huri, hr, hu⟩

theorem consistent_stores {record : Record} {persisted : Persisted} {db : Database}
    (admitted : Admitted standard record) (fresh : created.get? record.logicalId = none)
    (stores : Stores ⟨standard, repository⟩ created c record persisted db) :
    Consistent db ∧ Rooted repository (created.insert record.logicalId persisted).1 db := by
  obtain ⟨transactional, body, hrewrite, hinsert, huri⟩ := stores
  obtain ⟨piece, hparsed⟩ := admitted.parsed
  have ht : record.type ∈ standard.types := admitted.registered
  obtain ⟨hdistinct, hlinked⟩ := linked_storedBody consistent indexed rooted ht
    (Json.parseObject_distinct hparsed) hrewrite
  have hgrows : ∀ name, c.database.rowsOf name ⊆ db.rowsOf name :=
    fun name row hrow => (Database.mem_rowsOf_insert hinsert).2 (.inl hrow)
  let row : Row :=
    { Store.NewRecord.columns (newRecord ⟨standard, repository⟩ record body) with id := persisted.id }
  have howner : row.repository = shownRepository record.type repository := rfl
  constructor
  · intro name other hother
    obtain hold | ⟨htable, hnew⟩ := (Database.mem_rowsOf_insert hinsert).1 hother
    · obtain ⟨t, ht, htable, hkept⟩ := consistent name other hold
      exact ⟨t, ht, htable, hkept.mono hgrows⟩
    · obtain rfl : other = row := hnew
      refine ⟨record.type, ht, htable, ?_, storedBody record.type body, hdistinct, rfl,
        howner ▸ hlinked.mono hgrows⟩
      intro hscope
      rw [howner, shownRepository, hscope]
  · intro entry hentry
    rw [Created.toList_insert indexed fresh, List.mem_append, List.mem_singleton] at hentry
    obtain hentry | rfl := hentry
    · exact rooted.mono hgrows entry hentry
    · exact ⟨record.type, ht, row, (Database.mem_rowsOf_insert hinsert).2
        (.inr ⟨Store.sameName_refl _, rfl⟩), huri, howner⟩

end Resolving

theorem consistent_batch (i : Import) (db : Database) (h : Consistent db) :
    Consistent (i.database standard db) := by
  have hholds : Consistent db ∧ Rooted i.repository Created.empty db := by
    refine ⟨h, ?_⟩
    intro entry hentry
    rw [Created.toList_empty] at hentry
    cases hentry
  obtain ⟨⟨hconsistent, -⟩, -⟩ := i.keeps standard db
    (P := fun created db => Consistent db ∧ Rooted i.repository created db) hholds
    (by
      intro record admitted created c persisted db fresh indexed holds stores
      obtain ⟨hconsistent, hrooted⟩ := holds
      exact consistent_stores hconsistent indexed hrooted admitted fresh stores)
  exact hconsistent

theorem consistent_createRepository (db : Database) (code name : String) (id : Int)
    (db' : Database) (h : Consistent db) (created : db.createRepository code name = .ok (id, db')) :
    Consistent db' := by
  have hrows := Database.rowsOf_createRepository created
  intro table row hrow
  rw [hrows] at hrow
  obtain ⟨t, ht, htable, hkept⟩ := h table row hrow
  refine ⟨t, ht, htable, hkept.mono ?_⟩
  intro name row hrow
  rw [hrows]
  exact hrow

/-- From a database without records, whatever repositories are created and whatever is sent to be
stored in whatever mode, and whatever calls of the storage fail: every reference that is stored in a
declared field names a record that is stored and that the field and the repository admit. -/
theorem references_intact (db : Database) (empty : ∀ t ∈ db.tables, t.rows = [])
    (events : List Event) : Intact (after standard db events) := by
  have hstart : Consistent db := by
    intro name row hrow
    rw [Database.rowsOf_of_empty empty] at hrow
    cases hrow
  exact (after_keeps consistent_createRepository consistent_batch hstart events).intact

def shelves : Database := (Store.createSchema standard {}).2

def family : Import where
  repository := 1
  body := Text.Utf8.encode
    "\x7b\"id\":\"p\",\"title\":\"P\"\x7d\x7b\"id\":\"c\",\"title\":\"C\",\"parent\":\"p\"\x7d"

theorem references_intact_family :
    (∀ t ∈ shelves.tables, t.rows = []) ∧
      Intact (after standard shelves [.repository "main" "Main", .batch family]) ∧
      ((after standard shelves [.repository "main" "Main", .batch family]).rowsOf
          "archival_objects").map (fun row => (row.id, row.json))
        = [(1, "\x7b\"title\":\"P\",\"jsonmodel_type\":\"archival_object\"\x7d"),
          (2, "\x7b\"parent\":\"/repositories/1/archival_objects/1\",\"title\":\"C\","
            ++ "\"jsonmodel_type\":\"archival_object\"\x7d")] := by
  have empty : ∀ t ∈ shelves.tables, t.rows = [] := by decide +kernel
  exact ⟨empty, references_intact shelves empty _, by decide +kernel⟩

end Accession.Batch
