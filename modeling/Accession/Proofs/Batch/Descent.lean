import Accession.Proofs.Batch.Filing
set_option autoImplicit false

namespace Accession.Batch

open Json (Value Members)
open Store (Connection Database Row sameName)
open Registry (RecordType refValue? references standard present?)

/-- The references of a body in declared fields read as references to types that their field admits;
those into the table of the type itself are below an id. -/
def Descends (t : RecordType) (id : Int) (body : Members) : Prop :=
  ∀ field ∈ t.schema.fields, ∀ allowed, field.kind.allowed? = some allowed →
    ∀ v ∈ references body field, ∃ uri r u, refValue? v = some uri ∧
      standard.parseReference? uri = some r ∧ standard.get? r.typeName = some u ∧
      r.typeName ∈ allowed ∧ (sameName u.table t.table = true → r.id < id)

/-- Every row is in the table of a standard type, and what it holds refers below it: what was
written to it, and whatever object its text reads as. -/
def Descending (db : Database) : Prop :=
  ∀ name, ∀ row ∈ db.rowsOf name, ∃ t ∈ standard.types, sameName t.table name = true ∧
    (∃ stored : Members, row.json = stored.render ∧ Descends t row.id stored) ∧
    ∀ body, Json.parseObject (Text.Utf8.encode row.json) = .ok body → Descends t row.id body

def parent? (db : Database) (uri : String) : Option String :=
  match db.fetchRecord standard uri with
  | .ok (some body) => (present? body "parent").bind refValue?
  | _ => none

/-- Where that many links to a parent lead; none if the chain of parents is shorter. -/
def ancestor? (db : Database) : Nat → String → Option String
  | 0, uri => some uri
  | n + 1, uri => (parent? db uri).bind (ancestor? db n)

structure Ordered (db : Database) : Prop where
  counted : ∀ name, ∀ row ∈ db.rowsOf name, row.id ≤ db.counter name
  written : ∀ t ∈ standard.types, ∀ row ∈ db.rowsOf t.table, ∃ stored : Members,
    stored.Distinct ∧ row.json = stored.render ∧ Descends t row.id stored

theorem Linked.descends {db : Database} {owner : Option Int} {t : RecordType} {body : Members}
    (linked : Linked db owner t body)
    (counted : ∀ name, ∀ row ∈ db.rowsOf name, row.id ≤ db.counter name) :
    Descends t (db.counter t.table + 1) body := by
  intro field hfield allowed hallowed v hv
  obtain ⟨uri, r, u, huri, hr, hnames⟩ := linked field hfield allowed hallowed v hv
  refine ⟨uri, r, u, huri, hr, hnames.type, hnames.admitted, ?_⟩
  intro htable
  obtain ⟨row, hrow, hid, -⟩ := hnames.stored
  have hle := counted u.table row hrow
  rw [Database.counter_congr htable] at hle
  omega

theorem Descends.of_skeleton_eq {t : RecordType} {id : Int} {stored body : Members}
    (h : Descends t id stored)
    (same : Json.skeletonMembers body = Json.skeletonMembers stored) : Descends t id body := by
  intro field hfield allowed hallowed v hv
  obtain ⟨w, hw, htext⟩ := Registry.exists_reference_of_skeleton_eq same hv
  obtain ⟨uri, r, u, huri, hr⟩ := h field hfield allowed hallowed w hw
  exact ⟨uri, r, u, htext ▸ huri, hr⟩

theorem Ordered.descending {db : Database} (h : Ordered db) (consistent : Consistent db) :
    Descending db := by
  intro name row hrow
  obtain ⟨t, ht, htable, -⟩ := consistent name row hrow
  have hsame : db.rowsOf name = db.rowsOf t.table := by
    rw [Database.rowsOf, Database.rowsOf, Database.table?_congr htable]
  rw [hsame] at hrow
  obtain ⟨stored, hdistinct, hjson, hdescends⟩ := h.written t ht row hrow
  refine ⟨t, ht, htable, ⟨stored, hjson, hdescends⟩, ?_⟩
  intro body hbody
  rw [hjson] at hbody
  exact hdescends.of_skeleton_eq (Json.parseObject_render hdistinct hbody)

theorem ordered_stores {repository : Int} {created : Created} {c : Connection} {record : Record}
    {persisted : Persisted} {db : Database} (ordered : Ordered c.database)
    (consistent : Consistent c.database) (indexed : created.Indexed)
    (rooted : Rooted repository created c.database) (admitted : Admitted standard record)
    (stores : Stores ⟨standard, repository⟩ created c record persisted db) : Ordered db := by
  obtain ⟨transactional, body, hrewrite, hinsert, -⟩ := stores
  obtain ⟨piece, hparsed⟩ := admitted.parsed
  obtain ⟨hdistinct, hlinked⟩ := linked_storedBody consistent indexed rooted admitted.registered
    (Json.parseObject_distinct hparsed) hrewrite
  refine ⟨Database.counted_insert hinsert ordered.counted, ?_⟩
  intro t ht row hrow
  obtain hold | ⟨htable, rfl⟩ := (Database.mem_rowsOf_insert hinsert).1 hrow
  · exact ordered.written t ht row hold
  · obtain rfl := Registry.table_inj record.type admitted.registered t ht htable
    have hdescends := hlinked.descends ordered.counted
    rw [← Database.id_insert hinsert] at hdescends
    exact ⟨storedBody record.type body, hdistinct, rfl, hdescends⟩

theorem ordered_batch (i : Import) (db : Database) (h : Consistent db ∧ Ordered db) :
    Consistent (i.database standard db) ∧ Ordered (i.database standard db) := by
  obtain ⟨hconsistent, hordered⟩ := h
  have hrooted : Rooted i.repository Created.empty db := by
    intro entry hentry
    rw [Created.toList_empty] at hentry
    cases hentry
  obtain ⟨⟨hconsistent, -, hordered⟩, -⟩ := i.keeps standard db
    (P := fun created db => Consistent db ∧ Rooted i.repository created db ∧ Ordered db)
    ⟨hconsistent, hrooted, hordered⟩
    (by
      intro record admitted created c persisted db fresh indexed holds stores
      obtain ⟨hconsistent, hrooted, hordered⟩ := holds
      obtain ⟨hnext, hroots⟩ :=
        consistent_stores hconsistent indexed hrooted admitted fresh stores
      exact ⟨hnext, hroots,
        ordered_stores hordered hconsistent indexed hrooted admitted stores⟩)
  exact ⟨hconsistent, hordered⟩

theorem ordered_createRepository (db : Database) (code name : String) (id : Int)
    (db' : Database) (h : Consistent db ∧ Ordered db)
    (created : db.createRepository code name = .ok (id, db')) :
    Consistent db' ∧ Ordered db' := by
  obtain ⟨hconsistent, hordered⟩ := h
  refine ⟨consistent_createRepository db code name id db' hconsistent created, ?_⟩
  obtain ⟨rs, -, -, -, -, rfl⟩ := Database.createRepository_ok created
  exact ⟨hordered.counted, hordered.written⟩

theorem descending_after {db : Database} (empty : ∀ t ∈ db.tables, t.rows = [])
    (events : List Event) : Descending (after standard db events) := by
  have hnone (name : String) (row : Row) : row ∉ db.rowsOf name := by
    rw [Database.rowsOf_of_empty empty]
    exact List.not_mem_nil
  have hstart : Consistent db ∧ Ordered db :=
    ⟨fun name row hrow => absurd hrow (hnone name row),
      fun name row hrow => absurd hrow (hnone name row),
      fun t _ row hrow => absurd hrow (hnone t.table row)⟩
  obtain ⟨hconsistent, hordered⟩ :=
    after_keeps ordered_createRepository ordered_batch hstart events
  exact hordered.descending hconsistent

section Climbing

variable {db : Database}

theorem fetchRecord_ok {registry : Registry} {uri : String} {shown : Members}
    (h : db.fetchRecord registry uri = .ok (some shown)) :
    ∃ r t row body, registry.parseReference? uri = some r ∧ registry.get? r.typeName = some t ∧
      row ∈ db.rowsOf t.table ∧ row.id = r.id ∧
      Json.parseObject (Text.Utf8.encode row.json) = .ok body ∧ shown = row.complete uri body := by
  unfold Database.fetchRecord at h
  split at h
  · cases h
  · rename_i r hr
    split at h
    · cases h
    · rename_i t ht
      split at h
      · cases h
      · cases h
      · rename_i row hrow
        obtain ⟨hmem, hid⟩ := Database.row?_ok hrow
        split at h
        · cases h
        · rename_i body hbody
          cases h
          exact ⟨r, t, row, body, hr, ht, hmem, hid, hbody, rfl⟩

theorem parent?_descends (descending : Descending db) {uri parent : String} {r : Reference}
    (hr : standard.parseReference? uri = some r) (tree : r.typeName ∈ Registry.treeTypeNames)
    (h : parent? db uri = some parent) :
    ∃ p, standard.parseReference? parent = some p ∧ p.typeName = r.typeName ∧ p.id < r.id := by
  unfold parent? at h
  split at h
  · rename_i shown hfetch
    obtain ⟨r', t, row, body, hr', ht, hrow, hid, hbody, rfl⟩ := fetchRecord_ok hfetch
    obtain rfl : r = r' := Option.some.inj (hr.symm.trans hr')
    obtain ⟨v, hv, hparent⟩ := Option.bind_eq_some_iff.1 h
    have hmem : t ∈ standard.types := List.mem_of_find?_eq_some ht
    have hname : t.name = r.typeName := by simpa using List.find?_some ht
    obtain ⟨u, hu, htable, -, hparsed⟩ := descending t.table row hrow
    obtain rfl := Registry.table_inj u hu t hmem htable
    obtain ⟨field, hfield, hfieldName, hkind⟩ := Registry.parent_field u hmem (hname ▸ tree)
    rw [present?, get?_complete, if_neg (by decide), if_neg (by decide), ← present?,
      ← hfieldName] at hv
    have hreferences : references body field = [v] :=
      Registry.references_one hv (Option.isSome_iff_exists.2 ⟨parent, hparent⟩)
    obtain ⟨uri', p, w, huri', hp, hw, hallowed, hbelow⟩ := hparsed body hbody field hfield [u.name]
      (by rw [hkind]; rfl) v (by rw [hreferences]; exact List.mem_singleton_self v)
    obtain rfl : parent = uri' := Option.some.inj (hparent.symm.trans huri')
    rw [List.mem_singleton] at hallowed
    rw [hallowed, Registry.get?_name u hmem] at hw
    obtain rfl := Option.some.inj hw
    have hlt := hbelow (Store.sameName_refl _)
    exact ⟨p, hp, hallowed.trans hname, by omega⟩
  · cases h

theorem ancestor?_eq_none (descending : Descending db) {uri : String} {r : Reference}
    (hr : standard.parseReference? uri = some r) (tree : r.typeName ∈ Registry.treeTypeNames)
    {n : Nat} (hn : r.id ≤ n) : ancestor? db n uri = none := by
  induction n generalizing uri r with
  | zero =>
    have hpositive := Registry.parseReference?_positive hr
    omega
  | succ n ih =>
    rw [ancestor?]
    cases hparent : parent? db uri with
    | none => rfl
    | some parent =>
      obtain ⟨p, hp, htype, hlt⟩ := parent?_descends descending hr tree hparent
      exact ih hp (htype ▸ tree) (by omega)

end Climbing

/-- From a database without records, whatever repositories are created and whatever is sent to be
stored in whatever mode, and whatever calls of the storage fail: a reference that a row has to a row
of the same table is to a smaller id, and the parents of an archival object or of a classification
term come to an end, within as many steps as its id says. -/
theorem references_descend (db : Database) (empty : ∀ t ∈ db.tables, t.rows = [])
    (events : List Event) :
    Descending (after standard db events) ∧
      ∀ uri r, standard.parseReference? uri = some r →
        r.typeName ∈ ["archival_object", "classification_term"] →
        ancestor? (after standard db events) r.id.toNat uri = none := by
  have hdescending := descending_after empty events
  refine ⟨hdescending, ?_⟩
  intro uri r hr tree
  exact ancestor?_eq_none hdescending hr tree (Int.self_le_toNat r.id)

def guess : Import where
  repository := 1
  body := Text.Utf8.encode ("\x7b\"id\":\"p\",\"title\":\"P\"\x7d"
    ++ "\x7b\"id\":\"c\",\"title\":\"C\","
    ++ "\"parent\":\"/repositories/1/archival_objects/1\"\x7d")

theorem references_descend_guess :
    (∀ t ∈ shelves.tables, t.rows = []) ∧
      (standard.parseReference? "/repositories/1/archival_objects/2"
          = some ⟨"archival_object", 2, some 1⟩ ∧
        parent? (after standard shelves [.repository "main" "Main", .batch guess])
          "/repositories/1/archival_objects/2" = some "/repositories/1/archival_objects/1") ∧
      ancestor? (after standard shelves [.repository "main" "Main", .batch guess]) 2
        "/repositories/1/archival_objects/2" = none := by
  have empty : ∀ t ∈ shelves.tables, t.rows = [] := by decide +kernel
  have named : standard.parseReference? "/repositories/1/archival_objects/2"
      = some ⟨"archival_object", 2, some 1⟩ := by decide +kernel
  obtain ⟨-, hends⟩ := references_descend shelves empty
    [.repository "main" "Main", .batch guess]
  exact ⟨empty, ⟨named, by decide +kernel⟩, hends _ _ named (by decide)⟩

end Accession.Batch
