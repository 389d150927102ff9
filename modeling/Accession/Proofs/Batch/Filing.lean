import Accession.Proofs.Batch.Integrity
import Accession.Proofs.Batch.Relinking
import Accession.Proofs.Json.Exact
import Accession.Proofs.Registry.StandardTypes
import Accession.Proofs.Registry.Uris
import Accession.Proofs.Store.Shelved
import Accession.Store.ReadBack
set_option autoImplicit false

namespace Accession.Batch

open Json (Value Members)
open Store (Connection Database Row Shelved)
open Registry (Field isId relinkAll shownRepository standard)

/-- The uri of the entry that has a text for its identifier; other texts are uris themselves. -/
def urisAmong (entries : List (String × Persisted)) (reference : String) : String :=
  ((entries.lookup reference).map Persisted.uri).getD reference

theorem uriOf_eq {created : Created} (indexed : created.Indexed) :
    uriOf created = urisAmong created.toList := by
  funext reference
  rw [uriOf, urisAmong, Created.get?_eq_lookup indexed]

namespace Record

variable (record : Record)

def relinked (uris : String → String) : Members :=
  relinkAll uris record.type.schema.referenceFields record.body

def row (target : Target) (uris : String → String) (id : Int) : Row :=
  { Store.NewRecord.columns (newRecord target record (record.relinked uris)) with id }

def shown (uris : String → String) (uri : String) (name : String) : Option Value :=
  if name = "uri" then some (.str uri)
  else if name = "lock_version" then some (.num (.int 0))
  else if name = "jsonmodel_type" then some (.str record.type.name)
  else if name = "id" then none
  else
    match record.type.schema.referenceFields.find? (fun field => field.name == name) with
    | some field => (record.body.get? name).map (field.relink uris)
    | none => record.body.get? name

end Record

theorem Stores.inserted {target : Target} {created : Created} {c : Connection} {record : Record}
    {persisted : Persisted} {db : Database} (stores : Stores target created c record persisted db)
    (registered : record.type ∈ standard.types) :
    c.database.insert record.type.table
        (record.row target (uriOf created) persisted.id).toColumns = .ok (persisted.id, db) ∧
      persisted.uri = Registry.uriFor record.type target.repository persisted.id := by
  obtain ⟨transactional, body, hrewrite, hinsert, huri⟩ := stores
  obtain ⟨hnames, -⟩ := Registry.field_names record.type registered
  obtain ⟨-, rfl, -⟩ := (rewriteFields_iff (recordExists_reads transactional) hnames).1 hrewrite
  exact ⟨hinsert, huri⟩

/-- An entry is a record of the batch, under a uri that can be read, and its row holds what became
of the record among the entries before it. -/
structure Filed (repository : Int) (record : Record) (earlier : List (String × Persisted))
    (persisted : Persisted) (db : Database) : Prop where
  registered : record.type ∈ standard.types
  uri : persisted.uri = Registry.uriFor record.type repository persisted.id
  id : isId persisted.id = true
  owner : record.type.scope = .repository → isId repository = true
  shelved : Shelved db record.type.table
    (record.row ⟨standard, repository⟩ (urisAmong earlier) persisted.id)

/-- All entries are filed, each after the entries before it. -/
def AllFiled (repository : Int) (records : List Record) (created : Created) (db : Database) :
    Prop :=
  ∀ earlier logicalId persisted later,
    created.toList = earlier ++ (logicalId, persisted) :: later →
      ∃ record ∈ records, record.logicalId = logicalId ∧
        Filed repository record earlier persisted db

section Storing

variable {repository : Int} {created : Created} {c : Connection} {record : Record}
  {persisted : Persisted} {db : Database}
  (stores : Stores ⟨standard, repository⟩ created c record persisted db)
  (registered : record.type ∈ standard.types)

include stores registered

theorem filed_stores (numbered : c.database.Numbered) (indexed : created.Indexed) :
    Filed repository record created.toList persisted db := by
  obtain ⟨hinsert, huri⟩ := stores.inserted registered
  rw [uriOf_eq indexed] at hinsert
  obtain ⟨t, -, -, hmax, -, hhas, -⟩ := Database.insert_ok hinsert
  have hcounter := numbered.counters record.type.table
  have hid := Database.id_insert hinsert
  refine ⟨registered, huri, ?_, ?_, Store.shelved_insert numbered hinsert⟩
  · rw [isId, Bool.and_eq_true, decide_eq_true_eq, decide_eq_true_eq]
    exact ⟨by omega, hmax⟩
  · intro hscope
    have howner : (record.row ⟨standard, repository⟩ (urisAmong created.toList)
        persisted.id).repository = some repository := by
      change repositoryOf ⟨standard, repository⟩ record.type = _
      rw [repositoryOf, hscope]
    rw [howner] at hhas
    rw [isId, Bool.and_eq_true, decide_eq_true_eq, decide_eq_true_eq]
    exact numbered.repositories repository hhas

theorem Filed.later {other : Record} {earlier : List (String × Persisted)} {entry : Persisted}
    (filed : Filed repository other earlier entry c.database) :
    Filed repository other earlier entry db :=
  { filed with shelved := filed.shelved.insert (stores.inserted registered).1 }

theorem allFiled_stores {records : List Record} (hrecord : record ∈ records)
    (numbered : c.database.Numbered) (fresh : created.get? record.logicalId = none)
    (indexed : created.Indexed) (filed : AllFiled repository records created c.database) :
    AllFiled repository records (created.insert record.logicalId persisted).1 db := by
  intro earlier logicalId entry later hlist
  rw [Created.toList_insert indexed fresh] at hlist
  obtain rfl | ⟨front, last, rfl⟩ := List.eq_nil_or_concat later
  · obtain ⟨rfl, hlast⟩ := List.append_inj' hlist rfl
    cases hlast
    exact ⟨record, hrecord, rfl, filed_stores stores registered numbered indexed⟩
  · have hsplit : created.toList ++ [(record.logicalId, persisted)]
        = (earlier ++ (logicalId, entry) :: front) ++ [last] := by
      rw [hlist, List.append_assoc, List.cons_append, List.concat_eq_append]
    obtain ⟨hfront, -⟩ := List.append_inj' hsplit rfl
    obtain ⟨other, hother, hid, hfiled⟩ := filed earlier logicalId entry front hfront
    exact ⟨other, hother, hid, hfiled.later stores registered⟩

end Storing

theorem Import.allFiled (i : Import) {db : Database} (numbered : db.Numbered) :
    AllFiled i.repository (recordsOf standard i.body).1 (i.outcome standard db).saved
      (i.database standard db) := by
  obtain ⟨⟨-, hfiled⟩, -⟩ := i.keeps_records standard db
    (P := fun created db => db.Numbered ∧
      AllFiled i.repository (recordsOf standard i.body).1 created db)
    ⟨numbered, by
      intro earlier logicalId persisted later hlist
      rw [Created.toList_empty] at hlist
      cases earlier <;> cases hlist⟩
    (by
      rintro record hrecord created c persisted db fresh indexed ⟨hnumbered, hfiled⟩ stores
      have hregistered := (recordsOf_admitted hrecord).registered
      exact ⟨hnumbered.insert (stores.inserted hregistered).1,
        allFiled_stores stores hregistered hrecord hnumbered fresh indexed hfiled⟩)
  exact hfiled

section Lasting

theorem shelved_batch {name : String} {row : Row} (i : Import) (db : Database)
    (shelved : Shelved db name row) : Shelved (i.database standard db) name row :=
  (i.keeps standard db (P := fun _ db => Shelved db name row) shelved
    (fun _ admitted _ _ _ _ _ _ shelved stores =>
      shelved.insert (stores.inserted admitted.registered).1)).1

theorem shelved_after {name : String} {row : Row} {db : Database} (shelved : Shelved db name row)
    (events : List Event) : Shelved (after standard db events) name row :=
  after_keeps (P := fun db => Shelved db name row)
    (fun _ _ _ _ _ shelved created => shelved.createRepository created) shelved_batch shelved events

theorem sequenced_after {db : Database} (sequenced : db.Sequenced) (events : List Event) :
    (after standard db events).Sequenced :=
  after_keeps (P := Database.Sequenced)
    (fun _ _ _ _ _ sequenced created => sequenced.createRepository created)
    (fun i db sequenced => (i.keeps standard db (P := fun _ db => db.Sequenced) sequenced
      (fun _ admitted _ _ _ _ _ _ sequenced stores =>
        sequenced.insert (stores.inserted admitted.registered).1)).1)
    sequenced events

def founded : Database :=
  after standard shelves [.repository "main" "Main"]

theorem numbered_founded : founded.Numbered := by
  have sequenced : shelves.Sequenced := .of_empty (by decide +kernel) (by decide +kernel)
  exact (sequenced_after sequenced _).toNumbered

end Lasting

section Showing

variable (uris : String → String)

section Bounds

variable {p : Value → Prop} (hereditary : Json.Hereditary p)

include hereditary

theorem bounded_relink {v : Value} (distinct : v.Distinct) (holds : p v) :
    (Registry.relink uris v).Distinct ∧ p (Registry.relink uris v) ∧
      (Registry.relink uris v).height ≤ v.height := by
  cases hreference : Registry.refValue? v with
  | none =>
    have hsame : Registry.relink uris v = v := by
      unfold Registry.relink
      rw [hreference]
    rw [hsame]
    exact ⟨distinct, holds, Nat.le_refl _⟩
  | some reference =>
    obtain ⟨s, rfl⟩ | ⟨members, rfl⟩ :=
      Registry.refValue?_isSome_cases (Option.isSome_iff_exists.2 ⟨_, hreference⟩)
    · rw [Registry.relink_str hreference]
      exact ⟨trivial, hereditary.str _, Nat.le_refl _⟩
    · have huri : (Value.str (uris reference)).Distinct := trivial
      rw [Registry.relink_obj hreference]
      refine ⟨Members.distinct_insert distinct huri "ref", ?_, ?_⟩
      · rw [hereditary.obj] at holds ⊢
        intro m hm
        obtain rfl | hm := Members.mem_insert hm
        · exact hereditary.str _
        · exact holds m hm
      · have hmembers := (Json.membersHeight_le members _).1 (Nat.le_refl _)
        rw [Value.height, Value.height, Nat.succ_le_succ_iff, Json.membersHeight_le]
        intro m hm
        obtain rfl | hm := Members.mem_insert hm
        · exact Nat.zero_le _
        · exact hmembers m hm

theorem bounded_fieldRelink (field : Field) {v : Value} (distinct : v.Distinct) (holds : p v) :
    (field.relink uris v).Distinct ∧ p (field.relink uris v) ∧
      (field.relink uris v).height ≤ v.height := by
  by_cases hmany : ∃ items allowed, v = .arr items ∧ field.kind = .refList allowed
  · obtain ⟨items, allowed, rfl, hkind⟩ := hmany
    rw [Value.Distinct, Json.distinctItems_iff] at distinct
    rw [hereditary.arr] at holds
    rw [Registry.Field.relink_items hkind, Value.Distinct, Json.distinctItems_iff, hereditary.arr,
      Value.height, Value.height, Nat.succ_le_succ_iff, Json.itemsHeight_le]
    have hitems := (Json.itemsHeight_le items _).1 (Nat.le_refl _)
    refine ⟨?_, ?_, ?_⟩ <;> rintro v' hv' <;> obtain ⟨v, hv, rfl⟩ := List.mem_map.1 hv' <;>
      obtain ⟨hdistinct, hholds, hheight⟩ :=
        bounded_relink uris hereditary (distinct v hv) (holds v hv)
    · exact hdistinct
    · exact hholds
    · exact Nat.le_trans hheight (hitems v hv)
  · rw [Registry.Field.relink_one (fun items allowed hv hkind => hmany ⟨items, allowed, hv, hkind⟩)]
    exact bounded_relink uris hereditary distinct holds

theorem bounded_relinkAll (fields : List Field) {body : Members} (h : body.Bounded p) :
    (relinkAll uris fields body).Bounded p := by
  induction fields generalizing body with
  | nil => exact h
  | cons field rest ih =>
    refine ih ?_
    rw [Registry.relinkField]
    cases hpresent : Registry.present? body field.name with
    | none => exact h
    | some v =>
      obtain ⟨hget, -⟩ := Option.filter_eq_some_iff.1 hpresent
      have hmem := Members.mem_of_get?_eq_some hget
      obtain ⟨hdistinct, hholds, hheight⟩ := bounded_fieldRelink uris hereditary field
        (Registry.distinct_of_present? h.distinct hpresent) (h.values _ hmem)
      exact h.insert hdistinct hholds (Nat.lt_of_le_of_lt hheight (h.height _ hmem)) field.name

theorem bounded_stored {record : Record} (h : record.body.Bounded p) :
    (storedBody record.type (record.relinked uris)).Bounded p :=
  (((bounded_relinkAll uris hereditary _ h).swapRemove "uri").swapRemove "id").insert
    (v := .str record.type.name) trivial (hereditary.str _) (Nat.zero_lt_succ _) "jsonmodel_type"

end Bounds

theorem get?_complete (row : Row) (uri : String) (body : Members) (name : String) :
    (row.complete uri body).get? name =
      if name = "lock_version" then some (.num (.int row.lockVersion))
      else if name = "uri" then some (.str uri) else body.get? name := by
  rw [Row.complete]
  by_cases hversion : name = "lock_version"
  · rw [if_pos hversion, hversion, Members.get?_insert_self]
  · rw [if_neg hversion, Members.get?_insert_of_ne _ _ (Ne.symm hversion)]
    by_cases huri : name = "uri"
    · rw [if_pos huri, huri, Members.get?_insert_self]
    · rw [if_neg huri, Members.get?_insert_of_ne _ _ (Ne.symm huri)]

theorem get?_shown {record : Record} (registered : record.type ∈ standard.types)
    (readable : record.body.Readable) (target : Target) (uri : String) (id : Int)
    (name : String) :
    ((record.row target uris id).complete uri
        (storedBody record.type (record.relinked uris))).get? name
      = record.shown uris uri name := by
  obtain ⟨hnames, -⟩ := Registry.field_names record.type registered
  have hdistinct : (record.relinked uris).Distinct :=
    (bounded_relinkAll uris Json.hereditary_whole record.type.schema.referenceFields
      (Members.readable_iff.1 readable)).distinct
  rw [get?_complete, Record.shown]
  by_cases huri : name = "uri"
  · rw [huri]
    rfl
  by_cases hversion : name = "lock_version"
  · rw [hversion]
    rfl
  rw [if_neg hversion, if_neg huri, if_neg huri, if_neg hversion]
  by_cases htype : name = "jsonmodel_type"
  · rw [if_pos htype, htype, storedBody, Members.get?_insert_self]
  rw [if_neg htype]
  by_cases hid : name = "id"
  · rw [if_pos hid, hid, storedBody, Members.get?_insert_of_ne _ _ (by decide)]
    exact Members.get?_swapRemove_self
      (Members.nodup_swapRemove ((Members.distinct_iff _).1 hdistinct).1 "uri") "id"
  · rw [if_neg hid, get?_storedBody hdistinct (by simp [huri, htype, hid])]
    exact Registry.get?_relinkAll hnames name

theorem Filed.fetchRecord {repository : Int} {record : Record}
    {earlier : List (String × Persisted)} {persisted : Persisted} {db : Database}
    (filed : Filed repository record earlier persisted db) (readable : record.body.Readable) :
    ∃ shown, db.fetchRecord standard persisted.uri = .ok (some shown) ∧ shown.Readable ∧
      ∀ name, shown.get? name = record.shown (urisAmong earlier) persisted.uri name := by
  let row := record.row ⟨standard, repository⟩ (urisAmong earlier) persisted.id
  have howner : row.repository = shownRepository record.type repository := rfl
  have hrow := filed.shelved.row? (.inr howner)
  have hstored := Members.readable_iff.2 (bounded_stored (urisAmong earlier) Json.hereditary_whole
    (Members.readable_iff.1 readable))
  have hparse : Json.parseObject (Text.Utf8.encode row.json)
      = .ok (storedBody record.type (record.relinked (urisAmong earlier))) :=
    hstored.parseObject_render
  refine ⟨row.complete persisted.uri (storedBody record.type (record.relinked (urisAmong earlier))),
    ?_, ?_, get?_shown _ filed.registered readable _ _ _⟩
  · rw [Database.fetchRecord]
    rw [show standard.parseReference? persisted.uri
      = some ⟨record.type.name, persisted.id, shownRepository record.type repository⟩ by
        rw [filed.uri, Registry.parseReference?_standard filed.registered,
          if_pos ⟨filed.id, filed.owner⟩]]
    dsimp only
    rw [Registry.get?_name record.type filed.registered]
    dsimp only
    rw [show db.row? record.type.table persisted.id (shownRepository record.type repository)
      = .ok (some row) from hrow]
    dsimp only
    rw [hparse]
  · have hversion : (Value.num (.int row.lockVersion)).Whole :=
      ⟨(by decide : Text.Integer.min64 ≤ 0), (by decide : (0 : Int) ≤ Text.Integer.maxUnsigned64)⟩
    have huri := hstored.insert (v := .str persisted.uri) trivial trivial (Nat.zero_lt_succ _) "uri"
    exact huri.insert (v := .num (.int row.lockVersion)) trivial hversion (Nat.zero_lt_succ _)
      "lock_version"

end Showing

end Accession.Batch
