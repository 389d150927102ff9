import Accession.Proofs.Batch.Imports
import Accession.Proofs.Registry.Uris
import Accession.Proofs.Store.Tables
set_option autoImplicit false

namespace Accession.Batch

open Store (Connection Database Row sameName maxId)
open Registry (RecordType shownRepository isId)

/-- A row that an import put into the table of a type. -/
structure Addition where
  type : RecordType
  row : Row

def Addition.persisted (repository : Int) (a : Addition) : Persisted :=
  ⟨Registry.uriFor a.type repository a.row.id, a.row.id⟩

def Addition.reference (repository : Int) (a : Addition) : Reference :=
  ⟨a.type.name, a.row.id, shownRepository a.type repository⟩

structure Accounted (registry : Registry) (repository : Int) (before : Database)
    (added : List Addition) (saved : Created) (after : Database) : Prop where
  /-- Every table has its old rows and after them those that were added to it. -/
  rows : ∀ name, after.rowsOf name = before.rowsOf name
    ++ (added.filter (fun a => sameName a.type.table name)).map Addition.row
  entries : saved.toList.map (·.2) = added.map (Addition.persisted repository)
  repositories : after.repositories = before.repositories
  types : ∀ a ∈ added, a.type ∈ registry.types
  owners : ∀ a ∈ added, a.row.repository = shownRepository a.type repository ∧
    a.row.repository.all before.hasRepository = true
  /-- No table ever gave the id of a row that was added before. -/
  ids : ∀ a ∈ added, before.counter a.type.table < a.row.id ∧
    a.row.id ≤ after.counter a.type.table ∧ a.row.id ≤ maxId
  apart : added.Pairwise (fun a b => sameName a.type.table b.type.table = true →
    a.row.id < b.row.id)
  counters : ∀ name, before.counter name ≤ after.counter name

theorem accounted_refl (registry : Registry) (repository : Int) (db : Database) :
    Accounted registry repository db [] Created.empty db where
  rows name := by simp
  entries := rfl
  repositories := rfl
  types := by simp
  owners := by simp
  ids := by simp
  apart := .nil
  counters name := Int.le_refl _

theorem accounted_insert {registry : Registry} {repository : Int} {before db db' : Database}
    {added : List Addition} {created : Created} {key : String} {a : Addition}
    (accounted : Accounted registry repository before added created db)
    (fresh : created.get? key = none) (indexed : created.Indexed) (type : a.type ∈ registry.types)
    (owner : a.row.repository = shownRepository a.type repository)
    (inserted : db.insert a.type.table a.row.toColumns = .ok (a.row.id, db')) :
    Accounted registry repository before (added ++ [a])
      (created.insert key (a.persisted repository)).1 db' := by
  have hid := Database.id_insert inserted
  obtain ⟨_, -, -, hmax, -, hhas, -⟩ := Database.insert_ok inserted
  have hcounter : db'.counter a.type.table = a.row.id := by
    rw [Database.counter_insert inserted, Store.sameName_refl, if_pos rfl]
  have hgrows := Database.counter_le_insert inserted
  constructor
  · intro name
    rw [Database.rowsOf_insert inserted, accounted.rows, List.filter_append, List.map_append,
      List.append_assoc]
    congr 2
    by_cases hname : sameName a.type.table name = true <;> simp [hname]
  · rw [Created.toList_insert indexed fresh, List.map_append, List.map_append, accounted.entries]
    rfl
  · exact (Database.repositories_insert inserted).trans accounted.repositories
  · intro b hb
    obtain hb | hb := List.mem_append.1 hb
    · exact accounted.types b hb
    · rw [List.mem_singleton.1 hb]
      exact type
  · intro b hb
    obtain hb | hb := List.mem_append.1 hb
    · exact accounted.owners b hb
    · rw [List.mem_singleton.1 hb]
      have hsame : db.hasRepository = before.hasRepository := by
        funext r
        rw [Database.hasRepository, Database.hasRepository, accounted.repositories]
      exact ⟨owner, hsame ▸ hhas⟩
  · intro b hb
    obtain hb | hb := List.mem_append.1 hb
    · obtain ⟨hlow, hhigh, hle⟩ := accounted.ids b hb
      exact ⟨hlow, Int.le_trans hhigh (hgrows _), hle⟩
    · rw [List.mem_singleton.1 hb]
      have hold := accounted.counters a.type.table
      exact ⟨by omega, by omega, hmax⟩
  · rw [List.pairwise_append]
    refine ⟨accounted.apart, List.pairwise_singleton _ _, ?_⟩
    intro b hb b' hb' hname
    obtain rfl := List.mem_singleton.1 hb'
    -- the counter stands at the last id that was given, and the new one is above it
    have hle := (accounted.ids b hb).2.1
    rw [Database.counter_congr hname] at hle
    omega
  · intro name
    exact Int.le_trans (accounted.counters name) (hgrows name)

theorem accounted_stores (target : Target) {before db : Database} {added : List Addition}
    {created : Created} {c : Connection} {record : Record} {persisted : Persisted}
    (accounted : Accounted target.registry target.repository before added created c.database)
    (fresh : created.get? record.logicalId = none) (indexed : created.Indexed)
    (admitted : Admitted target.registry record)
    (stores : Stores target created c record persisted db) :
    ∃ added', Accounted target.registry target.repository before added'
      (created.insert record.logicalId persisted).1 db := by
  obtain ⟨-, body, -, hinsert, huri⟩ := stores
  have howner : (Store.NewRecord.columns (newRecord target record body)).repository
      = shownRepository record.type target.repository := rfl
  generalize Store.NewRecord.columns (newRecord target record body) = columns at hinsert howner
  let a : Addition := ⟨record.type, { columns with id := persisted.id }⟩
  have hpersisted : persisted = a.persisted target.repository :=
    congrArg (fun uri => (⟨uri, persisted.id⟩ : Persisted)) huri
  rw [hpersisted]
  exact ⟨added ++ [a],
    accounted_insert accounted fresh indexed admitted.registered howner hinsert⟩

/-- The uri of an entry names nothing but the row that was added. -/
theorem Accounted.names_only {repository : Int} {before after : Database} {added : List Addition}
    {saved : Created} (accounted : Accounted Registry.standard repository before added saved after)
    {a : Addition} (ha : a ∈ added) {r : Reference}
    (hr : Registry.standard.parseReference? (a.persisted repository).uri = some r) :
    r = a.reference repository := by
  rw [Addition.persisted, Registry.parseReference?_standard (accounted.types a ha)] at hr
  split at hr
  · exact (Option.some.inj hr).symm
  · cases hr

theorem Accounted.named {repository : Int} {before after : Database} {added : List Addition}
    {saved : Created} (accounted : Accounted Registry.standard repository before added saved after)
    (numbered : before.Numbered) {a : Addition} (ha : a ∈ added) :
    Registry.standard.parseReference? (a.persisted repository).uri
      = some (a.reference repository) := by
  obtain ⟨hlow, -, hmax⟩ := accounted.ids a ha
  obtain ⟨howner, hhas⟩ := accounted.owners a ha
  have hcounter := numbered.counters a.type.table
  have hid : isId a.row.id = true := by
    rw [isId, Bool.and_eq_true, decide_eq_true_eq, decide_eq_true_eq]
    exact ⟨by omega, hmax⟩
  have hrepository : a.type.scope = .repository → isId repository = true := by
    intro hscope
    rw [howner, shownRepository, hscope] at hhas
    rw [isId, Bool.and_eq_true, decide_eq_true_eq, decide_eq_true_eq]
    exact numbered.repositories repository hhas
  rw [Addition.persisted, Registry.parseReference?_standard (accounted.types a ha),
    if_pos ⟨hid, hrepository⟩]
  rfl

theorem Accounted.new {registry : Registry} {repository : Int} {before after : Database}
    {added : List Addition} {saved : Created}
    (accounted : Accounted registry repository before added saved after)
    (numbered : before.Numbered) {a : Addition} (ha : a ∈ added) :
    ∀ r ∈ before.rowsOf a.type.table, r.id ≠ a.row.id := by
  intro r hr
  have hle := numbered.rows a.type.table r hr
  have hlow := (accounted.ids a ha).1
  omega

theorem Import.accounted (i : Import) (db : Database) :
    (∃ added, Accounted Registry.standard i.repository db added
        (i.outcome Registry.standard db).saved (i.database Registry.standard db)) ∧
      (i.transactional = true → (i.outcome Registry.standard db).errors.isSome = true →
        (i.outcome Registry.standard db).saved = Created.empty ∧
          i.database Registry.standard db = db) := by
  refine i.keeps Registry.standard db
    (P := fun created after =>
      ∃ added, Accounted Registry.standard i.repository db added created after)
    ⟨[], accounted_refl _ _ db⟩ ?_
  intro record admitted created c persisted after fresh indexed holds stores
  obtain ⟨added, accounted⟩ := holds
  exact accounted_stores (i.target Registry.standard) accounted fresh indexed admitted stores

/-- For every import into every database, whatever calls of the storage fail: the rows that were
added are those of the entries that the outcome reports, one by one, and nothing else changed. The
uri of an entry names its row or, with an id that no database gives, nothing; in a database that
gave its ids itself it names the row, and the row is new. A transactional import that failed added
nothing. -/
theorem outcome_truthful (i : Import) (db : Database) :
    ∃ added, Accounted Registry.standard i.repository db added
        (i.outcome Registry.standard db).saved (i.database Registry.standard db) ∧
      (∀ a ∈ added, ∀ r,
        Registry.standard.parseReference? (a.persisted i.repository).uri = some r →
          r = a.reference i.repository) ∧
      (db.Numbered → ∀ a ∈ added,
        Registry.standard.parseReference? (a.persisted i.repository).uri
          = some (a.reference i.repository) ∧
        ∀ r ∈ db.rowsOf a.type.table, r.id ≠ a.row.id) ∧
      (i.transactional = true → (i.outcome Registry.standard db).errors.isSome = true →
        (i.outcome Registry.standard db).saved.toList = [] ∧
          i.database Registry.standard db = db) := by
  obtain ⟨⟨added, accounted⟩, hfailed⟩ := i.accounted db
  refine ⟨added, accounted, ?_, ?_, ?_⟩
  · intro a ha r hr
    exact accounted.names_only ha hr
  · intro numbered a ha
    exact ⟨accounted.named numbered ha, accounted.new numbered ha⟩
  · intro transactional failed
    obtain ⟨hsaved, hdb⟩ := hfailed transactional failed
    exact ⟨by rw [hsaved, Created.toList_empty], hdb⟩

end Accession.Batch
