import Accession.Proofs.Batch.Decoding
import Accession.Proofs.Batch.Filing
import Mathlib.Data.List.Induction
set_option autoImplicit false

/-!
# Which records can be stored

Whether a record of a batch can be stored is a matter of the records before it and of the database
as it was before the batch (`Acceptable`), and so is the id that it gets: `nextId`. A body is
`Sound` if all of its records can be read and stored. `Ready` is what a database has to be for this
to be all that matters, as long as there are ids left (`Roomy`); every database that grew from the
schema is ready for its repositories (`furnished_after`, `sequenced_after`).
-/
namespace Accession.Batch

open Json (Value)
open Registry (RecordType isId refValue? references shownRepository standard)
open Store (Database Row sameName)

section Turns

def inTurnAfter (earlier : List Record) : List Record → List (List Record × Record)
  | [] => []
  | record :: rest => (earlier, record) :: inTurnAfter (earlier ++ [record]) rest

def inTurn (records : List Record) : List (List Record × Record) :=
  inTurnAfter [] records

theorem inTurnAfter_append (earlier front rest : List Record) :
    inTurnAfter earlier (front ++ rest)
      = inTurnAfter earlier front ++ inTurnAfter (earlier ++ front) rest := by
  induction front generalizing earlier with
  | nil => rw [List.append_nil]; rfl
  | cons record front ih =>
    rw [List.cons_append, inTurnAfter, ih, List.append_assoc]
    rfl

theorem inTurn_concat (records : List Record) (record : Record) :
    inTurn (records ++ [record]) = inTurn records ++ [(records, record)] :=
  inTurnAfter_append [] records [record]

theorem map_snd_inTurnAfter (earlier records : List Record) :
    (inTurnAfter earlier records).map Prod.snd = records := by
  induction records generalizing earlier with
  | nil => rfl
  | cons record rest ih => exact congrArg (record :: ·) (ih _)

theorem mem_inTurnAfter {earlier records : List Record} {turn : List Record × Record}
    (h : turn ∈ inTurnAfter earlier records) :
    ∃ front rest, records = front ++ turn.2 :: rest ∧ turn.1 = earlier ++ front := by
  induction records generalizing earlier with
  | nil => cases h
  | cons record records ih =>
    obtain rfl | h := List.mem_cons.1 h
    · exact ⟨[], records, rfl, (List.append_nil _).symm⟩
    · obtain ⟨front, rest, rfl, hbefore⟩ := ih h
      exact ⟨record :: front, rest, rfl, by rw [hbefore, List.append_assoc]; rfl⟩

theorem mem_inTurn {records : List Record} {turn : List Record × Record}
    (h : turn ∈ inTurn records) : ∃ rest, records = turn.1 ++ turn.2 :: rest := by
  obtain ⟨front, rest, hrecords, hbefore⟩ := mem_inTurnAfter h
  rw [List.nil_append] at hbefore
  exact ⟨rest, hbefore ▸ hrecords⟩

theorem mem_of_inTurn {records : List Record} {turn : List Record × Record}
    (h : turn ∈ inTurn records) : turn.2 ∈ records := by
  rw [← map_snd_inTurnAfter [] records]
  exact List.mem_map_of_mem h

theorem exists_inTurn {records : List Record} {record : Record} (h : record ∈ records) :
    ∃ earlier, (earlier, record) ∈ inTurn records := by
  rw [← map_snd_inTurnAfter [] records] at h
  obtain ⟨⟨earlier, other⟩, hturn, rfl⟩ := List.mem_map.1 h
  exact ⟨earlier, hturn⟩

end Turns

section Standing

variable (repository : Int) (db : Database)

/-- The id of a record of a type after other records of the batch, where all of them are stored. -/
def nextId (earlier : List Record) (t : RecordType) : Int :=
  db.counter t.table + earlier.countP (fun record => record.type = t) + 1

/-- Where a record is found once it is stored. -/
def placeOf (earlier : List Record) (record : Record) : Persisted :=
  ⟨Registry.uriFor record.type repository (nextId db earlier record.type),
    nextId db earlier record.type⟩

/-- What is reported of records that are all stored. -/
def entriesOf (records : List Record) : List (String × Persisted) :=
  (inTurn records).map (fun turn => (turn.2.logicalId, placeOf repository db turn.1 turn.2))

theorem map_fst_entriesOf (records : List Record) :
    (entriesOf repository db records).map Prod.fst = records.map Record.logicalId := by
  have hids : (inTurn records).map (Record.logicalId ∘ Prod.snd)
      = ((inTurn records).map Prod.snd).map Record.logicalId := List.map_map.symm
  rw [entriesOf, List.map_map]
  exact hids.trans (congrArg _ (map_snd_inTurnAfter [] records))

/-- What records that are all stored add to the table of a type. -/
def addedRows (t : RecordType) (records : List Record) : List Row :=
  ((inTurn records).filter (fun turn => turn.2.type = t)).map
    (fun turn => turn.2.row ⟨standard, repository⟩ (urisAmong (entriesOf repository db turn.1))
      (nextId db turn.1 t))

/-- A record that can be referred to by its uri: one of the database, of no repository or of that of
the batch, or an earlier one of the batch. -/
def Known (earlier : List Record) (t : RecordType) (id : Int) : Prop :=
  (∃ row ∈ db.rowsOf t.table, row.id = id ∧
    (t.scope = .repository → row.repository = some repository)) ∨
  ∃ turn ∈ inTurn earlier, turn.2.type = t ∧ nextId db turn.1 t = id

/-- A reference is the identifier of an earlier record, of an allowed type; or it is the identifier
of none, and the uri of a known record of an allowed type. -/
def Answered (earlier : List Record) (allowed : List String) (reference : String) : Prop :=
  (∃ record ∈ earlier, record.logicalId = reference ∧ record.type.name ∈ allowed) ∨
  (∀ record ∈ earlier, record.logicalId ≠ reference) ∧
    ∃ t ∈ standard.types, t.name ∈ allowed ∧ ∃ id, Known repository db earlier t id ∧
      standard.parseReference? reference = some ⟨t.name, id, shownRepository t repository⟩

/-- No record of the same type and repository has the identifier of the record, if it has one. -/
def Unclaimed (earlier : List Record) (record : Record) : Prop :=
  ∀ identifier, identifierOf record.type record.body = some identifier →
    (∀ row ∈ db.rowsOf record.type.table, row.repository = some repository →
      row.identifier ≠ some identifier) ∧
    ∀ other ∈ earlier, other.type = record.type →
      identifierOf other.type other.body ≠ some identifier

/-- A record that can be stored after the earlier ones: its references are answered and its
identifier is its own. -/
structure Acceptable (earlier : List Record) (record : Record) : Prop where
  answered : ∀ field ∈ record.type.schema.referenceFields, ∀ v ∈ references record.body field,
    ∃ reference, refValue? v = some reference ∧
      Answered repository db earlier (field.kind.allowed?.getD []) reference
  unclaimed : Unclaimed repository db earlier record

def Guarded (t : RecordType) : Prop :=
  (db.table? t.table).any (fun table => table.identifierIndex.isSome) = true

/-- What storing a record after the earlier ones takes in any database: besides that its references
are answered, the table of its type has to be there and to have room, and so has its repository; an
identifier has to be its own where there is an index. -/
structure Storable (earlier : List Record) (record : Record) : Prop where
  answered : ∀ field ∈ record.type.schema.referenceFields, ∀ v ∈ references record.body field,
    ∃ reference, refValue? v = some reference ∧
      Answered repository db earlier (field.kind.allowed?.getD []) reference
  table : (db.table? record.type.table).isSome = true
  repositories : db.repositories.isSome = true
  founded : record.type.scope = .repository → db.hasRepository repository = true
  room : nextId db earlier record.type ≤ Store.maxId
  unclaimed : Guarded db record.type → Unclaimed repository db earlier record

end Standing

/-- A body whose records are all in order: it is a framing of objects, each of which has a text of
its own, names a type that admits it, and is acceptable in its turn. -/
structure Sound (repository : Int) (db : Database) (body : List UInt8) (records : List Record) :
    Prop where
  carried : Carries body records
  sorted : ∀ record ∈ records, Sorted standard record
  distinct : (records.map Record.logicalId).Nodup
  acceptable : ∀ turn ∈ inTurn records, Acceptable repository db turn.1 turn.2

/-- The tables of the standard types are there, with an index where the type has an identifier. -/
def Furnished (db : Database) : Prop :=
  ∀ t ∈ standard.types, (db.table? t.table).map (fun table => table.identifierIndex.isSome)
    = some t.identifierField.isSome

theorem Furnished.insert {db db' : Database} {name : String} {c : Store.Columns} {id : Int}
    (furnished : Furnished db) (h : db.insert name c = .ok (id, db')) : Furnished db' := by
  obtain ⟨table, htable, -, -, -, -, rfl⟩ := Database.insert_ok h
  intro t ht
  rw [← furnished t ht, Database.table?_replace]
  by_cases hname : sameName (table.push c).name t.table = true
  · have hsame : sameName name t.table = true := by
      rw [← Store.sameName_congr (Database.sameName_of_table? htable)]
      exact hname
    rw [if_pos hname, ← Database.table?_congr hsame, htable]
    rfl
  · rw [if_neg hname]

/-- A database that a batch can be sent to: it has the tables and the repository, and it gave all its
ids itself. -/
structure Ready (repository : Int) (db : Database) : Prop where
  numbered : db.Numbered
  furnished : Furnished db
  founded : db.hasRepository repository = true

/-- Every record finds an id that is left in the table of its type. -/
def Roomy (db : Database) (records : List Record) : Prop :=
  ∀ turn ∈ inTurn records, nextId db turn.1 turn.2.type ≤ Store.maxId

theorem roomy_iff {db : Database} (records : List Record) :
    Roomy db records ↔
      ∀ record ∈ records, db.counter record.type.table
        + records.countP (fun other => other.type = record.type) ≤ Store.maxId := by
  induction records using List.reverseRecOn with
  | nil => exact iff_of_true nofun nofun
  | append_singleton records record ih =>
    rw [Roomy, inTurn_concat, List.forall_mem_append, List.forall_mem_singleton, ← Roomy, ih,
      List.forall_mem_append, List.forall_mem_singleton, nextId]
    have hlast : (records ++ [record]).countP (fun other => other.type = record.type)
        = records.countP (fun other => other.type = record.type) + 1 := by
      simp [List.countP_append]
    rw [hlast, Nat.cast_add, Nat.cast_one, ← Int.add_assoc]
    refine and_congr_left (fun hroom => forall₂_congr (fun other _ => ?_))
    rw [List.countP_append]
    by_cases hsame : record.type = other.type
    · have hone : [record].countP (fun other' => other'.type = other.type) = 1 := by simp [hsame]
      dsimp only at hroom
      rw [hsame] at hroom
      rw [hone]
      omega
    · have hnone : [record].countP (fun other' => other'.type = other.type) = 0 := by simp [hsame]
      rw [hnone, Nat.add_zero]

theorem Ready.isSome_table {repository : Int} {db : Database} (ready : Ready repository db)
    {t : RecordType} (ht : t ∈ standard.types) : (db.table? t.table).isSome = true := by
  obtain ⟨table, htable, -⟩ := Option.map_eq_some_iff.1 (ready.furnished t ht)
  rw [htable]
  rfl

theorem Ready.isSome_repositories {repository : Int} {db : Database}
    (ready : Ready repository db) : db.repositories.isSome = true := by
  have hfounded := ready.founded
  rw [Database.hasRepository] at hfounded
  obtain ⟨rs, hrs, -⟩ := (Option.any_eq_true _ _).1 hfounded
  rw [hrs]
  rfl

theorem Ready.storable_iff {repository : Int} {db : Database} (ready : Ready repository db)
    {earlier : List Record} {record : Record} (ht : record.type ∈ standard.types) :
    Storable repository db earlier record ↔
      Acceptable repository db earlier record ∧ nextId db earlier record.type ≤ Store.maxId := by
  obtain ⟨table, htable, hindex⟩ := Option.map_eq_some_iff.1 (ready.furnished record.type ht)
  constructor
  · intro storable
    refine ⟨⟨storable.answered, ?_⟩, storable.room⟩
    cases hfield : record.type.identifierField with
    | none =>
      intro identifier h
      rw [identifierOf, hfield] at h
      cases h
    | some field =>
      refine storable.unclaimed ?_
      rw [Guarded, htable, Option.any_some, hindex, hfield]
      rfl
  · rintro ⟨acceptable, room⟩
    exact ⟨acceptable.answered, ready.isSome_table ht, ready.isSome_repositories,
      fun _ => ready.founded, room, fun _ => acceptable.unclaimed⟩

end Accession.Batch
