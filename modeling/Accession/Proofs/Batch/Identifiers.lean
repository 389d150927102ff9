import Accession.Proofs.Batch.Integrity
import Accession.Proofs.Store.Schema
set_option autoImplicit false

namespace Accession.Batch

open Registry (RecordType)
open Store (Database Row)

theorem formed_batch (registry : Registry) (name : String) (i : Import) (db : Database)
    (h : db.Formed ∧ db.guards name = true) :
    (i.database registry db).Formed ∧ (i.database registry db).guards name = true := by
  obtain ⟨hkept, -⟩ := i.keeps registry db
    (P := fun _ db => db.Formed ∧ db.guards name = true) h
    (by
      rintro record - created c persisted db - - ⟨hformed, hguarded⟩ stores
      obtain ⟨_, _, -, hinsert, -⟩ := stores
      exact ⟨hformed.insert hinsert, Database.guards_insert hinsert hguarded⟩)
  exact hkept

theorem formed_createRepository (name : String) (db : Database) (code label : String) (id : Int)
    (db' : Database) (h : db.Formed ∧ db.guards name = true)
    (created : db.createRepository code label = .ok (id, db')) :
    db'.Formed ∧ db'.guards name = true :=
  ⟨h.1.createRepository created, Database.guards_createRepository created h.2⟩

/-- From any schema that was created without a failure, whatever repositories are created and
whatever is sent to be stored in whatever mode, and whatever calls of the storage fail: two rows of
a type with an identifier field that belong to one repository never have the same identifier. -/
theorem identifiers_distinct (registry : Registry) (db : Database)
    (created : Store.createSchema registry {} = (.ok (), db)) (events : List Event)
    (t : RecordType) (registered : t ∈ registry.types)
    (identified : t.identifierField.isSome = true) :
    ((after registry db events).rowsOf t.table).Pairwise (fun a b =>
      ∀ repository identifier, a.repository = some repository → b.repository = some repository →
        a.identifier = some identifier → b.identifier ≠ some identifier) := by
  have hempty : ({} : Database).Formed := ⟨.nil, fun _ ht => (List.not_mem_nil ht).elim,
    fun _ ht => (List.not_mem_nil ht).elim⟩
  obtain ⟨hformed, hguards⟩ := Store.createSchema_guards hempty created
  obtain ⟨hformed', hguarded⟩ := after_keeps (P := fun db => db.Formed ∧ db.guards t.table = true)
    (formed_createRepository t.table) (formed_batch registry t.table)
    ⟨hformed, hguards t registered identified⟩ events
  refine (hformed'.unclashing_rowsOf hguarded).imp ?_
  intro a b apart repository identifier ha hb hidentifier hsame
  have hclash : a.toColumns.clashes b.toColumns = true := by
    simp [Store.Columns.clashes, ha, hb, hidentifier, hsame]
  rw [hclash] at apart
  cases apart

def classed (repository : Int) (logicalId : String) : Import where
  repository
  transactional := false
  body := Text.Utf8.encode ("\x7b\"id\":\"" ++ logicalId ++ "\",\"jsonmodel_type\":"
    ++ "\"classification\",\"identifier\":\"C1\",\"title\":\"Letters\"\x7d")

theorem identifiers_distinct_classed :
    ∃ events, Store.createSchema Registry.standard {} = (.ok (), shelves) ∧
      ((after Registry.standard shelves events).rowsOf "classifications").Pairwise (fun a b =>
        ∀ repository identifier, a.repository = some repository → b.repository = some repository →
          a.identifier = some identifier → b.identifier ≠ some identifier) ∧
      ((after Registry.standard shelves events).rowsOf "classifications").map
          (fun row => (row.id, row.repository, row.identifier))
        = [(1, some 1, some "C1"), (2, some 2, some "C1")] := by
  have created : Store.createSchema Registry.standard {} = (.ok (), shelves) :=
    Store.createSchema_of_isOk (by decide +kernel)
  refine ⟨[.repository "one" "One", .repository "two" "Two", .batch (classed 1 "a"),
    .batch (classed 1 "b"), .batch (classed 2 "a")], created, ?_, by decide +kernel⟩
  exact identifiers_distinct Registry.standard shelves created _ Registry.classification
    (by decide +kernel) (by decide +kernel)

def subjects : Registry :=
  ⟨[{ name := "subject"
      table := "subjects"
      uriSegment := "subjects"
      scope := .global
      schema := ⟨[Registry.required "code" .string]⟩
      identifierField := some "code" }], "subject"⟩

def alike : Import where
  repository := 1
  body := Text.Utf8.encode
    "\x7b\"id\":\"a\",\"code\":\"x\"\x7d\x7b\"id\":\"b\",\"code\":\"x\"\x7d"

theorem global_identifiers_shared :
    (subjects.types.map (fun t => t.table)).Nodup ∧
      (∀ t ∈ subjects.types, t.scope = .global ∧ t.identifierField.isSome = true) ∧
      ∃ db, Store.createSchema subjects {} = (.ok (), db) ∧
        db.indexNames = ["idx_subjects_identifier"] ∧
        ((after subjects db [.batch alike]).rowsOf "subjects").map
            (fun row => (row.id, row.repository, row.identifier))
          = [(1, none, some "x"), (2, none, some "x")] := by
  refine ⟨by decide +kernel, by decide +kernel, (Store.createSchema subjects {}).2,
    Store.createSchema_of_isOk (by decide +kernel), by decide +kernel, by decide +kernel⟩

end Accession.Batch
