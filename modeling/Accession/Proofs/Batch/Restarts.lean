import Accession.Proofs.Batch.Identifiers
import Accession.Proofs.Store.Layout
set_option autoImplicit false

namespace Accession.Batch

open Registry (RecordType)
open Store (Database createSchema sameName)
open Store.Schema (Settled hasTable)

theorem settled_after (registry : Registry) {base : Database} {types : List RecordType}
    (settled : Settled base types) (events : List Event) :
    Settled (after registry base events) types ∧ (after registry base events).Matches base := by
  have hstep : ∀ db db' : Database, db'.Formed → db'.Matches db →
      Settled db types ∧ db.Matches base → Settled db' types ∧ db'.Matches base := by
    rintro db db' hformed hmatches ⟨hsettled, hbase⟩
    exact ⟨hsettled.of_matches hformed hmatches, hmatches.trans hbase⟩
  refine after_keeps (P := fun db => Settled db types ∧ db.Matches base) ?_ ?_
    ⟨settled, .refl base⟩ events
  · intro db code name id db' h created
    exact hstep db db' (h.1.formed.createRepository created)
      (Database.matches_createRepository created) h
  · intro i db h
    refine (i.keeps registry db (P := fun _ db => Settled db types ∧ db.Matches base) h ?_).1
    rintro record - created c persisted db' - - h ⟨_, _, -, hinsert, -⟩
    exact hstep _ _ (h.1.formed.insert hinsert) (h.1.formed.matches_insert hinsert) h

/-- A schema that was created is created again without a failure and without an effect on any table,
index, row or counter, whatever repositories were created and whatever was sent to be stored since
then. The schema of a registry with further types, whose tables are called otherwise than those
there are, is created as well if it can be created in an empty database: the tables there are stay as they
are, and the same tables with the same indexes come after them as come after those of the smaller
registry in the empty database. -/
theorem schema_recreated (registry : Registry) (base : Database)
    (created : createSchema registry {} = (.ok (), base)) (events : List Event) :
    let live := after registry base events
    createSchema registry live = (.ok (), live) ∧
    ∀ (extended : Registry) (further : List RecordType) (fresh : Database),
      extended.types = registry.types ++ further →
      (∀ t ∈ further, ∀ name ∈ live.tableNames, sameName name t.table = false) →
      createSchema extended {} = (.ok (), fresh) →
      ∃ new, fresh = { base with tables := base.tables ++ new } ∧
        createSchema extended live = (.ok (), { live with tables := live.tables ++ new }) ∧
        ∀ t ∈ further, ∃ table ∈ new, sameName table.name t.table = true ∧
          (t.identifierField.isSome = true → table.identifierIndex.isSome = true) := by
  intro live
  obtain ⟨settled, founded⟩ := Store.createSchema_settles created
  obtain ⟨hsettled, hmatches⟩ := settled_after registry settled events
  have hfounded : live.repositories.isSome = true := hmatches.repositories.trans founded
  refine ⟨Store.createSchema_settled hsettled hfounded, ?_⟩
  intro extended further fresh more apart succeeds
  have absent : ∀ t ∈ further, hasTable live t.table = false := fun t ht =>
    Store.Schema.hasTable_eq_false_iff_names.2 (apart t ht)
  obtain ⟨result, new, hfresh, hlive⟩ :=
    Store.createSchema_extends created hsettled hmatches more absent
  cases succeeds.symm.trans hfresh
  refine ⟨new, rfl, hlive, ?_⟩
  intro t ht
  have hgrown := hlive
  rw [Store.createSchema_of_isSome hfounded] at hgrown
  have hsettled' := Store.Schema.createTypes_settles hsettled hgrown
  refine hsettled'.mem_new ?_ (absent t ht)
  rw [more]
  exact List.mem_append_right _ (List.mem_append_right _ ht)

def widened : Registry :=
  subjects.types.foldl Registry.register Registry.standard

theorem schema_recreated_subjects :
    ∃ events live, live = after Registry.standard shelves events ∧
      (live.rowsOf "classifications").map Store.Row.id = [1] ∧
      createSchema Registry.standard {} = (.ok (), shelves) ∧
      createSchema Registry.standard live = (.ok (), live) ∧
      widened.types = Registry.standard.types ++ subjects.types ∧
      (∀ t ∈ subjects.types, ∀ name ∈ live.tableNames, sameName name t.table = false) ∧
      ∃ new, createSchema widened {} = (.ok (), { shelves with tables := shelves.tables ++ new }) ∧
        createSchema widened live = (.ok (), { live with tables := live.tables ++ new }) ∧
        new.map Store.Table.identifierIndex = [some "idx_subjects_identifier"] := by
  have created : createSchema Registry.standard {} = (.ok (), shelves) :=
    Store.createSchema_of_isOk (by decide +kernel)
  have succeeds : createSchema widened {} = (.ok (), (createSchema widened {}).2) :=
    Store.createSchema_of_isOk (by decide +kernel)
  have more : widened.types = Registry.standard.types ++ subjects.types := by decide +kernel
  let events : List Event := [.repository "one" "One", .batch (classed 1 "a")]
  have matching := (settled_after Registry.standard (Store.createSchema_settles created).1 events).2
  have absent : ∀ t ∈ subjects.types, hasTable shelves t.table = false := by decide +kernel
  have apart : ∀ t ∈ subjects.types,
      ∀ name ∈ (after Registry.standard shelves events).tableNames,
        sameName name t.table = false := by
    intro t ht
    rw [← Store.Schema.hasTable_eq_false_iff_names, Store.Schema.hasTable_congr matching]
    exact absent t ht
  obtain ⟨hsame, hmore⟩ := schema_recreated Registry.standard shelves created events
  obtain ⟨new, hfresh, hlive, -⟩ := hmore widened subjects.types _ more apart succeeds
  refine ⟨events, _, rfl, by decide +kernel, created, hsame, more, apart, new, ?_, hlive, ?_⟩
  · rw [succeeds, hfresh]
  · have hnew : new = (createSchema widened {}).2.tables.drop shelves.tables.length := by
      rw [hfresh, List.drop_left]
    rw [hnew]
    decide +kernel

end Accession.Batch
