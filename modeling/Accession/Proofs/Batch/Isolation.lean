import Accession.Proofs.Batch.Lockstep
import Accession.Proofs.Batch.TruthfulOutcome
set_option autoImplicit false

/-!
# Isolation of repositories

Databases that `Agree` on a repository differ in the rows of other repositories only. Every query of
an import looks at rows of its repository or at tables of a global type, so it is answered alike
(`Agree.recordExists`), and an insertion is refused alike or gives the same row (`Agree.insert`).
`imports_isolated` says what follows for whole imports.
-/
namespace Accession.Store

def Table.emptied (t : Table) : Table := { t with rows := [] }

theorem Table.emptied_push (t : Table) (c : Columns) :
    (t.push c).emptied = { t.emptied with lastId := t.emptied.lastId + 1 } := rfl

theorem Table.refuses_none (t : Table) {c : Columns} (h : c.repository = none) :
    t.refuses c = false := by
  simp [Table.refuses, Columns.clashes, h]

theorem Table.refuses_eq (t : Table) (c : Columns) :
    t.refuses c = (t.identifierIndex.isSome &&
      (t.rows.filter (fun r => r.repository == c.repository)).any
        (fun r => c.clashes r.toColumns)) := by
  have hclash : (fun r : Row => (r.repository == c.repository) && c.clashes r.toColumns)
      = fun r : Row => c.clashes r.toColumns := by
    funext r
    by_cases h : r.repository = c.repository
    · simp [h]
    · simp [h, Columns.clashes, Ne.symm h]
  rw [Table.refuses, List.any_filter, hclash]

end Accession.Store

namespace Accession.Batch

open Store (Connection Database Row Table Columns sameName)
open Registry (RecordType shownRepository standard)

/-- Two databases that differ in the rows of other repositories than the given one at most. -/
structure Agree (repository : Int) (a b : Database) : Prop where
  founded : a.repositories.isSome = b.repositories.isSome
  known : a.hasRepository repository = b.hasRepository repository
  tables : ∀ name, (a.table? name).map Table.emptied = (b.table? name).map Table.emptied
  own : ∀ name, (a.rowsOf name).filter (fun r => r.repository == some repository)
    = (b.rowsOf name).filter (fun r => r.repository == some repository)
  shared : ∀ t ∈ standard.types, t.scope = .global → a.rowsOf t.table = b.rowsOf t.table

namespace Agree

variable {repository : Int} {a b : Database} (agree : Agree repository a b) {t : RecordType}

include agree

theorem recordExists (ht : t ∈ standard.types) (id : Int) :
    a.recordExists t.table id (shownRepository t repository)
      = b.recordExists t.table id (shownRepository t repository) := by
  have htable : (a.table? t.table).isSome = (b.table? t.table).isSome := by
    have h := congrArg Option.isSome (agree.tables t.table)
    rwa [Option.isSome_map, Option.isSome_map] at h
  have hany : (a.rowsOf t.table).any (fun r => r.id == id
        && ((shownRepository t repository).isNone || r.repository == shownRepository t repository))
      = (b.rowsOf t.table).any (fun r => r.id == id
        && ((shownRepository t repository).isNone
          || r.repository == shownRepository t repository)) := by
    rw [shownRepository]
    cases hscope : t.scope with
    | global => rw [agree.shared t ht hscope]
    | repository =>
      have h := congrArg (List.any · (fun r => r.id == id)) (agree.own t.table)
      simp only [List.any_filter] at h
      simpa only [Option.isNone_some, Bool.false_or, Bool.and_comm] using h
  have apart := Registry.table_apart t ht
  rw [Database.recordExists_eq a apart, Database.recordExists_eq b apart, htable, hany]

theorem table {name : String} {u : Table} (h : a.table? name = some u) :
    ∃ v, b.table? name = some v ∧ u.emptied = v.emptied := by
  have htables := agree.tables name
  rw [h] at htables
  obtain ⟨v, hv, hemptied⟩ := Option.map_eq_some_iff.1 htables.symm
  exact ⟨v, hv, hemptied.symm⟩

/-- An index looks at rows of the same repository only, and those are the same. -/
theorem refuses {c : Columns} (owner : c.repository = shownRepository t repository) {u v : Table}
    (hu : a.table? t.table = some u) (hv : b.table? t.table = some v)
    (emptied : u.emptied = v.emptied) : u.refuses c = v.refuses c := by
  have hindex : u.identifierIndex = v.identifierIndex := (congrArg Table.identifierIndex emptied :)
  have hown := agree.own t.table
  rw [Database.rowsOf, Database.rowsOf, hu, hv] at hown
  cases hscope : t.scope with
  | global =>
    have hnone : c.repository = none := by rw [owner, shownRepository, hscope]
    rw [Table.refuses_none u hnone, Table.refuses_none v hnone]
  | repository =>
    have hsome : c.repository = some repository := by rw [owner, shownRepository, hscope]
    rw [Table.refuses_eq, Table.refuses_eq, hindex, hsome]
    exact congrArg (fun rows => _ && List.any rows _) hown

theorem tables_replace {u v : Table} (c : Columns) (emptied : u.emptied = v.emptied)
    (name : String) :
    ((a.replace (u.push c)).table? name).map Table.emptied
      = ((b.replace (v.push c)).table? name).map Table.emptied := by
  have hname : u.name = v.name := (congrArg Table.name emptied :)
  have hpushed : (u.push c).emptied = (v.push c).emptied := by
    rw [Table.emptied_push, Table.emptied_push, emptied]
  rw [Database.table?_replace, Database.table?_replace,
    show (u.push c).name = u.name from rfl, show (v.push c).name = v.name from rfl, hname]
  split
  · have hsome := congrArg (Option.map (fun _ => (v.push c).emptied)) (agree.tables name)
    simp only [Option.map_map, Function.comp_def] at hsome ⊢
    rw [hpushed]
    exact hsome
  · exact agree.tables name

theorem insert {c : Columns} (owner : c.repository = shownRepository t repository) :
    (∃ e, a.insert t.table c = .error e ∧ b.insert t.table c = .error e) ∨
      ∃ id a' b', a.insert t.table c = .ok (id, a') ∧ b.insert t.table c = .ok (id, b') ∧
        Agree repository a' b' := by
  have hnames : a.isRepositories t.table = b.isRepositories t.table := by
    rw [Database.isRepositories, Database.isRepositories, agree.founded]
  have hfounded : a.repositories.isNone = b.repositories.isNone := by
    rw [← Option.not_isSome, ← Option.not_isSome, agree.founded]
  have hhas : c.repository.all a.hasRepository = c.repository.all b.hasRepository := by
    rw [owner, shownRepository]
    cases t.scope with
    | global => rfl
    | repository => exact agree.known
  have ha := Database.insert_eq a t.table c
  have hb := Database.insert_eq b t.table c
  cases hta : a.table? t.table with
  | none =>
    have htb : b.table? t.table = none := by
      have htables := agree.tables t.table
      rw [hta] at htables
      exact Option.map_eq_none_iff.1 htables.symm
    rw [hta] at ha
    rw [htb, ← hnames] at hb
    exact .inl ⟨_, ha, hb⟩
  | some u =>
    obtain ⟨v, htb, hemptied⟩ := agree.table hta
    have hlast : u.lastId = v.lastId := (congrArg Table.lastId hemptied :)
    have hrefuses := agree.refuses owner hta htb hemptied
    have hviolation : u.uniqueViolation = v.uniqueViolation := by
      rw [Table.uniqueViolation, Table.uniqueViolation,
        show u.name = v.name from (congrArg Table.name hemptied :)]
    rw [hta] at ha
    rw [htb] at hb
    dsimp only at ha hb
    rw [hfounded, hlast, hrefuses, hviolation, hhas] at ha
    -- the checks of an insertion, which either both databases pass or neither
    split at hb <;> rename_i hfound <;> simp only [hfound, if_true] at ha
    · exact .inl ⟨_, ha, hb⟩
    split at hb <;> rename_i hfull <;> simp only [hfull, if_true, if_false] at ha
    · exact .inl ⟨_, ha, hb⟩
    split at hb <;> rename_i hunique <;> simp only [hunique, if_true] at ha
    · exact .inl ⟨_, ha, hb⟩
    split at hb <;> rename_i hforeign <;> simp only [hforeign, if_true] at ha
    · exact .inl ⟨_, ha, hb⟩
    refine .inr ⟨_, _, _, ha, hb, agree.founded, agree.known, agree.tables_replace c hemptied,
      ?_, ?_⟩
    · intro name
      rw [Database.rowsOf_insert ha, Database.rowsOf_insert hb, List.filter_append,
        List.filter_append, agree.own]
    · intro s hs hglobal
      rw [Database.rowsOf_insert ha, Database.rowsOf_insert hb, agree.shared s hs hglobal]

end Agree

structure Connections (repository : Int) (c c' : Connection) : Prop where
  database : Agree repository c.database c'.database
  saved : Option.Rel (Agree repository) c.saved c'.saved

theorem blind_storage (repository : Int) (transactional : Bool) :
    Blind repository (Connections repository) (Connection.storage transactional) := by
  constructor
  · intro c c' h
    rw [Connection.storage_begin, Connection.storage_begin]
    cases transactional with
    | false => exact ⟨rfl, h⟩
    | true => exact ⟨rfl, h.database, .some h.database⟩
  · intro t ht id owner howner c c' h
    change (Connection.recordExists t id owner c).1 = (Connection.recordExists t id owner c').1 ∧
      Connections repository (Connection.recordExists t id owner c).2
        (Connection.recordExists t id owner c').2
    rw [Connection.recordExists_run, Connection.recordExists_run, howner,
      h.database.recordExists ht id]
    exact ⟨rfl, h⟩
  · intro record ht howner c c' h
    change (Connection.insert record c).1 = (Connection.insert record c').1 ∧
      Connections repository (Connection.insert record c).2 (Connection.insert record c').2
    rw [Connection.insert_run, Connection.insert_run]
    obtain ⟨e, ha, hb⟩ | ⟨id, a, b, ha, hb, hagree⟩ :=
      h.database.insert (c := Store.NewRecord.columns record) howner
    · rw [ha, hb]
      exact ⟨rfl, h⟩
    · rw [ha, hb]
      exact ⟨rfl, hagree, h.saved⟩
  · intro c c' h
    rw [Connection.storage_commit, Connection.storage_commit]
    cases transactional with
    | false => exact ⟨rfl, h⟩
    | true => exact ⟨rfl, h.database, .none⟩
  · intro c c' h
    rw [Connection.storage_rollback, Connection.storage_rollback]
    cases transactional with
    | false => exact ⟨rfl, h⟩
    | true =>
      refine ⟨rfl, ?_, .none⟩
      obtain ⟨a, saved⟩ := c
      obtain ⟨b, saved'⟩ := c'
      obtain ⟨hdatabase, hsaved⟩ := h
      cases hsaved with
      | none => exact hdatabase
      | some h => exact h

/-- Imports into a repository on which databases agree end alike, and the databases agree again. -/
theorem Agree.imports {i : Import} {a b : Database} (agree : Agree i.repository a b) :
    i.outcome standard a = i.outcome standard b ∧
      Agree i.repository (i.database standard a) (i.database standard b) := by
  have blind : Blind i.repository (Watched.Alike (Connections i.repository)) i.storage :=
    (blind_storage i.repository i.transactional).watched i.faults
  have start : World.Alike (Watched.Alike (Connections i.repository))
      { storage := { inner := { database := a } } } { storage := { inner := { database := b } } } :=
    ⟨⟨⟨agree, .none⟩, rfl, rfl, rfl, rfl⟩, rfl⟩
  obtain ⟨houtcome, hworld⟩ :=
    attempts_lockstep blind i.policy i.body (i.policy.attempts - 1) 1 _ _ start
  rw [Import.database_eq, Import.database_eq]
  exact ⟨houtcome, hworld.storage.inner.database⟩

/-- The rows that go into a table of a type are rows of the repository, or global ones. -/
def Placed (repository : Int) (name : String) (row : Row) : Prop :=
  ∃ t ∈ standard.types, sameName t.table name = true ∧
    row.repository = shownRepository t repository

theorem Import.placed (i : Import) (db : Database) (name : String) :
    ∃ rows, (i.database standard db).rowsOf name = db.rowsOf name ++ rows ∧
      ∀ row ∈ rows, Placed i.repository name row := by
  obtain ⟨⟨added, accounted⟩, -⟩ := i.accounted db
  refine ⟨_, accounted.rows name, ?_⟩
  intro row hrow
  obtain ⟨a, ha, rfl⟩ := List.mem_map.1 hrow
  obtain ⟨ha, hname⟩ := List.mem_filter.1 ha
  exact ⟨a.type, accounted.types a ha, hname, (accounted.owners a ha).1⟩

theorem Agree.rows_eq {repository : Int} {a b a' b' : Database} (before : Agree repository a b)
    (after : Agree repository a' b') {name : String} {rows rows' : List Row}
    (ha : a'.rowsOf name = a.rowsOf name ++ rows) (hb : b'.rowsOf name = b.rowsOf name ++ rows')
    (placed : ∀ row ∈ rows, Placed repository name row)
    (placed' : ∀ row ∈ rows', Placed repository name row) : rows = rows' := by
  by_cases htable : ∃ t ∈ standard.types, sameName t.table name = true
  · obtain ⟨t, ht, hname⟩ := htable
    cases hscope : t.scope with
    | global =>
      have hold := before.shared t ht hscope
      have hnew := after.shared t ht hscope
      simp only [Database.rowsOf, Database.table?_congr hname] at hold hnew ha hb
      rw [ha, hb, hold] at hnew
      exact List.append_cancel_left hnew
    | repository =>
      have hfilter : ∀ rows : List Row, (∀ row ∈ rows, Placed repository name row) →
          rows.filter (fun r => r.repository == some repository) = rows := by
        intro rows placed
        refine List.filter_eq_self.2 (fun row hrow => ?_)
        obtain ⟨u, hu, hother, howner⟩ := placed row hrow
        have hsame : sameName u.table t.table = true := by
          rw [Store.sameName_congr hother, Store.sameName_comm]
          exact hname
        rw [howner, Registry.table_inj u hu t ht hsame, shownRepository, hscope]
        exact beq_self_eq_true _
      have hnew := after.own name
      rw [ha, hb, List.filter_append, List.filter_append, before.own, hfilter rows placed,
        hfilter rows' placed'] at hnew
      exact List.append_cancel_left hnew
  · have hnone : ∀ rows : List Row, (∀ row ∈ rows, Placed repository name row) → rows = [] := by
      intro rows placed
      refine List.eq_nil_iff_forall_not_mem.2 (fun row hrow => ?_)
      obtain ⟨t, ht, hname, -⟩ := placed row hrow
      exact htable ⟨t, ht, hname⟩
    rw [hnone rows placed, hnone rows' placed']

/-- Two databases that differ in the rows of other repositories at most: an import ends with one
outcome in both, whatever calls of the storage fail, and puts the same rows into both, after the
rows that were there. These are rows of its repository in tables of types that have one and rows of
no repository in all others; repositories stay as they are. -/
theorem imports_isolated (i : Import) (a b : Database) (agree : Agree i.repository a b) :
    i.outcome standard a = i.outcome standard b ∧
      (∀ name, ∃ rows, (i.database standard a).rowsOf name = a.rowsOf name ++ rows ∧
        (i.database standard b).rowsOf name = b.rowsOf name ++ rows ∧
        ∀ row ∈ rows, Placed i.repository name row) ∧
      (i.database standard a).repositories = a.repositories ∧
      Agree i.repository (i.database standard a) (i.database standard b) := by
  obtain ⟨houtcome, hagain⟩ := agree.imports
  refine ⟨houtcome, ?_, ?_, hagain⟩
  · intro name
    obtain ⟨rows, ha, placed⟩ := i.placed a name
    obtain ⟨rows', hb, placed'⟩ := i.placed b name
    obtain rfl := agree.rows_eq hagain ha hb placed placed'
    exact ⟨rows, ha, hb, placed⟩
  · obtain ⟨⟨added, accounted⟩, -⟩ := i.accounted a
    exact accounted.repositories

def shared : Database where
  repositories := some ⟨[⟨1, "main", "Main"⟩, ⟨2, "annex", "Annex"⟩], 2⟩
  tables := [{
    name := "archival_objects"
    rows := [⟨⟨some 2, "X", some "x", "\x7b\"title\":\"X\"\x7d", 0⟩, 1⟩]
    lastId := 1
    identifierIndex := some "idx_archival_objects_identifier" }]

def cleared : Database :=
  { shared with tables := shared.tables.map Table.emptied }

/-- An import into the first repository, of a record with the identifier of the other record and of
one that refers to it. -/
def intrusion : Import where
  repository := 1
  transactional := false
  body := Text.Utf8.encode
    ("\x7b\"id\":\"a\",\"title\":\"A\",\"ref_id\":\"x\"\x7d\x7b\"id\":\"b\",\"title\":\"B\","
      ++ "\"parent\":\"/repositories/2/archival_objects/1\"\x7d")

theorem agree_shared_cleared : Agree 1 shared cleared where
  founded := rfl
  known := rfl
  tables name := by
    simp only [Database.table?, shared, cleared, List.map_cons, List.map_nil, List.find?_cons,
      List.find?_nil, Table.emptied]
    split <;> rfl
  own name := by
    simp only [Database.rowsOf, Database.table?, shared, cleared, List.map_cons, List.map_nil,
      List.find?_cons, List.find?_nil, Table.emptied]
    split <;> rfl
  shared := by decide

theorem imports_isolated_intrusion :
    Agree 1 shared cleared ∧
      intrusion.outcome standard shared = intrusion.outcome standard cleared ∧
      (intrusion.outcome standard shared).saved.toList
        = [("a", ⟨"/repositories/1/archival_objects/2", 2⟩)] ∧
      (intrusion.outcome standard shared).errors = some
        ["Server error: Unresolved reference in b: parent -> /repositories/2/archival_objects/1"] := by
  obtain ⟨houtcome, -⟩ := imports_isolated intrusion shared cleared agree_shared_cleared
  exact ⟨agree_shared_cleared, houtcome, by decide +kernel, by decide +kernel⟩

end Accession.Batch
