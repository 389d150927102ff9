import Accession.Store.Repositories
set_option autoImplicit false

namespace Accession.Store

theorem sameName_refl (a : String) : sameName a a = true := by
  simp [sameName]

theorem sameName_comm (a b : String) : sameName a b = sameName b a := by
  rw [sameName, sameName, Bool.beq_comm]

theorem sameName_congr {a b : String} (h : sameName a b = true) (c : String) :
    sameName a c = sameName b c := by
  rw [sameName, sameName, eq_of_beq h]

namespace Database

def rowsOf (db : Database) (name : String) : List Row :=
  ((db.table? name).map Table.rows).getD []

def counter (db : Database) (name : String) : Int :=
  ((db.table? name).map Table.lastId).getD 0

def hasRepository (db : Database) (id : Int) : Bool :=
  db.repositories.any (fun rs => rs.contains id)

/-- Ids were given upwards from 1, those of repositories as well as those of records. -/
structure Numbered (db : Database) : Prop where
  counters : ∀ name, 0 ≤ db.counter name
  rows : ∀ name, ∀ r ∈ db.rowsOf name, r.id ≤ db.counter name
  repositories : ∀ id, db.hasRepository id = true → 0 < id ∧ id ≤ maxId

theorem table?_congr {a b : String} (h : sameName a b = true) (db : Database) :
    db.table? a = db.table? b := by
  rw [table?, table?]
  congr 1
  funext t
  rw [sameName_comm t.name a, sameName_comm t.name b, sameName_congr h]

theorem counter_congr {a b : String} (h : sameName a b = true) (db : Database) :
    db.counter a = db.counter b := by
  rw [counter, counter, table?_congr h]

theorem sameName_of_table? {db : Database} {name : String} {t : Table}
    (h : db.table? name = some t) : sameName t.name name = true := by
  simpa using List.find?_some h

theorem table?_of_table {db : Database} {name : String} {mismatch : Error} {t : Table}
    (h : db.table name mismatch = .ok t) : db.table? name = some t := by
  rw [table] at h
  split at h
  · cases h
    assumption
  · cases h

theorem table?_replace (db : Database) (t : Table) (name : String) :
    (db.replace t).table? name
      = if sameName t.name name then (db.table? name).map (fun _ => t) else db.table? name := by
  rw [table?, replace, List.find?_map]
  have hname : ((fun u : Table => sameName u.name name)
        ∘ fun u : Table => if sameName u.name t.name then t else u)
      = fun u => sameName u.name name := by
    funext u
    by_cases hu : sameName u.name t.name = true
    · simp [hu, sameName_congr hu]
    · simp [hu]
  rw [hname, table?]
  cases h : db.tables.find? (fun u => sameName u.name name) with
  | none => simp
  | some u =>
    have hu : sameName u.name name = true := sameName_of_table? h
    have : sameName u.name t.name = sameName t.name name := by
      rw [sameName_congr hu, sameName_comm]
    by_cases ht : sameName t.name name = true <;> simp [ht, this]

theorem rowsOf_of_empty {db : Database} (h : ∀ t ∈ db.tables, t.rows = []) (name : String) :
    db.rowsOf name = [] := by
  rw [rowsOf]
  cases ht : db.table? name with
  | none => rfl
  | some t => exact h t (List.mem_of_find?_eq_some ht)

theorem recordExists_eq (db : Database) {name : String}
    (apart : sameName name repositoriesName = false) (id : Int) (repository : Option Int) :
    db.recordExists name id repository =
      if (db.table? name).isSome then
        .ok ((db.rowsOf name).any
          (fun r => r.id == id && (repository.isNone || r.repository == repository)))
      else .error (.noTable name) := by
  have hlook : db.recordExists name id repository
      = (db.table name (.noColumn "repo_id")).map (fun t => (t.row? id repository).isSome) := by
    rw [recordExists, apart]
    cases db.repositories <;> rfl
  rw [hlook, table, rowsOf, isRepositories, apart]
  cases db.table? name with
  | none => simp [Except.map]
  | some t =>
    have hfound : (t.row? id repository).isSome = t.rows.any
        (fun r => r.id == id && (repository.isNone || r.repository == repository)) := by
      rw [Bool.eq_iff_iff, Table.row?, List.find?_isSome, List.any_eq_true]
    simp [Except.map, hfound]

theorem recordExists_ok {db : Database} {name : String} {id : Int} {repository : Option Int}
    (apart : sameName name repositoriesName = false)
    (h : db.recordExists name id repository = .ok true) :
    ∃ r ∈ db.rowsOf name, r.id = id ∧ (repository = none ∨ r.repository = repository) := by
  rw [recordExists_eq db apart] at h
  split at h
  · obtain ⟨r, hr, hfound⟩ := List.any_eq_true.1 (Except.ok.inj h)
    simp only [Bool.and_eq_true, Bool.or_eq_true, beq_iff_eq, Option.isNone_iff_eq_none] at hfound
    exact ⟨r, hr, hfound⟩
  · cases h

theorem row?_ok {db : Database} {name : String} {id : Int} {repository : Option Int} {row : Row}
    (h : db.row? name id repository = .ok (some row)) : row ∈ db.rowsOf name ∧ row.id = id := by
  rw [row?, table] at h
  cases ht : db.table? name with
  | none =>
    rw [ht] at h
    cases h
  | some t =>
    rw [ht] at h
    have hfind : t.row? id repository = some row := Except.ok.inj h
    have hmatch := List.find?_some hfind
    rw [Bool.and_eq_true, beq_iff_eq] at hmatch
    rw [rowsOf, ht]
    exact ⟨List.mem_of_find?_eq_some hfind, hmatch.1⟩

theorem createRepository_eq {db : Database} {rs : Repositories}
    (founded : db.repositories = some rs) (code name : String) :
    db.createRepository code name =
      if maxId ≤ rs.lastId then .error (.database full)
      else if rs.containsCode code then
        .error (.invalidInput ("Repository code '" ++ code ++ "' is already in use"))
      else .ok (rs.lastId + 1, { db with repositories := some (rs.push code name) }) := by
  rw [createRepository, repositoryTable, founded]
  rfl

theorem createRepository_ok {db db' : Database} {code name : String} {id : Int}
    (h : db.createRepository code name = .ok (id, db')) :
    ∃ rs, db.repositories = some rs ∧ id = rs.lastId + 1 ∧ id ≤ maxId ∧
      rs.containsCode code = false ∧ db' = { db with repositories := some (rs.push code name) } := by
  cases hrs : db.repositories with
  | none =>
    rw [createRepository, repositoryTable, hrs] at h
    cases h
  | some rs =>
    rw [createRepository_eq hrs] at h
    split at h
    · cases h
    · rename_i hfull
      split at h
      · cases h
      · rename_i hcode
        cases h
        exact ⟨rs, rfl, rfl, by omega, by simpa using hcode, rfl⟩

theorem rowsOf_createRepository {db db' : Database} {code name : String} {id : Int}
    (h : db.createRepository code name = .ok (id, db')) (other : String) :
    db'.rowsOf other = db.rowsOf other := by
  obtain ⟨rs, -, -, -, -, rfl⟩ := createRepository_ok h
  rfl

/-- The checks of an insertion, one after another, and what it does when all are passed. -/
theorem insert_eq (db : Database) (name : String) (c : Columns) :
    db.insert name c =
      match db.table? name with
      | none =>
        .error (if db.isRepositories name then
          .statement ("table " ++ name ++ " has no column named repo_id") else .noTable name)
      | some t =>
        if db.repositories.isNone then .error (.noTable ("main." ++ repositoriesName))
        else if maxId ≤ t.lastId then .error full
        else if t.refuses c then .error t.uniqueViolation
        else if !c.repository.all db.hasRepository then .error foreignKeyViolation
        else .ok (t.lastId + 1, db.replace (t.push c)) := by
  have hhas : ∀ rs, db.repositories = some rs → db.hasRepository = rs.contains := by
    intro rs hrs
    funext r
    simp [hasRepository, hrs]
  rw [insert, table]
  cases db.table? name with
  | none => rfl
  | some t =>
    cases hrs : db.repositories with
    | none => rfl
    | some rs =>
      rw [hhas rs hrs]
      rfl

section

variable {db db' : Database} {name : String} {c : Columns} {id : Int}

theorem insert_ok (h : db.insert name c = .ok (id, db')) :
    ∃ t, db.table? name = some t ∧ id = t.lastId + 1 ∧ id ≤ maxId ∧ t.refuses c = false ∧
      c.repository.all db.hasRepository = true ∧ db' = db.replace (t.push c) := by
  rw [insert_eq] at h
  cases ht : db.table? name with
  | none =>
    rw [ht] at h
    cases h
  | some t =>
    rw [ht] at h
    dsimp only at h
    split at h
    · cases h
    split at h
    · cases h
    rename_i hfull
    split at h
    · cases h
    rename_i hrefuses
    split at h
    · cases h
    rename_i hrepository
    cases h
    exact ⟨t, rfl, rfl, by omega, by simpa using hrefuses, by simpa using hrepository, rfl⟩

variable (h : db.insert name c = .ok (id, db'))

include h

theorem repositories_insert : db'.repositories = db.repositories := by
  obtain ⟨t, -, -, -, -, -, rfl⟩ := insert_ok h
  rfl

theorem id_insert : id = db.counter name + 1 := by
  obtain ⟨t, ht, hid, -⟩ := insert_ok h
  rw [counter, ht, hid]
  rfl

theorem rowsOf_insert (other : String) :
    db'.rowsOf other
      = db.rowsOf other ++ if sameName name other then [{ c with id }] else [] := by
  obtain ⟨t, ht, rfl, -, -, -, rfl⟩ := insert_ok h
  have hname := sameName_congr (sameName_of_table? ht) other
  rw [rowsOf, table?_replace, show (t.push c).name = t.name from rfl, hname]
  split
  · rename_i ho
    rw [rowsOf, ← table?_congr ho, ht]
    rfl
  · simp [rowsOf]

theorem mem_rowsOf_insert {other : String} {row : Row} :
    row ∈ db'.rowsOf other ↔
      row ∈ db.rowsOf other ∨ sameName name other = true ∧ row = { c with id } := by
  rw [rowsOf_insert h, List.mem_append]
  by_cases hother : sameName name other = true
  · rw [if_pos hother, List.mem_singleton, and_iff_right hother]
  · rw [if_neg hother]
    simp only [List.not_mem_nil, hother, Bool.false_eq_true, false_and]

theorem counter_insert (other : String) :
    db'.counter other = if sameName name other then id else db.counter other := by
  obtain ⟨t, ht, rfl, -, -, -, rfl⟩ := insert_ok h
  have hname := sameName_congr (sameName_of_table? ht) other
  rw [counter, table?_replace, show (t.push c).name = t.name from rfl, hname]
  split
  · rename_i ho
    rw [← table?_congr ho, ht]
    rfl
  · rfl

theorem indexes_insert (other : String) :
    (db'.table? other).map Table.identifierIndex = (db.table? other).map Table.identifierIndex := by
  obtain ⟨t, ht, rfl, -, -, -, rfl⟩ := insert_ok h
  have hname := sameName_congr (sameName_of_table? ht) other
  rw [table?_replace, show (t.push c).name = t.name from rfl, hname]
  split
  · rename_i ho
    rw [← table?_congr ho, ht]
    rfl
  · rfl

theorem counter_le_insert (other : String) : db.counter other ≤ db'.counter other := by
  rw [counter_insert h]
  split
  · rename_i hother
    have hid := id_insert h
    rw [counter_congr hother] at hid
    omega
  · exact Int.le_refl _

theorem counted_insert
    (counted : ∀ other, ∀ row ∈ db.rowsOf other, row.id ≤ db.counter other) :
    ∀ other, ∀ row ∈ db'.rowsOf other, row.id ≤ db'.counter other := by
  intro other row hrow
  obtain hold | ⟨hother, rfl⟩ := (mem_rowsOf_insert h).1 hrow
  · exact Int.le_trans (counted other row hold) (counter_le_insert h other)
  · refine Int.le_of_eq ?_
    rw [counter_insert h, if_pos hother]

end

end Database

end Accession.Store
