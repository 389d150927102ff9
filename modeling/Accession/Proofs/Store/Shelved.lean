import Accession.Proofs.Store.Tables
set_option autoImplicit false

namespace Accession.Store

/-- A row of a table that no other row can be taken for. -/
structure Shelved (db : Database) (name : String) (row : Row) : Prop where
  stored : row ∈ db.rowsOf name
  only : ∀ other ∈ db.rowsOf name, other.id = row.id → other = row
  numbered : row.id ≤ db.counter name

section

variable {db db' : Database} {name : String} {c : Columns} {id : Int}

theorem Database.Numbered.insert (numbered : db.Numbered)
    (h : db.insert name c = .ok (id, db')) : db'.Numbered where
  counters other := Int.le_trans (numbered.counters other) (Database.counter_le_insert h other)
  rows := Database.counted_insert h numbered.rows
  repositories r hr := by
    rw [Database.hasRepository, Database.repositories_insert h] at hr
    exact numbered.repositories r hr

structure Database.Sequenced (db : Database) : Prop extends db.Numbered where
  latest : ∀ rs, db.repositories = some rs → 0 ≤ rs.lastId

theorem Database.Sequenced.of_empty {db : Database}
    (tables : ∀ t ∈ db.tables, t.rows = [] ∧ 0 ≤ t.lastId)
    (repositories : ∀ rs, db.repositories = some rs → rs.rows = [] ∧ 0 ≤ rs.lastId) :
    db.Sequenced where
  counters name := by
    rw [Database.counter]
    cases ht : db.table? name with
    | none => exact Int.le_refl 0
    | some t => exact (tables t (List.mem_of_find?_eq_some ht)).2
  rows name r hr := by
    rw [Database.rowsOf_of_empty (fun t ht => (tables t ht).1)] at hr
    cases hr
  repositories id hid := by
    rw [Database.hasRepository] at hid
    cases hrs : db.repositories with
    | none => simp [hrs] at hid
    | some rs => simp [hrs, Repositories.contains, (repositories rs hrs).1] at hid
  latest rs hrs := (repositories rs hrs).2

theorem Database.Sequenced.insert (sequenced : db.Sequenced)
    (h : db.insert name c = .ok (id, db')) : db'.Sequenced where
  toNumbered := sequenced.toNumbered.insert h
  latest rs hrs := sequenced.latest rs (Database.repositories_insert h ▸ hrs)

theorem Database.Sequenced.createRepository {code label : String} (sequenced : db.Sequenced)
    (h : db.createRepository code label = .ok (id, db')) : db'.Sequenced := by
  obtain ⟨rs, hrs, hid, hmax, -, rfl⟩ := Database.createRepository_ok h
  have hlatest := sequenced.latest rs hrs
  refine ⟨⟨sequenced.counters, sequenced.rows, ?_⟩, ?_⟩
  · intro r hr
    have hcases : rs.contains r = true ∨ rs.lastId + 1 = r := by
      simpa [Database.hasRepository, Repositories.contains, Repositories.push] using hr
    obtain hold | rfl := hcases
    · refine sequenced.repositories r ?_
      rw [Database.hasRepository, hrs]
      exact hold
    · exact ⟨by omega, by omega⟩
  · intro rs' hrs'
    obtain rfl : rs.push code label = rs' := Option.some.inj hrs'
    change 0 ≤ rs.lastId + 1
    omega

theorem shelved_insert (numbered : db.Numbered) (h : db.insert name c = .ok (id, db')) :
    Shelved db' name { c with id } := by
  have hrows := Database.rowsOf_insert h name
  have hid := Database.id_insert h
  rw [sameName_refl, if_pos rfl] at hrows
  refine ⟨?_, ?_, ?_⟩
  · rw [hrows]
    exact List.mem_append_right _ (List.mem_singleton_self _)
  · intro other hother hsame
    rw [hrows, List.mem_append, List.mem_singleton] at hother
    obtain hold | rfl := hother
    · have hle := numbered.rows name other hold
      change other.id = id at hsame
      omega
    · rfl
  · have hcounter := Database.counter_insert h name
    rw [sameName_refl, if_pos rfl] at hcounter
    exact Int.le_of_eq hcounter.symm

theorem Shelved.insert {other : String} {row : Row} (shelved : Shelved db name row)
    (h : db.insert other c = .ok (id, db')) : Shelved db' name row where
  stored := by
    rw [Database.rowsOf_insert h]
    exact List.mem_append_left _ shelved.stored
  only r hr hsame := by
    obtain hold | ⟨hname, rfl⟩ := (Database.mem_rowsOf_insert h).1 hr
    · exact shelved.only r hold hsame
    · -- the new row has a number of its own
      have hid := Database.id_insert h
      have hle := shelved.numbered
      change id = row.id at hsame
      rw [Database.counter_congr hname] at hid
      omega
  numbered := Int.le_trans shelved.numbered (Database.counter_le_insert h name)

theorem Shelved.createRepository {code label : String} {row : Row}
    (shelved : Shelved db name row) (h : db.createRepository code label = .ok (id, db')) :
    Shelved db' name row := by
  obtain ⟨rs, -, -, -, -, rfl⟩ := Database.createRepository_ok h
  exact ⟨shelved.stored, shelved.only, shelved.numbered⟩

theorem Shelved.row? {row : Row} (shelved : Shelved db name row) {repository : Option Int}
    (owner : repository = none ∨ row.repository = repository) :
    db.row? name row.id repository = .ok (some row) := by
  obtain ⟨t, ht, hrows⟩ : ∃ t, db.table? name = some t ∧ db.rowsOf name = t.rows := by
    have hstored := shelved.stored
    cases ht : db.table? name with
    | none =>
      rw [Database.rowsOf, ht] at hstored
      cases hstored
    | some t => exact ⟨t, rfl, by rw [Database.rowsOf, ht]; rfl⟩
  have hmatch : (row.id == row.id && (repository.isNone || row.repository == repository))
      = true := by
    obtain rfl | howner := owner
    · simp
    · simp [howner]
  have hfind : t.row? row.id repository = some row := by
    rw [Table.row?]
    cases hfound : t.rows.find? (fun r => r.id == row.id
        && (repository.isNone || r.repository == repository)) with
    | none =>
      have hmem : row ∈ t.rows := hrows ▸ shelved.stored
      exact absurd hmatch (List.find?_eq_none.1 hfound row hmem)
    | some other =>
      have hother : other ∈ db.rowsOf name := hrows ▸ List.mem_of_find?_eq_some hfound
      have hid := List.find?_some hfound
      rw [Bool.and_eq_true, beq_iff_eq] at hid
      rw [shelved.only other hother hid.1]
  rw [Database.row?, Database.table, ht]
  exact congrArg Except.ok hfind

end

end Accession.Store
