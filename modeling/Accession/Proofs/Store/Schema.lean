import Accession.Proofs.Store.Tables
import Accession.Store.Schema
set_option autoImplicit false

namespace Accession.Store

theorem Change.bind_eq_ok {α β : Type} {x : Change α} {f : α → Change β} {b : β}
    {db db' : Database} :
    (x >>= f) db = (.ok b, db') ↔ ∃ a mid, x db = (.ok a, mid) ∧ f a mid = (.ok b, db') := by
  change (ExceptT.bindCont f (x db).1) (x db).2 = _ ↔ _
  rcases x db with ⟨e | a, mid⟩
  · constructor
    · intro h
      cases h
    · rintro ⟨_, _, hx, -⟩
      cases hx
  · constructor
    · intro h
      exact ⟨a, mid, rfl, h⟩
    · rintro ⟨_, _, hx, h⟩
      cases hx
      exact h

theorem clashes_comm (a b : Columns) : a.clashes b = b.clashes a := by
  rw [Bool.eq_iff_iff]
  simp only [Columns.clashes, Bool.and_eq_true, beq_iff_eq]
  constructor <;>
  · rintro ⟨⟨⟨hrepository, hidentifier⟩, hr⟩, hi⟩
    exact ⟨⟨⟨hr ▸ hrepository, hi ▸ hidentifier⟩, hr.symm⟩, hi.symm⟩

def Unclashing (rows : List Row) : Prop :=
  rows.Pairwise (fun a b => a.toColumns.clashes b.toColumns = false)

theorem anyClash_eq_false_iff (rows : List Row) :
    Schema.anyClash rows = false ↔ Unclashing rows := by
  induction rows with
  | nil => exact ⟨fun _ => .nil, fun _ => rfl⟩
  | cons r rest ih =>
    rw [Schema.anyClash, Bool.or_eq_false_iff, ih, List.any_eq_false]
    simp only [Unclashing, List.pairwise_cons, Bool.not_eq_true]

namespace Schema

theorem createTable_run (name : String) (db : Database) :
    createTable name db =
      if hasTable db name then (.ok (), db)
      else if hasIndex db name then
        (.error (.statement ("there is already an index named " ++ name)), db)
      else (.ok (), { db with tables := db.tables ++ [{ name }] }) := by
  have hget : createTable name db
      = (if hasTable db name then pure ()
        else if hasIndex db name then throw (.statement ("there is already an index named " ++ name))
        else set { db with tables := db.tables ++ [({ name } : Table)] } : Change Unit) db := rfl
  rw [hget]
  split
  · rfl
  · split <;> rfl

theorem createIndex_run (table : String) (db : Database) :
    createIndex table db =
      if hasTable db (indexName table) then
        (.error (.statement ("there is already a table named " ++ indexName table)), db)
      else if hasIndex db (indexName table) then (.ok (), db)
      else
        match db.table table (.noColumn "repo_id") with
        | .error e => (.error e, db)
        | .ok t =>
          if anyClash t.rows then (.error t.uniqueViolation, db)
          else (.ok (), db.replace { t with identifierIndex := some (indexName table) }) := by
  have hget : createIndex table db
      = (if hasTable db (indexName table) then
          throw (.statement ("there is already a table named " ++ indexName table))
        else if hasIndex db (indexName table) then pure ()
        else do
          let t ← (db.table table (.noColumn "repo_id") : Except Error Table)
          if anyClash t.rows then throw t.uniqueViolation
          else set (db.replace { t with identifierIndex := some (indexName table) }) :
        Change Unit) db := rfl
  rw [hget]
  split
  · rfl
  split
  · rfl
  cases db.table table (.noColumn "repo_id") with
  | error e => rfl
  | ok t =>
    change (if anyClash t.rows then throw t.uniqueViolation
      else set (db.replace { t with identifierIndex := some (indexName table) }) : Change Unit) db
        = _
    dsimp only
    split <;> rfl

theorem sameName_of_indexName {a b : String}
    (h : sameName (indexName a) (indexName b) = true) : sameName a b = true := by
  simpa [sameName, indexName, String.toList_append] using h

end Schema

namespace Database

structure Formed (db : Database) : Prop where
  names : db.tables.Pairwise (fun t u => sameName t.name u.name = false)
  called : ∀ t ∈ db.tables, ∀ index ∈ t.identifierIndex,
    sameName index (Schema.indexName t.name) = true
  unclashing : ∀ t ∈ db.tables, t.identifierIndex.isSome = true → Unclashing t.rows

def guards (db : Database) (name : String) : Bool :=
  (db.table? name).any (fun t => t.identifierIndex.isSome)

section

variable {db db' : Database} (formed : db.Formed)

include formed

theorem Formed.table?_of_mem {t : Table} (ht : t ∈ db.tables) {name : String}
    (hname : sameName t.name name = true) : db.table? name = some t := by
  rw [table?, List.find?_eq_some_iff_append]
  obtain ⟨front, rest, hsplit⟩ := List.append_of_mem ht
  refine ⟨hname, front, rest, hsplit, ?_⟩
  intro u hu
  have hnames := formed.names
  rw [hsplit, List.pairwise_append] at hnames
  have hapart := hnames.2.2 u hu t (List.mem_cons_self ..)
  rw [sameName_comm, ← sameName_congr hname, sameName_comm, hapart]
  rfl

theorem Formed.unclashing_rowsOf {name : String} (guarded : db.guards name = true) :
    Unclashing (db.rowsOf name) := by
  rw [guards] at guarded
  cases ht : db.table? name with
  | none =>
    rw [ht] at guarded
    cases guarded
  | some t =>
    rw [ht] at guarded
    rw [rowsOf, ht]
    exact formed.unclashing t (List.mem_of_find?_eq_some ht) guarded

theorem Formed.replace {t : Table}
    (called : ∀ index ∈ t.identifierIndex, sameName index (Schema.indexName t.name) = true)
    (unclashing : t.identifierIndex.isSome = true → Unclashing t.rows) :
    (db.replace t).Formed where
  names := by
    refine List.pairwise_map.2 (formed.names.imp ?_)
    intro u v huv
    by_cases hu : sameName u.name t.name = true <;> by_cases hv : sameName v.name t.name = true
    · rw [sameName_congr hu, sameName_comm, hv] at huv
      cases huv
    · rw [if_pos hu, if_neg hv, sameName_comm]
      exact Bool.eq_false_iff.2 hv
    · rw [if_neg hu, if_pos hv]
      exact Bool.eq_false_iff.2 hu
    · rw [if_neg hu, if_neg hv]
      exact huv
  called := by
    intro u hu
    obtain ⟨v, hv, rfl⟩ := List.mem_map.1 hu
    split
    · exact called
    · exact formed.called v hv
  unclashing := by
    intro u hu
    obtain ⟨v, hv, rfl⟩ := List.mem_map.1 hu
    split
    · exact unclashing
    · exact formed.unclashing v hv

theorem Formed.insert {name : String} {c : Columns} {id : Int}
    (h : db.insert name c = .ok (id, db')) : db'.Formed := by
  obtain ⟨t, ht, -, -, hrefuses, -, rfl⟩ := insert_ok h
  have hmem := List.mem_of_find?_eq_some ht
  refine formed.replace (t := t.push c) (formed.called t hmem) ?_
  intro hindex
  refine List.pairwise_append.2 ⟨formed.unclashing t hmem hindex, List.pairwise_singleton _ _, ?_⟩
  intro r hr s hs
  obtain rfl := List.mem_singleton.1 hs
  have hindex : t.identifierIndex.isSome = true := hindex
  rw [Table.refuses, hindex, Bool.true_and, List.any_eq_false] at hrefuses
  rw [clashes_comm]
  exact Bool.eq_false_iff.2 (hrefuses r hr)

theorem Formed.createRepository {code label : String} {id : Int}
    (h : db.createRepository code label = .ok (id, db')) : db'.Formed := by
  obtain ⟨rs, -, -, -, -, rfl⟩ := createRepository_ok h
  exact ⟨formed.names, formed.called, formed.unclashing⟩

end

section

variable {db db' : Database} {name : String}

theorem guards_replace (guarded : db.guards name = true) {t : Table}
    (kept : ∀ u, db.table? t.name = some u → u.identifierIndex.isSome = true →
      t.identifierIndex.isSome = true) : (db.replace t).guards name = true := by
  rw [guards] at guarded
  rw [guards, table?_replace]
  split
  · rename_i hname
    rw [← table?_congr hname] at guarded ⊢
    cases hu : db.table? t.name with
    | none =>
      rw [hu] at guarded
      cases guarded
    | some u =>
      rw [hu] at guarded
      exact kept u hu guarded
  · exact guarded

theorem guards_insert {other : String} {c : Columns} {id : Int}
    (h : db.insert other c = .ok (id, db')) (guarded : db.guards name = true) :
    db'.guards name = true := by
  obtain ⟨t, ht, -, -, -, -, rfl⟩ := insert_ok h
  refine guards_replace guarded ?_
  intro u hu hindex
  rw [show (t.push c).name = t.name from rfl, table?_congr (sameName_of_table? ht), ht] at hu
  obtain rfl := Option.some.inj hu
  exact hindex

theorem guards_createRepository {code label : String} {id : Int}
    (h : db.createRepository code label = .ok (id, db')) (guarded : db.guards name = true) :
    db'.guards name = true := by
  obtain ⟨rs, -, -, -, -, rfl⟩ := createRepository_ok h
  exact guarded

end

end Database

namespace Schema

variable {db db' : Database}

theorem sameName_indexName {name other : String} (h : sameName name other = true) :
    sameName (indexName name) (indexName other) = true := by
  simpa [sameName, indexName, String.toList_append] using h

theorem hasIndex_indexName (formed : db.Formed) (name : String) :
    hasIndex db (indexName name) = db.guards name := by
  rw [Bool.eq_iff_iff, hasIndex, List.any_eq_true, Database.guards, Option.any_eq_true]
  constructor
  · rintro ⟨t, ht, hindex⟩
    obtain ⟨index, hsome, hsame⟩ := (Option.any_eq_true _ _).1 hindex
    have hcalled := formed.called t ht index hsome
    rw [sameName_congr hsame, sameName_comm] at hcalled
    exact ⟨t, formed.table?_of_mem ht (sameName_of_indexName hcalled), by rw [hsome]; rfl⟩
  · rintro ⟨t, ht, hindex⟩
    obtain ⟨index, hsome⟩ := Option.isSome_iff_exists.1 hindex
    have hmem := List.mem_of_find?_eq_some ht
    have hname := sameName_indexName (Database.sameName_of_table? ht)
    refine ⟨t, hmem, (Option.any_eq_true _ _).2 ⟨index, hsome, ?_⟩⟩
    rw [sameName_congr (formed.called t hmem index hsome), hname]

section

variable (formed : db.Formed)

include formed

theorem createTable_keeps {name : String} (h : createTable name db = (.ok (), db')) :
    db'.Formed ∧ ∀ other, db.guards other = true → db'.guards other = true := by
  rw [createTable_run] at h
  split at h
  · cases h
    exact ⟨formed, fun _ guarded => guarded⟩
  rename_i habsent
  split at h
  · cases h
  cases h
  have hfresh : db.table? name = none := by
    rw [hasTable, Bool.or_eq_true, not_or] at habsent
    exact Option.not_isSome_iff_eq_none.1 habsent.2
  refine ⟨⟨?_, ?_, ?_⟩, ?_⟩
  · refine List.pairwise_append.2 ⟨formed.names, List.pairwise_singleton _ _, ?_⟩
    intro t ht u hu
    obtain rfl := List.mem_singleton.1 hu
    exact Bool.eq_false_iff.2 (List.find?_eq_none.1 hfresh t ht)
  · intro t ht
    obtain hold | hnew := List.mem_append.1 ht
    · exact formed.called t hold
    · obtain rfl := List.mem_singleton.1 hnew
      intro index hindex
      cases hindex
  · intro t ht
    obtain hold | hnew := List.mem_append.1 ht
    · exact formed.unclashing t hold
    · obtain rfl := List.mem_singleton.1 hnew
      intro hindex
      cases hindex
  · intro other guarded
    rw [Database.guards, Option.any_eq_true] at guarded
    obtain ⟨t, ht, hindex⟩ := guarded
    have hfound : ({ db with tables := db.tables ++ [{ name }] } : Database).table? other
        = some t := by
      rw [Database.table?] at ht ⊢
      rw [List.find?_append, ht]
      rfl
    rw [Database.guards, hfound]
    exact hindex

theorem createIndex_keeps {table : String} (h : createIndex table db = (.ok (), db')) :
    db'.Formed ∧ (∀ other, db.guards other = true → db'.guards other = true) ∧
      db'.guards table = true := by
  rw [createIndex_run] at h
  split at h
  · cases h
  split at h
  · rename_i hindex
    cases h
    exact ⟨formed, fun _ guarded => guarded, hasIndex_indexName formed table ▸ hindex⟩
  split at h
  · cases h
  rename_i t htable
  have ht := Database.table?_of_table htable
  have hname := Database.sameName_of_table? ht
  split at h
  · cases h
  rename_i hclash
  cases h
  refine ⟨formed.replace ?_ ?_, ?_, ?_⟩
  · intro index hindex
    obtain rfl := Option.some.inj hindex
    exact sameName_indexName ((sameName_comm _ _).trans hname)
  · intro _
    exact (anyClash_eq_false_iff t.rows).1 (Bool.eq_false_iff.2 hclash)
  · intro other guarded
    exact Database.guards_replace guarded (fun _ _ _ => rfl)
  · rw [Database.guards, Database.table?_replace, if_pos hname, ht]
    rfl

theorem createType_keeps {t : Registry.RecordType} (h : createType t db = (.ok (), db')) :
    db'.Formed ∧ (∀ other, db.guards other = true → db'.guards other = true) ∧
      (t.identifierField.isSome = true → db'.guards t.table = true) := by
  rw [createType, Change.bind_eq_ok] at h
  obtain ⟨_, mid, htable, hindex⟩ := h
  obtain ⟨hformed, hkept⟩ := createTable_keeps formed htable
  split at hindex
  · obtain ⟨hformed', hkept', hguarded⟩ := createIndex_keeps hformed hindex
    exact ⟨hformed', fun other guarded => hkept' other (hkept other guarded), fun _ => hguarded⟩
  · rename_i hfield
    cases hindex
    exact ⟨hformed, hkept, fun hsome => absurd hsome hfield⟩

theorem createTypes_keeps {types : List Registry.RecordType}
    (h : createTypes types db = (.ok (), db')) :
    db'.Formed ∧ (∀ other, db.guards other = true → db'.guards other = true) ∧
      ∀ t ∈ types, t.identifierField.isSome = true → db'.guards t.table = true := by
  induction types generalizing db with
  | nil =>
    cases h
    exact ⟨formed, fun _ guarded => guarded, fun _ ht => by cases ht⟩
  | cons t rest ih =>
    rw [createTypes, Change.bind_eq_ok] at h
    obtain ⟨_, mid, hfirst, hrest⟩ := h
    obtain ⟨hformed, hkept, hguarded⟩ := createType_keeps formed hfirst
    obtain ⟨hformed', hkept', hguarded'⟩ := ih hformed hrest
    refine ⟨hformed', fun other guarded => hkept' other (hkept other guarded), ?_⟩
    intro u hu hfield
    obtain rfl | hu := List.mem_cons.1 hu
    · exact hkept' u.table (hguarded hfield)
    · exact hguarded' u hu hfield

end

end Schema

theorem createSchema_of_isOk {registry : Registry} {db : Database}
    (h : (createSchema registry db).1.isOk = true) :
    createSchema registry db = (.ok (), (createSchema registry db).2) := by
  refine Prod.ext ?_ rfl
  cases hcreated : (createSchema registry db).1 with
  | error e =>
    rw [hcreated] at h
    cases h
  | ok _ => rfl

/-- Where a type has an identifier field, the schema has an index on its table. -/
theorem createSchema_guards {registry : Registry} {db db' : Database} (formed : db.Formed)
    (h : createSchema registry db = (.ok (), db')) :
    db'.Formed ∧
      ∀ t ∈ registry.types, t.identifierField.isSome = true → db'.guards t.table = true := by
  rw [createSchema, Change.bind_eq_ok] at h
  obtain ⟨_, mid, hrepositories, htypes⟩ := h
  cases hrepositories
  have hformed : ({ db with repositories := some (db.repositories.getD {}) } : Database).Formed :=
    ⟨formed.names, formed.called, formed.unclashing⟩
  obtain ⟨hformed', -, hguarded⟩ := Schema.createTypes_keeps hformed htypes
  exact ⟨hformed', hguarded⟩

end Accession.Store
