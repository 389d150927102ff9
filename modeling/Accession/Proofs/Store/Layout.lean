import Accession.Proofs.Store.Schema
set_option autoImplicit false

/-!
# Schemas that are created again

What a schema finds of a database is its layout: the names of its tables and of their indexes, not
their rows. Where a type is `Settled` there is nothing to do for it (`createTypes_settled`), and a
schema that was created settles its types (`createSchema_settles`). Tables for further types come
after the tables there are: which ones they are depends on the layout alone, and the tables before
them are not touched (`createTypes_joined`).
-/
namespace Accession.Store

theorem Change.bind_of_ok {α β : Type} {x : Change α} {f : α → Change β} {a : α}
    {db mid : Database} (h : x db = (.ok a, mid)) : (x >>= f) db = f a mid := by
  change ExceptT.bindCont f (x db).1 (x db).2 = _
  rw [h]
  rfl

theorem Change.bind_of_error {α β : Type} {x : Change α} {f : α → Change β} {e : Error}
    {db mid : Database} (h : x db = (.error e, mid)) : (x >>= f) db = (.error e, mid) := by
  change ExceptT.bindCont f (x db).1 (x db).2 = _
  rw [h]
  rfl

namespace Database

def layout (db : Database) : List (String × Option String) :=
  db.tables.map (fun t => (t.name, t.identifierIndex))

def joined (db : Database) (new : List Table) : Database :=
  { db with tables := db.tables ++ new }

/-- Two databases that differ in rows and counters at most. -/
structure Matches (a b : Database) : Prop where
  layout : a.layout = b.layout
  repositories : a.repositories.isSome = b.repositories.isSome

theorem joined_nil (db : Database) : db.joined [] = db := by
  rw [joined, List.append_nil]

theorem layout_joined (db : Database) (new : List Table) :
    (db.joined new).layout = db.layout ++ new.map (fun t => (t.name, t.identifierIndex)) :=
  List.map_append

theorem Matches.refl (db : Database) : db.Matches db := ⟨rfl, rfl⟩

theorem Matches.trans {a b c : Database} (h : a.Matches b) (h' : b.Matches c) : a.Matches c :=
  ⟨h.layout.trans h'.layout, h.repositories.trans h'.repositories⟩

theorem Matches.joined {a b : Database} (same : a.Matches b) (new : List Table) :
    (a.joined new).Matches (b.joined new) where
  layout := by rw [layout_joined, layout_joined, same.layout]
  repositories := same.repositories

theorem isSome_table? (db : Database) (name : String) :
    (db.table? name).isSome = db.layout.any (fun entry => sameName entry.1 name) := by
  rw [Bool.eq_iff_iff, table?, List.find?_isSome, layout, List.any_map, List.any_eq_true]
  rfl

theorem table?_joined (db : Database) (new : List Table) (name : String) :
    (db.joined new).table? name
      = (db.table? name).or (new.find? (fun t => sameName t.name name)) :=
  List.find?_append

theorem replace_joined {db : Database} {t : Table} (absent : db.table? t.name = none)
    (new : List Table) :
    (db.joined new).replace t
      = db.joined (new.map (fun u => if sameName u.name t.name then t else u)) := by
  have hold : db.tables.map (fun u => if sameName u.name t.name then t else u) = db.tables := by
    refine (List.map_congr_left fun u hu => ?_).trans (List.map_id _)
    rw [if_neg (List.find?_eq_none.1 absent u hu)]
    rfl
  rw [replace, joined, joined, List.map_append, hold]

section

variable {db db' : Database} {name : String}

theorem Formed.layout_replace (formed : db.Formed) {t u : Table} (hu : db.table? name = some u)
    (hname : t.name = u.name) (hindex : t.identifierIndex = u.identifierIndex) :
    (db.replace t).layout = db.layout := by
  rw [layout, layout, Database.replace, List.map_map]
  refine List.map_congr_left fun v hv => ?_
  rw [Function.comp_apply]
  split
  · rename_i hsame
    have hfound := formed.table?_of_mem hv hsame
    rw [hname, table?_congr (sameName_of_table? hu), hu] at hfound
    rw [hname, hindex, Option.some.inj hfound]
  · rfl

theorem Formed.matches_insert (formed : db.Formed) {c : Columns} {id : Int}
    (h : db.insert name c = .ok (id, db')) : db'.Matches db := by
  obtain ⟨t, ht, -, -, -, -, rfl⟩ := insert_ok h
  exact ⟨formed.layout_replace ht rfl rfl, rfl⟩

theorem matches_createRepository {code label : String} {id : Int}
    (h : db.createRepository code label = .ok (id, db')) : db'.Matches db := by
  obtain ⟨rs, hrs, -, -, -, rfl⟩ := createRepository_ok h
  exact ⟨rfl, by rw [hrs]; rfl⟩

end

end Database

namespace Schema

variable {a b db db' : Database} {name : String}

theorem hasTable_eq (db : Database) (name : String) :
    hasTable db name = ((db.repositories.isSome && sameName name Database.repositoriesName)
      || db.layout.any (fun entry => sameName entry.1 name)) := by
  rw [hasTable, Database.isSome_table?]
  rfl

theorem hasIndex_eq (db : Database) (name : String) :
    hasIndex db name = db.layout.any (fun entry => entry.2.any (sameName · name)) := by
  rw [hasIndex, Database.layout, List.any_map]
  rfl

theorem hasTable_congr (same : a.Matches b) (name : String) :
    hasTable a name = hasTable b name := by
  rw [hasTable_eq, hasTable_eq, same.layout, same.repositories]

theorem hasIndex_congr (same : a.Matches b) (name : String) :
    hasIndex a name = hasIndex b name := by
  rw [hasIndex_eq, hasIndex_eq, same.layout]

theorem mem_tableNames {other : String} :
    other ∈ db.tableNames ↔
      db.repositories.isSome = true ∧ other = Database.repositoriesName ∨
        ∃ t ∈ db.tables, t.name = other := by
  rw [Database.tableNames, Database.sorted, List.mem_mergeSort, List.mem_append, List.mem_map]
  cases db.repositories <;> simp

theorem hasTable_eq_false_iff_names :
    hasTable db name = false ↔ ∀ other ∈ db.tableNames, sameName other name = false := by
  rw [hasTable_eq, Bool.or_eq_false_iff, Bool.and_eq_false_imp, Database.layout, List.any_map,
    List.any_eq_false]
  constructor
  · rintro ⟨hrepositories, htables⟩ other hother
    obtain ⟨hsome, rfl⟩ | ⟨t, ht, rfl⟩ := mem_tableNames.1 hother
    · rw [sameName_comm]
      exact hrepositories hsome
    · exact Bool.eq_false_iff.2 (htables t ht)
  · intro hnames
    refine ⟨fun hsome => ?_, fun t ht => ?_⟩
    · rw [sameName_comm]
      exact hnames _ (mem_tableNames.2 (.inl ⟨hsome, rfl⟩))
    · exact Bool.eq_false_iff.1 (hnames _ (mem_tableNames.2 (.inr ⟨t, ht, rfl⟩)))

theorem hasTable_eq_false_iff :
    hasTable db name = false ↔ db.isRepositories name = false ∧ db.table? name = none := by
  rw [hasTable, Bool.or_eq_false_iff, Option.isSome_eq_false_iff, Option.isNone_iff_eq_none]

section Settling

theorem hasTable_sameName {name other : String} (h : sameName name other = true) (db : Database) :
    hasTable db name = hasTable db other := by
  rw [hasTable, hasTable, Database.table?_congr h, Database.isRepositories,
    Database.isRepositories, sameName_congr h]

theorem hasIndex_sameName {name other : String} (h : sameName name other = true) (db : Database) :
    hasIndex db name = hasIndex db other := by
  have hnames : (fun index => sameName index name) = fun index => sameName index other := by
    funext index
    rw [sameName_comm index name, sameName_comm index other, sameName_congr h]
  rw [hasIndex, hasIndex, hnames]

/-- A database in which nothing is left to do for some types, and no table is called as an index is
or would be. -/
structure Settled (db : Database) (types : List Registry.RecordType) : Prop where
  formed : db.Formed
  apart : ∀ name, db.guards name = true → hasTable db (indexName name) = false
  tables : ∀ t ∈ types, hasTable db t.table = true
  indexes : ∀ t ∈ types, t.identifierField.isSome = true → db.guards t.table = true

variable {types : List Registry.RecordType}

theorem Settled.mem_new {new : List Table} (settled : Settled (db.joined new) types)
    {t : Registry.RecordType} (ht : t ∈ types) (absent : hasTable db t.table = false) :
    ∃ table ∈ new, sameName table.name t.table = true ∧
      (t.identifierField.isSome = true → table.identifierIndex.isSome = true) := by
  obtain ⟨hrepositories, hold⟩ := hasTable_eq_false_iff.1 absent
  have hfind : (db.joined new).table? t.table
      = new.find? (fun table => sameName table.name t.table) := by
    rw [Database.table?_joined, hold, Option.none_or]
  have hexists := settled.tables t ht
  rw [hasTable, show (db.joined new).isRepositories t.table = false from hrepositories,
    Bool.false_or, hfind] at hexists
  obtain ⟨table, htable⟩ := Option.isSome_iff_exists.1 hexists
  refine ⟨table, List.mem_of_find?_eq_some htable, by simpa using List.find?_some htable, ?_⟩
  intro hfield
  have hguarded := settled.indexes t ht hfield
  rw [Database.guards, hfind, htable] at hguarded
  exact hguarded

theorem Settled.of_matches (settled : Settled db types) (formed : db'.Formed)
    (same : db'.Matches db) : Settled db' types := by
  have hguards : ∀ name, db'.guards name = db.guards name := by
    intro name
    rw [← hasIndex_indexName formed, ← hasIndex_indexName settled.formed, hasIndex_congr same]
  refine ⟨formed, ?_, ?_, ?_⟩
  · intro name guarded
    rw [hasTable_congr same]
    exact settled.apart name (hguards name ▸ guarded)
  · intro t ht
    rw [hasTable_congr same]
    exact settled.tables t ht
  · intro t ht hfield
    rw [hguards]
    exact settled.indexes t ht hfield

theorem createTypes_settled (settled : Settled db types) : createTypes types db = (.ok (), db) := by
  have htype : ∀ t ∈ types, createType t db = (.ok (), db) := by
    intro t ht
    have htable : createTable t.table db = (.ok (), db) := by
      rw [createTable_run, if_pos (settled.tables t ht)]
    refine Change.bind_eq_ok.2 ⟨(), db, htable, ?_⟩
    split
    · rename_i hfield
      have guarded := settled.indexes t ht hfield
      rw [createIndex_run, settled.apart _ guarded, hasIndex_indexName settled.formed, guarded]
      rfl
    · rfl
  clear settled
  induction types with
  | nil => rfl
  | cons t rest ih =>
    obtain ⟨hfirst, hrest⟩ := List.forall_mem_cons.1 htype
    exact Change.bind_eq_ok.2 ⟨(), db, hfirst, ih hrest⟩

section

variable (settled : Settled db types)

include settled

theorem createTable_settles (h : createTable name db = (.ok (), db')) :
    Settled db' types ∧ hasTable db' name = true := by
  obtain ⟨hformed, hkept⟩ := createTable_keeps settled.formed h
  rw [createTable_run] at h
  split at h
  · rename_i hexists
    cases h
    exact ⟨settled, hexists⟩
  split at h
  · cases h
  rename_i hfresh
  cases h
  have hhas : ∀ other, hasTable (db.joined [{ name }]) other
      = (hasTable db other || sameName name other) := by
    intro other
    rw [hasTable_eq, hasTable_eq, Database.layout_joined, List.any_append, Bool.or_assoc]
    simp [Database.joined]
  have hguards : ∀ other, (db.joined [{ name }]).guards other = true → db.guards other = true := by
    intro other guarded
    rw [Database.guards, Database.table?_joined] at guarded
    rw [Database.guards]
    cases ht : db.table? other with
    | some t =>
      rw [ht] at guarded
      exact guarded
    | none =>
      -- the new table has no index
      rw [ht, Option.none_or, Option.any_eq_true] at guarded
      obtain ⟨t, ht, hindex⟩ := guarded
      obtain rfl := List.mem_singleton.1 (List.mem_of_find?_eq_some ht)
      cases hindex
  refine ⟨⟨hformed, ?_, ?_, ?_⟩, ?_⟩
  · intro other guarded
    have hother := hguards other guarded
    change hasTable (db.joined [{ name }]) (indexName other) = false
    rw [hhas, settled.apart other hother, Bool.false_or, ← Bool.not_eq_true]
    intro hsame
    rw [hasIndex_sameName hsame, hasIndex_indexName settled.formed] at hfresh
    exact hfresh hother
  · intro t ht
    change hasTable (db.joined [{ name }]) t.table = true
    rw [hhas, settled.tables t ht, Bool.true_or]
  · exact fun t ht hfield => hkept _ (settled.indexes t ht hfield)
  · change hasTable (db.joined [{ name }]) name = true
    rw [hhas, sameName_refl, Bool.or_true]

theorem createIndex_settles {table : String} (h : createIndex table db = (.ok (), db')) :
    Settled db' types ∧ (∀ other, hasTable db' other = hasTable db other) ∧
      db'.guards table = true := by
  obtain ⟨hformed, hkept, hguarded⟩ := createIndex_keeps settled.formed h
  rw [createIndex_run] at h
  split at h
  · cases h
  rename_i hfree
  split at h
  · cases h
    exact ⟨settled, fun _ => rfl, hguarded⟩
  split at h
  · cases h
  rename_i t htable
  split at h
  · cases h
  cases h
  have hhas : ∀ other, hasTable
      (db.replace { t with identifierIndex := some (indexName table) }) other
        = hasTable db other := by
    intro other
    rw [hasTable, hasTable, Database.table?_replace]
    split
    · rw [Option.isSome_map]
      rfl
    · rfl
  refine ⟨⟨hformed, ?_, ?_, ?_⟩, hhas, hguarded⟩
  · intro other guarded
    rw [hhas]
    rw [Database.guards, Database.table?_replace] at guarded
    split at guarded
    · -- the index that is new
      rename_i hother
      have hname := Database.sameName_of_table? (Database.table?_of_table htable)
      have hsame : sameName table other = true := sameName_congr hname other ▸ hother
      rw [← hasTable_sameName (sameName_indexName hsame)]
      exact Bool.eq_false_iff.2 hfree
    · exact settled.apart other guarded
  · exact fun u hu => (hhas _).trans (settled.tables u hu)
  · exact fun u hu hfield => hkept _ (settled.indexes u hu hfield)

theorem createType_settles {t : Registry.RecordType} (h : createType t db = (.ok (), db')) :
    Settled db' (types ++ [t]) := by
  obtain ⟨_, mid, htable, hindex⟩ := Change.bind_eq_ok.1 h
  obtain ⟨hsettled, hexists⟩ := createTable_settles settled htable
  split at hindex
  · obtain ⟨hsettled', hhas, hguarded⟩ := createIndex_settles hsettled hindex
    refine ⟨hsettled'.formed, hsettled'.apart, ?_, ?_⟩ <;>
      rw [List.forall_mem_append, List.forall_mem_singleton]
    · exact ⟨hsettled'.tables, (hhas _).trans hexists⟩
    · exact ⟨hsettled'.indexes, fun _ => hguarded⟩
  · rename_i hfield
    cases hindex
    refine ⟨hsettled.formed, hsettled.apart, ?_, ?_⟩ <;>
      rw [List.forall_mem_append, List.forall_mem_singleton]
    · exact ⟨hsettled.tables, hexists⟩
    · exact ⟨hsettled.indexes, fun hsome => absurd hsome hfield⟩

theorem createTypes_settles {more : List Registry.RecordType}
    (h : createTypes more db = (.ok (), db')) : Settled db' (types ++ more) := by
  induction more generalizing db types with
  | nil =>
    cases h
    rw [List.append_nil]
    exact settled
  | cons t rest ih =>
    obtain ⟨_, mid, hfirst, hrest⟩ := Change.bind_eq_ok.1 h
    have hsettled := ih (createType_settles settled hfirst) hrest
    rwa [List.append_assoc] at hsettled

end

end Settling

section Adding

/-- A change that only touches tables that come after those of either database, and there does the
same. -/
def Adds (a b : Database) (change : Change Unit) : Prop :=
  ∀ new, ∃ result new',
    change (a.joined new) = (result, a.joined new') ∧
      change (b.joined new) = (result, b.joined new')

theorem Adds.pure : Adds a b (pure ()) :=
  fun new => ⟨.ok (), new, rfl, rfl⟩

theorem Adds.bind {x y : Change Unit} (hx : Adds a b x) (hy : Adds a b y) :
    Adds a b (do x; y) := by
  intro new
  obtain ⟨result, new', ha, hb⟩ := hx new
  cases result with
  | ok _ =>
    rw [Change.bind_of_ok ha, Change.bind_of_ok hb]
    exact hy new'
  | error e =>
    rw [Change.bind_of_error ha, Change.bind_of_error hb]
    exact ⟨.error e, new', rfl, rfl⟩

variable (same : a.Matches b)

include same

theorem createTable_adds (name : String) : Adds a b (createTable name) := by
  intro new
  have hjoined := same.joined new
  rw [createTable_run, createTable_run, hasTable_congr hjoined, hasIndex_congr hjoined]
  split
  · exact ⟨.ok (), new, rfl, rfl⟩
  split
  · exact ⟨_, new, rfl, rfl⟩
  refine ⟨.ok (), new ++ [({ name } : Table)], ?_, ?_⟩ <;>
    rw [Database.joined, Database.joined, List.append_assoc]

theorem createIndex_adds {table : String} (absent : a.table? table = none) :
    Adds a b (createIndex table) := by
  have absent' : b.table? table = none := by
    rw [← Option.isNone_iff_eq_none, ← Option.isSome_eq_false_iff,
      Database.isSome_table?] at absent ⊢
    rw [← same.layout, absent]
  intro new
  have hjoined := same.joined new
  rw [createIndex_run, createIndex_run, hasTable_congr hjoined, hasIndex_congr hjoined]
  split
  · exact ⟨_, new, rfl, rfl⟩
  split
  · exact ⟨.ok (), new, rfl, rfl⟩
  rw [Database.table, Database.table, Database.table?_joined, Database.table?_joined, absent,
    absent', Option.none_or]
  cases hfound : new.find? (fun t => sameName t.name table) with
  | none =>
    have hrepositories :
        (a.joined new).isRepositories table = (b.joined new).isRepositories table := by
      rw [Database.isRepositories, Database.isRepositories, hjoined.repositories]
    rw [hrepositories]
    exact ⟨_, new, rfl, rfl⟩
  | some t =>
    have hname : sameName t.name table = true := by
      simpa using List.find?_some hfound
    dsimp only
    split
    · exact ⟨_, new, rfl, rfl⟩
    · have hreplace : ∀ db : Database, db.table? table = none → _ := fun db habsent =>
        Database.replace_joined (t := { t with identifierIndex := some (indexName table) })
          ((Database.table?_congr hname db).trans habsent) new
      rw [hreplace a absent, hreplace b absent']
      exact ⟨.ok (), _, rfl, rfl⟩

theorem createType_adds {t : Registry.RecordType} (absent : a.table? t.table = none) :
    Adds a b (createType t) := by
  refine (createTable_adds same t.table).bind ?_
  cases t.identifierField with
  | none => exact .pure
  | some _ => exact createIndex_adds same absent

theorem createTypes_adds {types : List Registry.RecordType}
    (absent : ∀ t ∈ types, a.table? t.table = none) : Adds a b (createTypes types) := by
  induction types with
  | nil => exact .pure
  | cons t rest ih =>
    obtain ⟨hfirst, hrest⟩ := List.forall_mem_cons.1 absent
    exact (createType_adds same hfirst).bind (ih hrest)

end Adding

theorem createTypes_append {types : List Registry.RecordType}
    (h : createTypes types db = (.ok (), db')) (more : List Registry.RecordType) :
    createTypes (types ++ more) db = createTypes more db' := by
  induction types generalizing db with
  | nil =>
    cases h
    rfl
  | cons t rest ih =>
    obtain ⟨_, mid, hfirst, hrest⟩ := Change.bind_eq_ok.1 h
    rw [List.cons_append, createTypes, Change.bind_of_ok hfirst]
    exact ih hrest

end Schema

section

open Schema

variable {registry : Registry} {base live : Database}

theorem createSchema_run (registry : Registry) (db : Database) :
    createSchema registry db
      = createTypes registry.types { db with repositories := some (db.repositories.getD {}) } := rfl

theorem createSchema_of_isSome (founded : live.repositories.isSome = true) :
    createSchema registry live = createTypes registry.types live := by
  obtain ⟨rs, hrs⟩ := Option.isSome_iff_exists.1 founded
  rw [createSchema_run, hrs, Option.getD_some, ← hrs]

theorem createSchema_settles (h : createSchema registry {} = (.ok (), base)) :
    Settled base registry.types ∧ base.repositories.isSome = true := by
  rw [createSchema_run] at h
  have empty : Settled { repositories := some {} } [] :=
    ⟨⟨.nil, nofun, nofun⟩, nofun, nofun, nofun⟩
  refine ⟨createTypes_settles empty h, ?_⟩
  have absent : ∀ t ∈ registry.types,
      ({ repositories := some {} } : Database).table? t.table = none := fun _ _ => rfl
  obtain ⟨_, new, hadds, -⟩ := createTypes_adds (Database.Matches.refl _) absent []
  cases h.symm.trans hadds
  rfl

theorem createSchema_settled (settled : Settled live registry.types)
    (founded : live.repositories.isSome = true) :
    createSchema registry live = (.ok (), live) := by
  rw [createSchema_of_isSome founded, createTypes_settled settled]

variable {extended : Registry} {further : List Registry.RecordType}

/-- The schema of a registry with further types, in a database where the schema of the registry is
and other tables do not stand in the way: the tables for the further types come to those there are,
and they are those that they come to in an empty database. -/
theorem createSchema_extends (created : createSchema registry {} = (.ok (), base))
    (settled : Settled live registry.types) (same : live.Matches base)
    (more : extended.types = registry.types ++ further)
    (absent : ∀ t ∈ further, hasTable live t.table = false) :
    ∃ result new, createSchema extended {} = (result, base.joined new) ∧
      createSchema extended live = (result, live.joined new) := by
  obtain ⟨-, founded⟩ := createSchema_settles created
  have founded' := same.repositories.trans founded
  obtain ⟨result, new, hlive, hbase⟩ := createTypes_adds same
    (fun t ht => (hasTable_eq_false_iff.1 (absent t ht)).2) []
  rw [Database.joined_nil] at hlive hbase
  refine ⟨result, new, ?_, ?_⟩
  · rw [createSchema_run] at created ⊢
    rw [more, createTypes_append created, hbase]
  · rw [createSchema_of_isSome founded', more, createTypes_append (createTypes_settled settled),
      hlive]

end

end Accession.Store
