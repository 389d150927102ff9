import Accession.Proofs.Batch.Acceptance
import Mathlib.Data.List.Nodup
set_option autoImplicit false

namespace Accession.Batch

open Registry (RecordType isId references shownRepository standard)
open Store (Connection Database Row sameName)

theorem owned_iff {t : RecordType} {repository : Int} {owner : Option Int} :
    ((shownRepository t repository).isNone || owner == shownRepository t repository) = true ↔
      (t.scope = .repository → owner = some repository) := by
  rw [shownRepository]
  cases t.scope <;> simp

theorem shownRepository_iff {t : RecordType} {repository : Int} {owner : Option Int} :
    shownRepository t repository = owner ↔
      t.scope.agrees owner = true ∧ (owner = none ∨ owner = some repository) := by
  rw [shownRepository]
  cases t.scope <;> cases owner <;> simp [Registry.Scope.agrees, eq_comm]

theorem repositoryOf_of_scope {target : Target} {t : RecordType} (h : t.scope = .repository) :
    repositoryOf target t = some target.repository := by
  rw [repositoryOf, h]

theorem mem_addedRows {repository : Int} {db : Database} {t : RecordType} {records : List Record}
    {row : Row} :
    row ∈ addedRows repository db t records ↔
      ∃ turn ∈ inTurn records, turn.2.type = t ∧ row = turn.2.row ⟨standard, repository⟩
        (urisAmong (entriesOf repository db turn.1)) (nextId db turn.1 t) := by
  simp [addedRows, eq_comm, and_assoc]

theorem row_identifier {record : Record} (ht : record.type ∈ standard.types) (target : Target)
    (uris : String → String) (id : Int) :
    (record.row target uris id).identifier = identifierOf record.type record.body := by
  change identifierOf record.type (record.relinked uris) = _
  rw [identifierOf, identifierOf]
  cases hfield : record.type.identifierField with
  | none => rfl
  | some field =>
    obtain ⟨hnames, -⟩ := Registry.field_names record.type ht
    obtain ⟨-, hnone⟩ := Registry.identifier_field record.type ht field hfield
    have hget : (record.relinked uris).get? field = _ := Registry.get?_relinkAll hnames field
    rw [hnone] at hget
    change ((record.relinked uris).get? field).bind _ = (record.body.get? field).bind _
    rw [hget]

theorem clashes_iff {record : Record} (ht : record.type ∈ standard.types)
    (hscope : record.type.scope = .repository) (repository : Int) (uris : String → String)
    (id : Int) (row : Row) :
    (record.row ⟨standard, repository⟩ uris id).clashes row.toColumns = true ↔
      row.repository = some repository ∧ ∃ identifier,
        identifierOf record.type record.body = some identifier ∧
          row.identifier = some identifier := by
  have howner : (record.row ⟨standard, repository⟩ uris id).repository = some repository :=
    repositoryOf_of_scope hscope
  rw [Store.Columns.clashes, howner, row_identifier ht]
  cases identifierOf record.type record.body with
  | none => simp
  | some identifier => simp [@eq_comm _ _ row.repository, @eq_comm _ _ row.identifier]

theorem unclaimed_iff {repository : Int} {db : Database} {earlier : List Record} {record : Record}
    (ht : record.type ∈ standard.types) (uris : String → String) (id : Int) :
    (db.rowsOf record.type.table ++ addedRows repository db record.type earlier).any
        (fun row => (record.row ⟨standard, repository⟩ uris id).clashes row.toColumns) = false ↔
      Unclaimed repository db earlier record := by
  rw [List.any_eq_false]
  cases hfield : record.type.identifierField with
  | none =>
    have hnone : identifierOf record.type record.body = none := by
      rw [identifierOf, hfield]
      rfl
    rw [Unclaimed, hnone]
    refine iff_of_true (fun row _ => ?_) (fun identifier h => by cases h)
    rw [Store.Columns.clashes, row_identifier ht, hnone]
    simp
  | some field =>
    obtain ⟨hscope, -⟩ := Registry.identifier_field record.type ht field hfield
    have hclash := clashes_iff ht hscope repository uris id
    simp only [hclash, List.forall_mem_append]
    constructor
    · rintro ⟨hold, hnew⟩ identifier hid
      refine ⟨fun row hrow howner hsame => hold row hrow ⟨howner, identifier, hid, hsame⟩, ?_⟩
      intro other hother htype hsame
      obtain ⟨before, hturn⟩ := exists_inTurn hother
      refine hnew _ (mem_addedRows.2 ⟨_, hturn, htype, rfl⟩)
        ⟨repositoryOf_of_scope (htype ▸ hscope), identifier, hid, ?_⟩
      rw [row_identifier (htype ▸ ht)]
      exact hsame
    · intro hfree
      refine ⟨?_, ?_⟩
      · rintro row hrow ⟨howner, identifier, hid, hsame⟩
        exact (hfree identifier hid).1 row hrow howner hsame
      · rintro row hrow ⟨-, identifier, hid, hsame⟩
        obtain ⟨turn, hturn, htype, rfl⟩ := mem_addedRows.1 hrow
        rw [row_identifier (htype ▸ ht)] at hsame
        exact (hfree identifier hid).2 turn.2 (mem_of_inTurn hturn) htype hsame

/-- The state after records that were all stored. -/
structure Progress (repository : Int) (db : Database) (earlier : List Record) (created : Created)
    (current : Database) : Prop where
  indexed : created.Indexed
  entries : created.toList = entriesOf repository db earlier
  repositories : current.repositories = db.repositories
  indexes : ∀ t ∈ standard.types, (current.table? t.table).map Store.Table.identifierIndex
    = (db.table? t.table).map Store.Table.identifierIndex
  counters : ∀ t ∈ standard.types, current.counter t.table
    = db.counter t.table + earlier.countP (fun record => record.type = t)
  rows : ∀ t ∈ standard.types, current.rowsOf t.table
    = db.rowsOf t.table ++ addedRows repository db t earlier
  ids : ∀ turn ∈ inTurn earlier, isId (nextId db turn.1 turn.2.type) = true ∧
    (turn.2.type.scope = .repository → isId repository = true)

theorem progress_refl (repository : Int) (db : Database) :
    Progress repository db [] Created.empty db where
  indexed := Created.indexed_empty
  entries := rfl
  repositories := rfl
  indexes _ _ := rfl
  counters _ _ := (Int.add_zero _).symm
  rows _ _ := (List.append_nil _).symm
  ids := nofun

theorem persist_iff {repository : Int} {transactional : Bool} {created : Created}
    {c c' : Connection} {record : Record} {persisted : Persisted}
    (registered : record.type ∈ standard.types) :
    persist ⟨standard, repository⟩ (Connection.storage transactional) created record c
        = (.ok persisted, c') ↔
      (∀ field ∈ record.type.schema.referenceFields, ∀ v ∈ references record.body field,
        Resolves ⟨standard, repository⟩ (Connection.storage transactional) created c
          (siteOf record.logicalId field) v) ∧
      persisted.uri = Registry.uriFor record.type repository persisted.id ∧
      ∃ db', c' = { c with database := db' } ∧
        c.database.insert record.type.table
          (record.row ⟨standard, repository⟩ (uriOf created) persisted.id).toColumns
            = .ok (persisted.id, db') := by
  obtain ⟨hnames, -⟩ := Registry.field_names record.type registered
  rw [persist, Action.bind_eq_ok]
  constructor
  · rintro ⟨body, u, hrewrite, h⟩
    obtain ⟨hresolves, rfl, rfl⟩ :=
      (rewriteFields_iff (recordExists_reads transactional) hnames).1 hrewrite
    obtain ⟨id, v, hinsert, hpure⟩ := Action.bind_eq_ok.1 h
    cases hpure
    change Connection.insert _ u = _ at hinsert
    rw [Connection.insert_run] at hinsert
    split at hinsert
    · rename_i id' db' hok
      cases hinsert
      exact ⟨hresolves, rfl, db', rfl, hok⟩
    · cases hinsert
  · obtain ⟨uri, id⟩ := persisted
    dsimp only
    rintro ⟨hresolves, rfl, db', rfl, hok⟩
    let new := newRecord ⟨standard, repository⟩ record (record.relinked (uriOf created))
    have hcolumns : c.database.insert new.type.table (Store.NewRecord.columns new)
        = .ok (id, db') := hok
    have hinsert : (Connection.storage transactional).insert new c
        = (.ok id, { c with database := db' }) := by
      change Connection.insert new c = _
      rw [Connection.insert_run, hcolumns]
    exact ⟨_, c, (rewriteFields_iff (recordExists_reads transactional) hnames).2
      ⟨hresolves, rfl, rfl⟩, Action.bind_eq_ok.2 ⟨id, _, hinsert, rfl⟩⟩

namespace Progress

variable {repository : Int} {db : Database} {earlier : List Record} {created : Created}
  {current : Database} (progress : Progress repository db earlier created current)

include progress

theorem get?_eq_some {reference : String} {persisted : Persisted}
    (h : created.get? reference = some persisted) :
    ∃ turn ∈ inTurn earlier, turn.2.logicalId = reference ∧
      persisted = placeOf repository db turn.1 turn.2 := by
  have hentry := Created.mem_of_get?_eq_some progress.indexed h
  rw [progress.entries, entriesOf] at hentry
  obtain ⟨turn, hturn, heq⟩ := List.mem_map.1 hentry
  cases heq
  exact ⟨turn, hturn, rfl, rfl⟩

theorem get?_eq_none {reference : String} (h : created.get? reference = none) :
    ∀ record ∈ earlier, record.logicalId ≠ reference := by
  rintro record hrecord rfl
  rw [Created.get?_eq_lookup progress.indexed, progress.entries, List.lookup_eq_none_iff] at h
  obtain ⟨before, hturn⟩ := exists_inTurn hrecord
  have hne := h _ (List.mem_map_of_mem hturn)
  simp at hne

theorem recordExists_iff {t : RecordType} (ht : t ∈ standard.types) (id : Int) {c : Connection}
    (hc : c.database = current) (transactional : Bool) :
    (Connection.storage transactional).recordExists t id (shownRepository t repository) c
        = (.ok true, c) ↔ Known repository db earlier t id := by
  have hlook : c.database.recordExists t.table id (shownRepository t repository)
      = if (current.table? t.table).isSome then
          .ok ((db.rowsOf t.table ++ addedRows repository db t earlier).any (fun r => r.id == id &&
            ((shownRepository t repository).isNone
              || r.repository == shownRepository t repository)))
        else .error (.noTable t.table) := by
    rw [hc, Database.recordExists_eq _ (Registry.table_apart t ht), progress.rows t ht]
  have hany : ((db.rowsOf t.table ++ addedRows repository db t earlier).any (fun r => r.id == id &&
        ((shownRepository t repository).isNone
          || r.repository == shownRepository t repository))) = true
      ↔ Known repository db earlier t id := by
    have hmatch : ∀ r : Row, (r.id == id && ((shownRepository t repository).isNone
        || r.repository == shownRepository t repository)) = true ↔
          r.id = id ∧ (t.scope = .repository → r.repository = some repository) := by
      intro r
      rw [Bool.and_eq_true, owned_iff, beq_iff_eq]
    rw [List.any_append, Bool.or_eq_true, List.any_eq_true, List.any_eq_true, Known]
    simp only [hmatch]
    refine or_congr Iff.rfl ?_
    constructor
    · rintro ⟨row, hrow, hid, -⟩
      obtain ⟨turn, hturn, htype, rfl⟩ := mem_addedRows.1 hrow
      exact ⟨turn, hturn, htype, hid⟩
    · rintro ⟨turn, hturn, rfl, rfl⟩
      exact ⟨_, mem_addedRows.2 ⟨turn, hturn, rfl, rfl⟩, rfl, repositoryOf_of_scope⟩
  change Connection.recordExists _ _ _ c = _ ↔ _
  rw [Connection.recordExists_run, hlook, ← hany]
  cases htable : current.table? t.table with
  | some table =>
    rw [Option.isSome_some, if_pos rfl, Prod.mk.injEq, Except.ok.injEq]
    exact and_iff_left rfl
  | none =>
    -- a table that is missing has no rows
    have hrows := progress.rows t ht
    rw [Database.rowsOf, htable] at hrows
    rw [← hrows]
    exact ⟨(fun h => by cases h), (fun h => by cases h)⟩

section Resolving

variable (registered : ∀ record ∈ earlier, record.type ∈ standard.types)
  (distinct : (earlier.map Record.logicalId).Nodup)

include registered distinct

theorem resolve_iff {site : Site} {reference : String} {c : Connection} (hc : c.database = current)
    (transactional : Bool) :
    resolve ⟨standard, repository⟩ (Connection.storage transactional) created site reference c
        = (.ok (uriOf created reference), c) ↔
      Answered repository db earlier site.allowed reference := by
  rw [Batch.resolve_iff (recordExists_reads transactional)]
  cases hget : created.get? reference with
  | some persisted =>
    obtain ⟨turn, hturn, rfl, rfl⟩ := progress.get?_eq_some hget
    have hmem := mem_of_inTurn hturn
    have ht := registered turn.2 hmem
    obtain ⟨hid, howner⟩ := progress.ids turn hturn
    have huri : uriOf created turn.2.logicalId
        = Registry.uriFor turn.2.type repository (nextId db turn.1 turn.2.type) := by
      rw [uriOf, hget]
      rfl
    rw [huri, Registry.parseReference?_standard ht,
      if_pos ⟨hid, howner⟩]
    constructor
    · rintro ⟨r, hr, hallowed, -⟩
      cases hr
      exact .inl ⟨turn.2, hmem, rfl, hallowed⟩
    · rintro (⟨record, hrecord, hsame, hallowed⟩ | ⟨hnone, -⟩)
      · obtain rfl : record = turn.2 := List.inj_on_of_nodup_map distinct hrecord hmem hsame
        exact ⟨_, rfl, hallowed, fun h => by cases h⟩
      · exact absurd rfl (hnone turn.2 hmem)
  | none =>
    have hnone := progress.get?_eq_none hget
    have huri : uriOf created reference = reference := by
      rw [uriOf, hget]
      rfl
    rw [huri]
    constructor
    · rintro ⟨r, hr, hallowed, hlook⟩
      obtain ⟨howner, t, ht, hexists⟩ := hlook rfl
      obtain ⟨u, hu, hname, hagrees⟩ := Registry.parseReference?_type hr
      obtain rfl : u = t := by
        rw [← hname, Registry.get?_name u hu] at ht
        exact Option.some.inj ht
      have hshown := shownRepository_iff.2 ⟨hagrees, howner⟩
      rw [← hshown, progress.recordExists_iff hu r.id hc] at hexists
      rw [← hname] at hallowed
      refine .inr ⟨hnone, u, hu, hallowed, r.id, hexists, ?_⟩
      rw [hr, hname, hshown]
    · rintro (⟨record, hrecord, hsame, -⟩ | ⟨-, t, ht, hallowed, id, hknown, hr⟩)
      · exact absurd hsame (hnone record hrecord)
      · refine ⟨_, hr, hallowed, fun _ => ⟨?_, t, Registry.get?_name t ht,
          (progress.recordExists_iff ht id hc transactional).2 hknown⟩⟩
        exact (shownRepository_iff.1 rfl).2

end Resolving

section Inserting

variable {record : Record} (ht : record.type ∈ standard.types)

include ht

theorem refuses_iff {table : Store.Table} (htable : current.table? record.type.table = some table)
    (uris : String → String) (id : Int) :
    table.refuses (record.row ⟨standard, repository⟩ uris id).toColumns = false ↔
      (Guarded db record.type → Unclaimed repository db earlier record) := by
  have hindex := progress.indexes record.type ht
  have hrows := progress.rows record.type ht
  rw [htable, Option.map_some] at hindex
  rw [Database.rowsOf, htable, Option.map_some, Option.getD_some] at hrows
  have hguarded : Guarded db record.type ↔ table.identifierIndex.isSome = true := by
    obtain ⟨old, hold, hsame⟩ := Option.map_eq_some_iff.1 hindex.symm
    rw [Guarded, hold, Option.any_some, hsame]
  rw [Store.Table.refuses, hrows, hguarded]
  cases table.identifierIndex.isSome with
  | false => simp
  | true =>
    rw [Bool.true_and, forall_prop_of_true rfl]
    exact unclaimed_iff ht uris id

theorem isSome_table : (current.table? record.type.table).isSome
    = (db.table? record.type.table).isSome := by
  have hindex := congrArg Option.isSome (progress.indexes record.type ht)
  rwa [Option.isSome_map, Option.isSome_map] at hindex

theorem lastId_eq {table : Store.Table} (htable : current.table? record.type.table = some table) :
    table.lastId + 1 = nextId db earlier record.type := by
  have hcounter := progress.counters record.type ht
  rw [Database.counter, htable, Option.map_some, Option.getD_some] at hcounter
  rw [nextId, hcounter]

theorem insert_iff (uris : String → String) (id : Int) :
    (∃ db', current.insert record.type.table (record.row ⟨standard, repository⟩ uris id).toColumns
        = .ok (nextId db earlier record.type, db')) ↔
      (db.table? record.type.table).isSome = true ∧ db.repositories.isSome = true ∧
        (record.type.scope = .repository → db.hasRepository repository = true) ∧
        nextId db earlier record.type ≤ Store.maxId ∧
        (Guarded db record.type → Unclaimed repository db earlier record) := by
  rw [← progress.isSome_table ht, Database.insert_eq, ← progress.repositories]
  cases htable : current.table? record.type.table with
  | none =>
    constructor
    · rintro ⟨db', h⟩
      cases h
    · rintro ⟨h, -⟩
      cases h
  | some table =>
    have hlast := progress.lastId_eq ht htable
    have hrefuses := progress.refuses_iff ht htable uris id
    have howner : (record.row ⟨standard, repository⟩ uris id).repository.all
        current.hasRepository = true ↔
          (record.type.scope = .repository → db.hasRepository repository = true) := by
      have hsame : db.hasRepository = current.hasRepository := by
        funext r
        rw [Database.hasRepository, Database.hasRepository, progress.repositories]
      rw [hsame]
      change (repositoryOf ⟨standard, repository⟩ record.type).all _ = true ↔ _
      rw [repositoryOf]
      cases record.type.scope <;> simp
    rw [← hrefuses, ← howner, ← hlast]
    dsimp only
    constructor
    · rintro ⟨db', h⟩
      -- the checks of an insertion, in the order in which they are made
      split at h
      · cases h
      rename_i hrepositories
      split at h
      · cases h
      rename_i hroom
      split at h
      · cases h
      rename_i hfree
      split at h
      · cases h
      rename_i howned
      exact ⟨rfl, by simpa [Option.isSome_iff_ne_none] using hrepositories, by simpa using howned,
        by omega, by simpa using hfree⟩
    · rintro ⟨-, hrepositories, howned, hroom, hfree⟩
      have hnone : ¬current.repositories.isNone = true := by
        rw [Option.isNone_iff_eq_none]
        exact Option.isSome_iff_ne_none.1 hrepositories
      rw [if_neg hnone, if_neg (by omega), hfree, if_neg Bool.false_ne_true, howned]
      exact ⟨_, rfl⟩

/-- Whatever is to be inserted, a table without ids is asked for one first. -/
theorem insert_full (htable : (db.table? record.type.table).isSome = true)
    (hrepositories : db.repositories.isSome = true)
    (hfull : Store.maxId < nextId db earlier record.type) (columns : Store.Columns) :
    current.insert record.type.table columns = .error Store.full := by
  rw [← progress.isSome_table ht] at htable
  obtain ⟨table, htable⟩ := Option.isSome_iff_exists.1 htable
  have hlast := progress.lastId_eq ht htable
  rw [Database.insert_eq, htable, progress.repositories]
  dsimp only
  rw [if_neg (by simpa [Option.isSome_iff_ne_none] using hrepositories), if_pos (by omega)]

end Inserting

section Persisting

variable (registered : ∀ record ∈ earlier, record.type ∈ standard.types)
  (distinct : (earlier.map Record.logicalId).Nodup) {record : Record}
  (ht : record.type ∈ standard.types) {c : Connection} (hc : c.database = current)
  (transactional : Bool)

include registered distinct ht hc

omit ht in
theorem resolves_iff (field : Registry.Field) (v : Json.Value) :
    Resolves ⟨standard, repository⟩ (Connection.storage transactional) created c
        (siteOf record.logicalId field) v ↔
      ∃ reference, Registry.refValue? v = some reference ∧
        Answered repository db earlier (field.kind.allowed?.getD []) reference := by
  simp only [Resolves, progress.resolve_iff registered distinct hc]
  rfl

/-- One more record is stored exactly if it is storable. -/
theorem persist_succeeds_iff :
    (∃ persisted c', persist ⟨standard, repository⟩ (Connection.storage transactional) created
        record c = (.ok persisted, c')) ↔
      Storable repository db earlier record := by
  simp only [persist_iff ht, progress.resolves_iff registered distinct hc]
  constructor
  · rintro ⟨persisted, c', answered, -, db', -, hinsert⟩
    rw [hc] at hinsert
    have hid : persisted.id = nextId db earlier record.type := by
      rw [Database.id_insert hinsert, progress.counters record.type ht, nextId]
    rw [hid] at hinsert
    obtain ⟨htable, hrepositories, hfounded, hroom, hfree⟩ :=
      (progress.insert_iff ht _ _).1 ⟨db', hinsert⟩
    exact ⟨answered, htable, hrepositories, hfounded, hroom, hfree⟩
  · intro storable
    obtain ⟨db', hinsert⟩ := (progress.insert_iff ht (uriOf created)
      (nextId db earlier record.type)).2 ⟨storable.table, storable.repositories, storable.founded,
        storable.room, storable.unclaimed⟩
    exact ⟨placeOf repository db earlier record, _, storable.answered, rfl, db', rfl,
      hc ▸ hinsert⟩

/-- What keeps a record that is in order from being stored is that no id is left. -/
theorem persist_fails (ready : Ready repository db)
    (acceptable : Acceptable repository db earlier record) {e : ImportError} {c' : Connection}
    (h : persist ⟨standard, repository⟩ (Connection.storage transactional) created record c
      = (.error e, c')) :
    Store.maxId < nextId db earlier record.type ∧
      e = .storage Store.full.message := by
  have hfull : Store.maxId < nextId db earlier record.type := by
    by_contra hroom
    obtain ⟨persisted, c'', hok⟩ := (progress.persist_succeeds_iff registered distinct ht hc
      transactional).2 ((ready.storable_iff ht).2 ⟨acceptable, by omega⟩)
    rw [h] at hok
    cases hok
  refine ⟨hfull, ?_⟩
  obtain ⟨hnames, -⟩ := Registry.field_names record.type ht
  have hrewrite : rewriteFields ⟨standard, repository⟩ (Connection.storage transactional) created
      record.logicalId record.type.schema.referenceFields record.body c
        = (.ok (record.relinked (uriOf created)), c) := by
    refine (rewriteFields_iff (recordExists_reads transactional) hnames).2 ⟨?_, rfl, rfl⟩
    intro field hfield v hv
    rw [progress.resolves_iff registered distinct hc]
    exact acceptable.answered field hfield v hv
  let new := newRecord ⟨standard, repository⟩ record (record.relinked (uriOf created))
  have hcolumns : c.database.insert new.type.table (Store.NewRecord.columns new)
      = .error Store.full := by
    rw [hc]
    exact progress.insert_full ht (ready.isSome_table ht) ready.isSome_repositories hfull _
  have hinsert : (Connection.storage transactional).insert new c
      = (.error (Store.full.classify record.logicalId), c) := by
    change Connection.insert new c = _
    rw [Connection.insert_run, hcolumns]
    rfl
  rw [persist, Action.bind_run, hrewrite] at h
  dsimp only at h
  rw [Action.bind_run, hinsert] at h
  cases h
  rfl

end Persisting

/-- A record that was stored is where it was to be, and the next one finds it there. -/
theorem next (numbered : db.Numbered) {record : Record} (ht : record.type ∈ standard.types)
    (fresh : created.get? record.logicalId = none) {c c' : Connection} (hc : c.database = current)
    {transactional : Bool} {persisted : Persisted}
    (h : persist ⟨standard, repository⟩ (Connection.storage transactional) created record c
      = (.ok persisted, c')) :
    Progress repository db (earlier ++ [record]) (created.insert record.logicalId persisted).1
      c'.database := by
  obtain ⟨-, huri, db', rfl, hinsert⟩ := (persist_iff ht).1 h
  rw [hc] at hinsert
  have hid : persisted.id = nextId db earlier record.type := by
    rw [Database.id_insert hinsert, progress.counters record.type ht, nextId]
  have hplace : persisted = placeOf repository db earlier record := by
    obtain ⟨uri, id⟩ := persisted
    dsimp only at huri hid
    rw [huri, hid, placeOf]
  -- only the table of the record's own type grows
  have hname : ∀ t ∈ standard.types, sameName record.type.table t.table = true ↔
      record.type = t := by
    intro t htype
    constructor
    · exact Registry.table_inj record.type ht t htype
    · rintro rfl
      exact Store.sameName_refl _
  refine ⟨Created.indexed_insert progress.indexed fresh persisted, ?_, ?_, ?_, ?_, ?_, ?_⟩
  · rw [Created.toList_insert progress.indexed fresh, progress.entries, entriesOf, entriesOf,
      inTurn_concat, List.map_append, hplace]
    rfl
  · exact (Database.repositories_insert hinsert).trans progress.repositories
  · intro t htype
    rw [← progress.indexes t htype]
    exact Database.indexes_insert hinsert t.table
  · intro t htype
    rw [Database.counter_insert hinsert, progress.counters t htype, List.countP_append, hid, nextId]
    by_cases hsame : record.type = t
    · rw [if_pos ((hname t htype).2 hsame), hsame]
      simp [hsame, Int.add_assoc]
    · rw [if_neg (fun hc => hsame ((hname t htype).1 hc))]
      simp [hsame]
  · intro t htype
    rw [Database.rowsOf_insert hinsert, progress.rows t htype, addedRows, addedRows, inTurn_concat,
      List.filter_append, List.map_append, List.append_assoc]
    by_cases hsame : record.type = t
    · rw [if_pos ((hname t htype).2 hsame), uriOf_eq progress.indexed, progress.entries, hid, hsame]
      have hturn : [(earlier, record)].filter (fun turn => turn.2.type = t)
          = [(earlier, record)] := by simp [hsame]
      rw [hturn]
      rfl
    · rw [if_neg (fun hc => hsame ((hname t htype).1 hc))]
      simp [hsame]
  · intro turn hturn
    rw [inTurn_concat, List.mem_append, List.mem_singleton] at hturn
    obtain hturn | rfl := hturn
    · exact progress.ids turn hturn
    · have hcounter := numbered.counters record.type.table
      obtain ⟨-, -, hfounded, hroom, -⟩ := (progress.insert_iff ht _ _).1 ⟨db', hid ▸ hinsert⟩
      rw [Store.maxId] at hroom
      refine ⟨?_, fun hscope => ?_⟩
      · rw [isId, Bool.and_eq_true, decide_eq_true_eq, decide_eq_true_eq]
        refine ⟨?_, hroom⟩
        rw [nextId]
        dsimp only
        omega
      · rw [isId, Bool.and_eq_true, decide_eq_true_eq, decide_eq_true_eq]
        exact numbered.repositories repository (hfounded hscope)

end Progress

end Accession.Batch
