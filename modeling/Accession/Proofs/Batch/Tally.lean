import Accession.Proofs.Batch.Modes
import Accession.Proofs.Batch.Snapshots
set_option autoImplicit false

namespace Accession.Batch

open Registry (standard)
open Store (Connection)

variable {ω : Type}

section Log

def Call.inserted? : Call → Option (String × Int)
  | .insert record (.ok id) => some (record.logicalId, id)
  | _ => none

namespace Watched

/-- What the insertions that succeeded have inserted, in the order of the calls. -/
def inserted (w : Watched ω) : List (String × Int) :=
  w.calls.reverse.filterMap Call.inserted?

theorem inserted_of_calls {w w' : Watched ω} {call : Call} (h : w'.calls = call :: w.calls) :
    w'.inserted = w.inserted ++ call.inserted?.toList := by
  rw [inserted, h, List.reverse_cons, List.filterMap_append, inserted, List.filterMap_cons]
  cases call.inserted? <;> rfl

end Watched

variable (target : Target) (storage : Storage ω) (plan : FaultPlan)

theorem recordExists_inserted (t : Registry.RecordType) (id : Int) (repository : Option Int)
    (w : Watched ω) :
    ((storage.watched plan).recordExists t id repository w).2.inserted = w.inserted := by
  have hcalls : ((storage.watched plan).recordExists t id repository w).2.calls
      = .recordExists t.name id repository
          ((storage.watched plan).recordExists t id repository w).1 :: w.calls := by
    simp only [Storage.watched, Watched.recordExists, Action.mk_run, stateM_bind_run,
      stateM_modify_run, stateM_get_run]
    cases plan .recordExists w.sessions (w.lookups + 1) <;> rfl
  rw [Watched.inserted_of_calls hcalls]
  exact List.append_nil _

theorem insert_inserted (record : NewRecord) (w : Watched ω) :
    ((storage.watched plan).insert record w).2.inserted = w.inserted ++
      match ((storage.watched plan).insert record w).1 with
      | .ok id => [(record.logicalId, id)]
      | .error _ => [] := by
  have hcalls : ((storage.watched plan).insert record w).2.calls
      = .insert record ((storage.watched plan).insert record w).1 :: w.calls := by
    simp only [Storage.watched, Watched.insert, Action.mk_run, stateM_bind_run, stateM_modify_run,
      stateM_get_run]
    cases plan .insert w.sessions (w.insertions + 1) <;> rfl
  rw [Watched.inserted_of_calls hcalls]
  cases ((storage.watched plan).insert record w).1 <;> rfl

theorem rewriteFields_inserted (created : Created) (subject : String)
    (fields : List Registry.Field) (body : Json.Members) (w : Watched ω) :
    (rewriteFields target (storage.watched plan) created subject fields body w).2.inserted
      = w.inserted := by
  have lookups : LooksUp (fun _ => Twin (fun v v' => v = v' ∧ v.inserted = w.inserted)) target
      (storage.watched plan) (storage.watched plan) := by
    rintro site reference r t - - - v v' ⟨rfl, h⟩
    exact ⟨rfl, rfl, (recordExists_inserted storage plan t r.id r.repository v).trans h⟩
  obtain ⟨-, -, h⟩ :=
    rewriteFields_compares (Twin.compares _) created lookups subject fields body w w ⟨rfl, rfl⟩
  exact h

theorem persist_inserted (created : Created) (record : Record) (w : Watched ω) :
    (persist target (storage.watched plan) created record w).2.inserted = w.inserted ++
      match (persist target (storage.watched plan) created record w).1 with
      | .ok persisted => [(record.logicalId, persisted.id)]
      | .error _ => [] := by
  have hrewrite := rewriteFields_inserted target storage plan created record.logicalId
    record.type.schema.referenceFields record.body w
  rw [persist, Action.bind_run]
  rcases hbody : rewriteFields target (storage.watched plan) created record.logicalId
    record.type.schema.referenceFields record.body w with ⟨e | body, v⟩
  · rw [hbody] at hrewrite
    exact hrewrite.trans (List.append_nil _).symm
  · have hinsert := insert_inserted storage plan (newRecord target record body) v
    rw [hbody] at hrewrite
    dsimp only at hrewrite ⊢
    rw [Action.bind_run, ← hrewrite]
    rcases hid : (storage.watched plan).insert (newRecord target record body) v with ⟨e | id, u⟩
    all_goals
      rw [hid] at hinsert
      exact hinsert

end Log

/-- Between two points of a batch: the entries are what was inserted, in the order of the calls and
with the ids that these gave, and as many records were counted. -/
structure Tally (before now : World (Watched ω)) (entries : List (String × Persisted)) : Prop where
  inserted : now.storage.inserted
    = before.storage.inserted ++ entries.map (fun entry => (entry.1, entry.2.id))
  counted : now.steps = before.steps ++ List.replicate entries.length (.activity .processed)

namespace Tally

variable {before between now : World (Watched ω)} {entries more : List (String × Persisted)}

theorem refl (world : World (Watched ω)) : Tally world world [] :=
  ⟨(List.append_nil _).symm, (List.append_nil _).symm⟩

theorem trans (h : Tally before between entries) (h' : Tally between now more) :
    Tally before now (entries ++ more) where
  inserted := by simp [h'.inserted, h.inserted]
  counted := by simp [h'.counted, h.counted, ← List.replicate_append_replicate]

end Tally

theorem Monitor.through_processed (m : Monitor) (count : Nat) :
    (m.through (List.replicate count (.activity .processed))).recordsProcessed
      = m.recordsProcessed + UInt64.ofNat count := by
  induction count generalizing m with
  | zero => simp [Monitor.through]
  | succ count ih =>
    rw [List.replicate_succ, Monitor.through, List.foldl_cons, ← Monitor.through, ih]
    change m.recordsProcessed + 1 + UInt64.ofNat count = _
    rw [UInt64.add_assoc, UInt64.ofNat_add, UInt64.add_comm 1]
    rfl

theorem Tally.monitor {before now : World (Watched ω)} {entries : List (String × Persisted)}
    (h : Tally before now entries) (m : Monitor) :
    (m.through now.steps).recordsProcessed
      = (m.through before.steps).recordsProcessed + UInt64.ofNat entries.length := by
  rw [h.counted, Monitor.through_append, Monitor.through_processed]

section Storing

variable (target : Target) (storage : Storage ω) (plan : FaultPlan)

theorem persist_tally (created : Created) (record : Record) (world : World (Watched ω)) :
    match persist target (storage.watched plan) created record world.storage with
    | (.error _, s) => Tally world { world with storage := s } []
    | (.ok persisted, s) =>
      Tally world ⟨s, .activity .processed :: world.trail⟩ [(record.logicalId, persisted)] := by
  have hinserted := persist_inserted target storage plan created record world.storage
  rcases hpersist : persist target (storage.watched plan) created record world.storage
    with ⟨e | persisted, s⟩
  all_goals rw [hpersist] at hinserted
  · exact ⟨hinserted, (List.append_nil _).symm⟩
  · exact ⟨hinserted, List.reverse_cons⟩

theorem persistAll_tally (ending : Option ImportError) {records : List Record} {created : Created}
    (indexed : created.Indexed) (fresh : ∀ record ∈ records, created.get? record.logicalId = none)
    (distinct : (records.map Record.logicalId).Nodup) (world : World (Watched ω)) :
    ∃ entries processed world',
      persistAll target (storage.watched plan) ending records created world = (processed, world') ∧
      Tally world world' entries ∧ processed.created.Indexed ∧
      processed.created.toList = created.toList ++ entries ∧
      (processed.error = none → entries.map (·.1) = records.map Record.logicalId) := by
  induction records generalizing created world with
  | nil => exact ⟨[], _, _, rfl, .refl world, indexed, (List.append_nil _).symm, fun _ => rfl⟩
  | cons record rest ih =>
    have htally := persist_tally target storage plan created record world
    rw [persistAll, stateM_bind_run, World.call_run]
    rcases hpersist : persist target (storage.watched plan) created record world.storage
      with ⟨e | persisted, s⟩
    · rw [hpersist] at htally
      exact ⟨[], _, _, rfl, htally, indexed, (List.append_nil _).symm, fun hdone => by cases hdone⟩
    · rw [hpersist] at htally
      have hnew := fresh record List.mem_cons_self
      obtain ⟨entries, processed, world', hrun, hrest, hindexed, hlist, hkeys⟩ :=
        ih (Created.indexed_insert indexed hnew persisted)
          (Created.fresh_insert indexed fresh distinct persisted) (List.nodup_cons.1 distinct).2
          ⟨s, .activity .processed :: world.trail⟩
      refine ⟨(record.logicalId, persisted) :: entries, processed, world', hrun,
        htally.trans hrest, hindexed, ?_, ?_⟩
      · rw [hlist, Created.toList_insert indexed hnew, List.append_assoc]
        rfl
      · intro hdone
        rw [List.map_cons, List.map_cons, hkeys hdone]

theorem batch_tally (ending : Option ImportError) {records : List Record}
    (distinct : (records.map Record.logicalId).Nodup) (world : World (Watched ω)) :
    ∃ processed world',
      persistAll target (storage.watched plan) ending records Created.empty world
        = (processed, world') ∧
      Tally world world' processed.created.toList ∧ processed.created.Indexed ∧
      (processed.error = none →
        processed.created.toList.map (·.1) = records.map Record.logicalId) := by
  obtain ⟨entries, processed, world', hrun, htally, hindexed, hlist, hkeys⟩ :=
    persistAll_tally target storage plan ending Created.indexed_empty
      (fun _ _ => Created.get?_empty _) distinct world
  rw [Created.toList_empty, List.nil_append] at hlist
  exact ⟨processed, world', hrun, hlist ▸ htally, hindexed, hlist ▸ hkeys⟩

end Storing

/-- However the calls of the storage end, at every point of a batch between two records, and when it
returns, with a failure or without: the entries of the created records are what the insertions that
succeeded have inserted, the i-th entry with the id that the i-th of them gave, and any monitor has
counted as many records. A point between two records is what storing those in front of it comes to
without a failure, and the batch goes on from there. Then the identifier of the next record is not
taken, so its entry is always added. -/
theorem created_in_step (target : Target) (storage : Storage ω) (plan : FaultPlan)
    (body : List UInt8) (world : World (Watched ω)) :
    let watched := storage.watched plan
    let read := recordsOf target.registry body
    let ended : Processed × World (Watched ω) := process target watched body world
    let point (count : Nat) : Processed × World (Watched ω) :=
      persistAll target watched none (read.1.take count) Created.empty world
    (∀ p, p = ended ∨ (∃ count, p = point count) →
      Tally world p.2 p.1.created.toList ∧
      ∀ m : Monitor, (m.through p.2.steps).recordsProcessed
        = (m.through world.steps).recordsProcessed + UInt64.ofNat p.1.created.size) ∧
    ∀ count, (point count).1.error = none →
      ended = persistAll target watched read.2 (read.1.drop count) (point count).1.created
        (point count).2 ∧
      ∀ record, read.1[count]? = some record →
        ∀ persisted, ((point count).1.created.insert record.logicalId persisted).2 = true := by
  intro watched read ended point
  have hdistinct : (read.1.map Record.logicalId).Nodup := recordsOf_nodup target.registry body
  have hfront (count : Nat) : ((read.1.take count).map Record.logicalId).Nodup :=
    hdistinct.sublist ((List.take_sublist count _).map _)
  constructor
  · intro p hp
    have htally : Tally world p.2 p.1.created.toList := by
      obtain rfl | ⟨count, rfl⟩ := hp
      · obtain ⟨processed, world', hrun, htally, -⟩ :=
          batch_tally target storage plan read.2 hdistinct world
        rw [show ended = _ from hrun]
        exact htally
      · obtain ⟨processed, world', hrun, htally, -⟩ :=
          batch_tally target storage plan none (hfront count) world
        rw [show point count = _ from hrun]
        exact htally
    exact ⟨htally, htally.monitor⟩
  · intro count hstored
    have hsplit : read.1.take count ++ read.1.drop count = read.1 := List.take_append_drop _ _
    obtain ⟨processed, world', hrun, -, hindexed, hkeys⟩ :=
      batch_tally target storage plan none (hfront count) world
    rw [show point count = _ from hrun] at hstored ⊢
    constructor
    · have happend := persistAll_append target watched read.2 (read.1.take count)
        (read.1.drop count) Created.empty world
      rw [hsplit, hrun] at happend
      rcases processed with ⟨created, _ | e⟩
      · exact happend
      · cases hstored
    · intro record hrecord persisted
      have hlater : record ∈ read.1.drop count := by
        apply List.mem_of_getElem? (i := 0)
        rw [List.getElem?_drop]
        exact hrecord
      -- an identifier is that of one record only, which comes after those that were stored
      rw [← hsplit, List.map_append, List.nodup_append] at hdistinct
      have hnew : record.logicalId ∉ processed.created.toList.map (·.1) := by
        rw [hkeys hstored]
        intro hmem
        exact hdistinct.2.2 _ hmem _ (List.mem_map_of_mem hlater) rfl
      rw [Created.insert_new hindexed (Created.get?_of_not_mem hindexed hnew)]

/-- The first of two records is inserted, and the second meets another writer. -/
theorem created_in_step_contested :
    let target : Target := ⟨standard, 1⟩
    let plan : FaultPlan := fun op _ call =>
      if op = .insert ∧ call = 2 then some (.conflict "database is locked") else none
    let world : World (Watched Connection) := { storage := { inner := { database := shelf } } }
    let ended : Processed × World (Watched Connection) :=
      process target ((Connection.storage true).watched plan) family.body world
    Tally world ended.2 ended.1.created.toList ∧
      ended.1.error = some (.conflict "database is locked") ∧
      ended.2.storage.inserted = [("p", 1)] ∧
      (Monitor.through {} ended.2.steps).recordsProcessed = 1 ∧
      ∃ created : Created, created.toList.map (·.1) = ["p"] ∧
        ∀ record, (recordsOf target.registry family.body).1[1]? = some record →
          ∀ persisted, (created.insert record.logicalId persisted).2 = true := by
  intro target plan world ended
  obtain ⟨htally, hpoint⟩ :=
    created_in_step target (Connection.storage true) plan family.body world
  obtain ⟨-, hadded⟩ := hpoint 1 (by decide +kernel)
  exact ⟨(htally ended (.inl rfl)).1, by decide +kernel, by decide +kernel, by decide +kernel,
    _, by decide +kernel, hadded⟩

end Accession.Batch
