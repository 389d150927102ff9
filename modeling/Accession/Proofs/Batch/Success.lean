import Accession.Proofs.Batch.Persisting
set_option autoImplicit false

namespace Accession.Batch

open Registry (standard)
open Store (Connection Database)

/-- A record fails in its turn, after those before it were all stored. -/
def TurnedDown (repository : Int) (db : Database) (transactional : Bool) (e : ImportError)
    (turn : List Record × Record) : Prop :=
  ∃ created c c', Progress repository db turn.1 created c.database ∧
    persist ⟨standard, repository⟩ (Connection.storage transactional) created turn.2 c
      = (.error e, c')

/-- The records of a batch, one after another: the batch succeeds exactly if nothing is wrong after
them and each of them is storable in its turn. It fails with the error of the first that is not. -/
theorem persistAll_storable {repository : Int} {db : Database} (numbered : db.Numbered)
    (transactional : Bool) (ending : Option ImportError) (earlier records : List Record)
    {created : Created} (world : World Connection)
    (registered : ∀ record ∈ earlier ++ records, record.type ∈ standard.types)
    (distinct : ((earlier ++ records).map Record.logicalId).Nodup)
    (progress : Progress repository db earlier created world.storage.database) :
    ∃ processed world',
      persistAll ⟨standard, repository⟩ (Connection.storage transactional) ending records created
        world = (processed, world') ∧
      (processed.error = none ↔ ending = none ∧
        ∀ turn ∈ inTurnAfter earlier records, Storable repository db turn.1 turn.2) ∧
      (processed.error = none → Progress repository db (earlier ++ records) processed.created
        world'.storage.database) ∧
      ∀ e, processed.error = some e → ending = some e ∨
        ∃ turn ∈ inTurnAfter earlier records, TurnedDown repository db transactional e turn := by
  induction records generalizing earlier created world with
  | nil =>
    rw [List.append_nil]
    exact ⟨_, _, rfl, ⟨fun h => ⟨h, fun _ hc => absurd hc List.not_mem_nil⟩, And.left⟩,
      fun _ => progress, fun _ h => .inl h⟩
  | cons record rest ih =>
    have ht := registered record (List.mem_append_right _ List.mem_cons_self)
    have hsplit : earlier ++ record :: rest = (earlier ++ [record]) ++ rest := by
      rw [List.append_assoc]
      rfl
    rw [hsplit] at registered distinct ⊢
    have hids : ((earlier ++ [record]).map Record.logicalId).Nodup := by
      rw [List.map_append] at distinct
      exact (List.nodup_append.1 distinct).1
    rw [List.map_append, List.nodup_append] at hids
    obtain ⟨hearlier, -, hapart⟩ := hids
    -- whether the record can be stored is decided by those before it alone
    have hsucceeds := progress.persist_succeeds_iff
      (fun other hother => registered other
        (List.mem_append_left _ (List.mem_append_left _ hother))) hearlier ht rfl transactional
    rw [persistAll, stateM_bind_run, World.call_run, inTurnAfter, List.forall_mem_cons]
    rcases hpersist : persist ⟨standard, repository⟩ (Connection.storage transactional) created
      record world.storage with ⟨e | persisted, c⟩
    · refine ⟨_, _, rfl, ⟨(fun h => by cases h), ?_⟩, (fun h => by cases h), ?_⟩
      · rintro ⟨-, hrecord, -⟩
        obtain ⟨persisted, c', hok⟩ := hsucceeds.2 hrecord
        rw [hpersist] at hok
        cases hok
      · rintro _ ⟨⟩
        exact .inr ⟨_, List.mem_cons_self, created, world.storage, c, progress, hpersist⟩
    · have hrecord := hsucceeds.1 ⟨persisted, c, hpersist⟩
      -- what the map has under an identifier is an earlier record of that identifier
      have hfresh : created.get? record.logicalId = none := by
        rw [Option.eq_none_iff_forall_ne_some]
        intro other hother
        obtain ⟨turn, hturn, hsame, -⟩ := progress.get?_eq_some hother
        exact hapart _ (List.mem_map_of_mem (mem_of_inTurn hturn)) _ List.mem_cons_self hsame
      obtain ⟨processed, world', hrun, hsuccess, hprogress, herror⟩ := ih (earlier ++ [record])
        { storage := c, trail := .activity .processed :: world.trail } registered distinct
        (progress.next numbered ht hfresh rfl hpersist)
      refine ⟨processed, world', hrun, ?_, hprogress, ?_⟩
      · rw [hsuccess]
        exact and_congr_right (fun _ => (and_iff_right hrecord).symm)
      · intro e he
        refine (herror e he).imp_right ?_
        rintro ⟨turn, hturn, down⟩
        exact ⟨turn, List.mem_cons_of_mem _ hturn, down⟩

/-- A record that is acceptable in its turn is turned down only where no id is left for it. -/
theorem TurnedDown.full {repository : Int} {db : Database} {transactional : Bool} {e : ImportError}
    {records : List Record} {turn : List Record × Record}
    (down : TurnedDown repository db transactional e turn) (ready : Ready repository db)
    (registered : ∀ record ∈ records, record.type ∈ standard.types)
    (distinct : (records.map Record.logicalId).Nodup) (hturn : turn ∈ inTurn records)
    (acceptable : Acceptable repository db turn.1 turn.2) :
    e = .storage Store.full.message ∧
      ∃ record ∈ records, Store.maxId < db.counter record.type.table
        + records.countP (fun other => other.type = record.type) := by
  obtain ⟨created, c, c', progress, hpersist⟩ := down
  obtain ⟨earlier, record⟩ := turn
  obtain ⟨rest, rfl⟩ := mem_inTurn hturn
  rw [List.map_append, List.nodup_append] at distinct
  rw [List.forall_mem_append] at registered
  obtain ⟨hfull, rfl⟩ := progress.persist_fails registered.1 distinct.1
    (registered.2 record List.mem_cons_self) rfl transactional ready acceptable hpersist
  refine ⟨rfl, record, List.mem_append_right _ List.mem_cons_self, ?_⟩
  have hcount : (earlier ++ record :: rest).countP (fun other => other.type = record.type)
      = earlier.countP (fun other => other.type = record.type)
        + (rest.countP (fun other => other.type = record.type) + 1) := by
    simp [List.countP_append]
  rw [nextId] at hfull
  dsimp only at hfull ⊢
  omega

end Accession.Batch
