import Accession.Proofs.Batch.Buffering
import Accession.Proofs.Batch.Tally
set_option autoImplicit false

namespace Accession.Batch

open Registry (standard)
open Store (Connection)

variable {ω : Type}

/-- A batch some octets of which were taken. -/
inductive Intake (ω : Type) where
  | reading (splitter : Splitter) (position : Nat) (seen : List String) (created : Created)
      (world : World ω)
  /-- An octet was refused, or the piece that ended with it. -/
  | stopped (created : Created) (error : ImportError) (world : World ω)

namespace Intake

section

variable (target : Target) (storage : Storage ω)

def store (splitter : Splitter) (position : Nat) (seen : List String) (created : Created)
    (world : World ω) (piece : List UInt8) : Intake ω :=
  match decode target.registry position seen piece with
  | (.error e, _) => .stopped created e world
  | (.ok record, seen) =>
    match persist target storage created record world.storage with
    | (.error e, s) => .stopped created e { world with storage := s }
    | (.ok persisted, s) =>
      .reading splitter position seen (created.insert record.logicalId persisted).1
        ⟨s, .activity .processed :: world.trail⟩

def take : Intake ω → UInt8 → Intake ω
  | .stopped created e world, _ => .stopped created e world
  | .reading splitter position seen created world, b =>
    match splitter.push b with
    | .error e => .stopped created (.decode (position + 1) e.message) world
    | .ok (splitter, none) => .reading splitter position seen created world
    | .ok (splitter, some piece) =>
      store target storage splitter (position + 1) seen created world piece

def after (world : World ω) (octets : List UInt8) : Intake ω :=
  octets.foldl (take target storage) (.reading .start 0 [] Created.empty world)

end

def error? : Intake ω → Option ImportError
  | .reading .. => none
  | .stopped _ e _ => some e

def finish : Intake ω → Processed × World ω
  | .stopped created e world => (⟨created, some e⟩, world)
  | .reading splitter position _ created world =>
    match splitter.finish with
    | .error e => (⟨created, some (.decode (position + 1) e.message)⟩, world)
    | .ok () => (⟨created, none⟩, world)

theorem error_finish {intake : Intake ω} {e : ImportError} (h : intake.error? = some e) :
    intake.finish.1.error = some e := by
  cases intake with
  | reading => cases h
  | stopped => exact h

section

variable (target : Target) (storage : Storage ω)

theorem foldl_stopped (octets : List UInt8) (created : Created) (e : ImportError)
    (world : World ω) :
    octets.foldl (take target storage) (.stopped created e world) = .stopped created e world := by
  induction octets with
  | nil => rfl
  | cons b octets ih => exact ih

theorem after_append {world : World ω} {octets : List UInt8} {e : ImportError}
    (h : (after target storage world octets).error? = some e) (more : List UInt8) :
    after target storage world (octets ++ more) = after target storage world octets := by
  rw [after, List.foldl_append]
  change more.foldl _ (after target storage world octets) = _
  cases hafter : after target storage world octets with
  | reading =>
    rw [hafter] at h
    cases h
  | stopped created e world => exact foldl_stopped target storage more created e world

theorem foldl_feed (octets : List UInt8) (splitter : Splitter) (position : Nat)
    (seen : List String) (created : Created) (world : World ω) :
    octets.foldl (take target storage) (.reading splitter position seen created world) =
      match splitter.feed octets with
      | .taken splitter' => .reading splitter' position seen created world
      | .piece splitter' piece rest =>
        rest.foldl (take target storage)
          (store target storage splitter' (position + 1) seen created world piece)
      | .refused _ e => .stopped created (.decode (position + 1) e.message) world := by
  induction octets generalizing splitter with
  | nil => rfl
  | cons b octets ih =>
    rw [List.foldl_cons, Splitter.feed, take]
    rcases splitter.push b with e | ⟨splitter', _ | piece⟩
    · exact foldl_stopped target storage octets created _ world
    · exact ih splitter'
    · rfl

/-- What is left of a stream: its octets one by one, or all of its records and then their storing. -/
theorem finish_foldl (limit position : Nat) (splitter : Splitter) (seen : List String)
    (created : Created) (world : World ω) (buffers : List (List UInt8))
    (enough : buffers.flatten.length < limit) :
    let read := Reader.records target.registry limit { buffers, splitter, position, seen }
    (buffers.flatten.foldl (take target storage)
        (.reading splitter position seen created world)).finish
      = persistAll target storage read.2 read.1 created world := by
  induction limit generalizing position splitter seen created world buffers with
  | zero => omega
  | succ limit ih =>
    intro read
    have hfed := nextPiece_feed splitter buffers
    rw [foldl_feed]
    subst read
    rw [Reader.records, Reader.next, if_neg Bool.false_ne_true]
    cases hfeed : splitter.feed buffers.flatten with
    | taken splitter' =>
      rw [hfeed] at hfed
      dsimp only at hfed ⊢
      rw [hfed, finish]
      cases splitter'.finish <;> rfl
    | refused splitter' e =>
      rw [hfeed] at hfed
      obtain ⟨rest, hnext⟩ := hfed
      rw [hnext]
      rfl
    | piece splitter' piece octets =>
      rw [hfeed] at hfed
      obtain ⟨rest, hnext, rfl⟩ := hfed
      -- a piece has octets, so the limit stays above those that are left
      have hshorter := nextPiece_length hnext
      rw [hnext]
      dsimp only
      rw [store]
      rcases hdecode : decode target.registry (position + 1) seen piece with ⟨e | record, seen'⟩
      · dsimp only [Except.map]
        rw [foldl_stopped]
        rfl
      · dsimp only [Except.map]
        rw [persistAll, stateM_bind_run, World.call_run]
        rcases persist target storage created record world.storage with ⟨e | persisted, s⟩
        · dsimp only
          rw [foldl_stopped]
          rfl
        · exact ih (position + 1) splitter' seen' _ _ rest (by omega)

end

end Intake

variable (target : Target)

theorem process_intake (storage : Storage ω) (body : List UInt8) (world : World ω) :
    process target storage body world = (Intake.after target storage world body).finish := by
  have hflatten : (buffers bufferCapacity body).flatten = body := flatten_buffers (by decide) body
  have hfinish := Intake.finish_foldl target storage (body.length + 1) 0 .start [] Created.empty
    world (buffers bufferCapacity body) (by rw [hflatten]; exact Nat.lt_succ_self _)
  rw [hflatten] at hfinish
  exact hfinish.symm

theorem process_failure {storage : Storage ω} {body : List UInt8} {world : World ω}
    {e : ImportError} (h : (process target storage body world).1.error = some e) :
    (Intake.after target storage world body).error? = some e ∨
      ∃ splitter position seen created world', ∃ f : FramingError,
        Intake.after target storage world body = .reading splitter position seen created world' ∧
        splitter.finish = .error f ∧ e = .decode (position + 1) f.message := by
  rw [process_intake] at h
  cases hafter : Intake.after target storage world body with
  | stopped created e' world' =>
    rw [hafter] at h
    exact .inl h
  | reading splitter position seen created world' =>
    rw [hafter, Intake.finish] at h
    cases hfinish : splitter.finish with
    | error f =>
      rw [hfinish] at h
      exact .inr ⟨_, _, _, _, _, f, rfl, hfinish, (Option.some.inj h).symm⟩
    | ok =>
      rw [hfinish] at h
      cases h

section Storing

def Call.stored? : Call → Option String
  | .insert record (.ok _) => some record.logicalId
  | _ => none

namespace Watched

/-- The identifiers of the records that were stored, in the order of the calls. -/
def stored (w : Watched ω) : List String :=
  w.calls.reverse.filterMap Call.stored?

theorem stored_eq (w : Watched ω) : w.stored = w.inserted.map (·.1) := by
  rw [stored, inserted, List.map_filterMap]
  congr 1
  funext call
  cases call with
  | insert record result => cases result <;> rfl
  | begin | recordExists | commit | rollback => rfl

end Watched

variable (storage : Storage ω) (plan : FaultPlan)

theorem persist_stored (created : Created) (record : Record) (w : Watched ω) :
    (persist target (storage.watched plan) created record w).2.stored = w.stored ++
      match (persist target (storage.watched plan) created record w).1 with
      | .ok _ => [record.logicalId]
      | .error _ => [] := by
  rw [Watched.stored_eq, Watched.stored_eq, persist_inserted, List.map_append]
  cases (persist target (storage.watched plan) created record w).1 <;> rfl

theorem persistAll_stored {records : List Record} {created kept : Created}
    {world world' : World (Watched ω)} (indexed : created.Indexed)
    (fresh : ∀ record ∈ records, created.get? record.logicalId = none)
    (distinct : (records.map Record.logicalId).Nodup)
    (h : persistAll target (storage.watched plan) none records created world
      = (⟨kept, none⟩, world')) :
    world'.storage.stored = world.storage.stored ++ records.map Record.logicalId ∧
      kept.toList.map (·.1) = created.toList.map (·.1) ++ records.map Record.logicalId := by
  obtain ⟨entries, processed, after, hrun, htally, -, hlist, hkeys⟩ :=
    persistAll_tally target storage plan none indexed fresh distinct world
  obtain ⟨rfl, rfl⟩ := Prod.mk.inj (h.symm.trans hrun)
  rw [← hkeys rfl]
  refine ⟨?_, ?_⟩
  · rw [Watched.stored_eq, Watched.stored_eq, htally.inserted, List.map_append, List.map_map]
    rfl
  · rw [hlist, List.map_append]

end Storing

/-- Processing looks at no octet after the one that it fails at. Two bodies that are the same up to
that octet, which was refused or ended a piece that is no record or cannot be stored, come to the
same: the same error, the same created records, and a storage that was called in the same way and is
in the same state. The created records are the ones in front of the failure, and these are the only
ones that were stored; they are created just so from a body of them alone, after which storing the
next record fails, if the failure is not one of reading. -/
theorem stops_without_lookahead (storage : Storage ω) (plan : FaultPlan)
    (world : World (Watched ω)) {body body' : List UInt8} {octets : Nat} {e : ImportError}
    (stopped : (Intake.after target (storage.watched plan) world (body.take octets)).error? = some e)
    (same : body'.take octets = body.take octets) :
    let watched := storage.watched plan
    let failed := process target watched body world
    process target watched body' world = failed ∧ failed.1.error = some e ∧
    ∃ front rest between,
      (recordsOf target.registry body).1 = front ++ rest ∧
      failed.1.created.toList.map (·.1) = front.map Record.logicalId ∧
      failed.2.storage.stored = world.storage.stored ++ front.map Record.logicalId ∧
      (∃ alone, recordsOf target.registry alone = (front, none)) ∧
      (∀ alone, recordsOf target.registry alone = (front, none) →
        process target watched alone world = (⟨failed.1.created, none⟩, between)) ∧
      (rest = [] ∧ (recordsOf target.registry body).2 = some e ∧ failed.2 = between ∨
        ∃ record more s, rest = record :: more ∧
          persist target watched failed.1.created record between.storage = (.error e, s) ∧
          failed.2 = { between with storage := s }) := by
  intro watched failed
  -- both bodies come to what the octets that they share have come to
  have hafter : ∀ stream : List UInt8, stream.take octets = body.take octets →
      process target watched stream world
        = (Intake.after target watched world (body.take octets)).finish := by
    intro stream hstream
    rw [process_intake, ← List.take_append_drop octets stream, hstream,
      Intake.after_append target watched stopped]
  have hfailed : failed = (Intake.after target watched world (body.take octets)).finish :=
    hafter body rfl
  have herror : failed.1.error = some e := hfailed ▸ Intake.error_finish stopped
  refine ⟨(hafter body' same).trans hfailed.symm, herror, ?_⟩
  have hprocess : persistAll target watched (recordsOf target.registry body).2
      (recordsOf target.registry body).1 Created.empty world
        = (⟨failed.1.created, some e⟩, failed.2) := by
    rw [← herror]
    rfl
  obtain ⟨front, rest, between, hrecords, hfront, hstop⟩ := persistAll_fails target hprocess
  have hdistinct := recordsOf_nodup target.registry body
  rw [hrecords, List.map_append] at hdistinct
  obtain ⟨hstored, hkept⟩ := persistAll_stored target storage plan Created.indexed_empty
    (fun _ _ => Created.get?_empty _) (List.nodup_append.1 hdistinct).1 hfront
  refine ⟨front, rest, between, hrecords, hkept, ?_, prefix_alone hrecords, ?_, hstop⟩
  · obtain ⟨-, -, hbetween⟩ | ⟨record, more, s, -, hpersist, hbetween⟩ := hstop
    · rw [hbetween, hstored]
    · have hnothing := persist_stored target storage plan failed.1.created record between.storage
      rw [hpersist, List.append_nil, hstored] at hnothing
      rw [hbetween]
      exact hnothing
  · intro alone halone
    rw [process, halone]
    exact hfront

/-- A second record that cannot be stored, and then an octet that would be refused. -/
theorem stops_without_lookahead_orphaned :
    let watched := (Connection.storage true).watched FaultPlan.empty
    let world : World (Watched Connection) := { storage := { inner := { database := shelf } } }
    let failed := process ⟨standard, 1⟩ watched orphaned world
    process ⟨standard, 1⟩ watched (orphaned ++ [0x5D]) world = failed ∧
      failed.1.error = some (.unresolved "b" "parent" "p") := by
  intro watched world failed
  have hstopped : (Intake.after ⟨standard, 1⟩ watched world
      (orphaned.take orphaned.length)).error? = some (.unresolved "b" "parent" "p") := by
    decide +kernel
  have hsame : (orphaned ++ [0x5D]).take orphaned.length = orphaned.take orphaned.length := by
    rw [List.take_left, List.take_length]
  obtain ⟨hprocess, -⟩ := stops_without_lookahead ⟨standard, 1⟩ (Connection.storage true)
    FaultPlan.empty world hstopped hsame
  exact ⟨hprocess, by decide +kernel⟩

end Accession.Batch
