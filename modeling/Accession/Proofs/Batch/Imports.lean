import Accession.Proofs.Batch.Session
set_option autoImplicit false

/-!
# Imports as a whole

An `Import` is everything that decides how a batch import ends, but for the database that it finds:
the plan makes calls of the storage fail, session by session. `attempts_end` takes a property that
storing one record keeps through all attempts, whatever the plan.
-/
namespace Accession.Batch

open Store (Connection Database)

section

variable {ω : Type} (target : Target) (storage : Storage ω) (body : List UInt8)

theorem attempt_run (world : World ω) :
    attempt target storage body world =
      match storage.begin world.storage with
      | (.error e, s) => (failed storage Created.empty e, { world with storage := s })
      | (.ok (), s) =>
        match process target storage body { world with storage := s } with
        | (⟨created, none⟩, world) =>
          match storage.commit world.storage with
          | (.ok (), s) => (.committed created, { world with storage := s })
          | (.error e, s) => (failed storage created e, { world with storage := s })
        | (⟨created, some e⟩, world) =>
          (failed storage created e, { world with storage := (storage.rollback world.storage).2 }) := by
  rw [attempt, stateM_bind_run, World.call_run]
  rcases storage.begin world.storage with ⟨_ | _, s⟩
  · rfl
  · dsimp only
    rw [stateM_bind_run]
    rcases process target storage body { world with storage := s } with ⟨⟨created, _ | e⟩, world⟩
    · dsimp only
      rw [stateM_bind_run, World.call_run]
      rcases storage.commit world.storage with ⟨_ | _, s⟩ <;> rfl
    · rfl

theorem persistAll_steps (ending : Option ImportError) (records : List Record) (created : Created)
    (world : World ω) :
    ∃ stored, (persistAll target storage ending records created world).2.steps
      = world.steps ++ List.replicate stored (.activity .processed) := by
  induction records generalizing created world with
  | nil => exact ⟨0, (List.append_nil _).symm⟩
  | cons record rest ih =>
    rw [persistAll, stateM_bind_run, World.call_run]
    rcases persist target storage created record world.storage with ⟨_ | persisted, s⟩
    · exact ⟨0, (List.append_nil _).symm⟩
    · obtain ⟨stored, hsteps⟩ := ih (created.insert record.logicalId persisted).1
        ⟨s, .activity .processed :: world.trail⟩
      have hnote : World.steps (⟨s, .activity .processed :: world.trail⟩ : World ω)
          = world.steps ++ [.activity .processed] := List.reverse_cons
      rw [hnote, List.append_assoc] at hsteps
      exact ⟨stored + 1, hsteps⟩

theorem attempt_steps (world : World ω) :
    ∃ stored, (attempt target storage body world).2.steps
      = world.steps ++ List.replicate stored (.activity .processed) := by
  rw [attempt_run]
  rcases storage.begin world.storage with ⟨_ | _, s⟩
  · exact ⟨0, (List.append_nil _).symm⟩
  · obtain ⟨stored, hprocess⟩ := persistAll_steps target storage (recordsOf target.registry body).2
      (recordsOf target.registry body).1 Created.empty ⟨s, world.trail⟩
    refine ⟨stored, ?_⟩
    change (process target storage body { world with storage := s }).2.steps = _ at hprocess
    dsimp only
    rcases hw : process target storage body { world with storage := s }
      with ⟨⟨created, _ | e⟩, w⟩ <;> rw [hw] at hprocess
    · dsimp only
      rcases storage.commit w.storage with ⟨_ | _, s'⟩ <;> exact hprocess
    · exact hprocess

theorem attempts_run (policy : RetryPolicy) (more number : Nat) (world : World ω) :
    attempts target storage policy body more number world =
      match attempt target storage body
          { world with trail := .activity (.beginAttempt (UInt32.ofNat number)) :: world.trail } with
      | (.committed created, world) => (.success created, world)
      | (.fatal error kept, world) => (.failure kept error, world)
      | (.retry error, world) =>
        match more with
        | 0 => (.failure Created.empty error, world)
        | more + 1 =>
          attempts target storage policy body more (number + 1)
            { world with
              trail := .sleep (policy.backoff number) :: .activity (.enter .retrying)
                :: world.trail } := by
  rw [attempts, stateM_bind_run, World.note_run]
  dsimp only
  rw [stateM_bind_run]
  rcases attempt target storage body
    { world with trail := .activity (.beginAttempt (UInt32.ofNat number)) :: world.trail }
    with ⟨_ | _ | _, world⟩
  · rfl
  · cases more <;> rfl
  · rfl

end

/-- How an attempt may end: in a transaction a failure takes everything back, otherwise what was
created is kept. -/
def Ends (transactional : Bool) (P : Created → Database → Prop) (before after : Database) :
    AttemptResult → Prop
  | .committed created => P created after
  | .retry _ => transactional = true ∧ after = before
  | .fatal _ kept => P kept after ∧ (transactional = true → kept = Created.empty ∧ after = before)

section

variable {target : Target} {transactional : Bool} {plan : FaultPlan} {body : List UInt8}
  {P : Created → Database → Prop} {before after : Database}

theorem ends_failed {created : Created} (e : ImportError) (holds : P Created.empty before)
    (restored : transactional = true → after = before)
    (kept : transactional = false → P created after) :
    Ends transactional P before after
      (failed ((Connection.storage transactional).watched plan) created e) := by
  cases transactional with
  | false => exact ⟨kept rfl, fun h => by cases h⟩
  | true =>
    obtain rfl := restored rfl
    change Ends true P after after (if e.isRetryable then .retry e else .fatal e Created.empty)
    split
    · exact ⟨rfl, rfl⟩
    · exact ⟨holds, fun _ => ⟨rfl, rfl⟩⟩

/-- How an attempt goes on a connection: it cannot begin, or what it stored keeps `P` and is then
committed or taken back. -/
inductive Attempted (transactional : Bool) (plan : FaultPlan) (P : Created → Database → Prop)
    (before : Connection) : AttemptResult → Connection → Prop where
  | barred (e : ImportError) : Attempted transactional plan P before
      (failed ((Connection.storage transactional).watched plan) Created.empty e) before
  | kept {created : Created} {c : Connection}
      (opened : c.saved = ((Connection.storage transactional).begin before).2.saved)
      (holds : P created c.database) : Attempted transactional plan P before
      (.committed created) ((Connection.storage transactional).commit c).2
  | undone {created : Created} {c : Connection} (e : ImportError)
      (opened : c.saved = ((Connection.storage transactional).begin before).2.saved)
      (holds : P created c.database) : Attempted transactional plan P before
      (failed ((Connection.storage transactional).watched plan) created e)
      ((Connection.storage transactional).rollback c).2

namespace Attempted

variable {start finish : Connection} {r : AttemptResult}
  (attempted : Attempted transactional plan P start r finish)

include attempted

theorem ends (holds : P Created.empty start.database) :
    Ends transactional P start.database finish.database r := by
  cases attempted with
  | barred e => exact ends_failed e holds (fun _ => rfl) (fun _ => holds)
  | @kept _ c opened holds =>
    have hdb : ((Connection.storage transactional).commit c).2.database = c.database := by
      rw [Connection.storage_commit]; cases transactional <;> rfl
    rw [hdb]
    exact holds
  | undone e opened kept =>
    refine ends_failed e holds ?_ ?_ <;> rintro rfl
    · rw [Connection.storage_rollback, opened, Connection.storage_begin]
      rfl
    · exact kept

theorem closed (closed : start.saved = none) : finish.saved = none := by
  cases attempted with
  | barred => exact closed
  | kept opened =>
    rw [Connection.storage_commit]
    cases transactional with
    | false => exact opened.trans closed
    | true => rfl
  | undone e opened =>
    rw [Connection.storage_rollback]
    cases transactional with
    | false => exact opened.trans closed
    | true => rfl

end Attempted

variable (target transactional plan body)
  (step : ∀ record ∈ (recordsOf target.registry body).1, ∀ created c persisted db,
    created.get? record.logicalId = none → created.Indexed → P created c.database →
    Stores target created c record persisted db →
    P (created.insert record.logicalId persisted).1 db)

include step

theorem attempt_goes (world : World (Watched Connection))
    (holds : P Created.empty world.storage.inner.database) :
    ∃ r world',
      attempt target ((Connection.storage transactional).watched plan) body world = (r, world') ∧
      Attempted transactional plan P world.storage.inner r world'.storage.inner := by
  rw [attempt_run]
  obtain ⟨r, s, hbegin, -, hin | ⟨e, -, rfl, hin⟩⟩ :=
    watched_begin (Connection.storage transactional) plan world.storage
  · have hopen : s.inner = ((Connection.storage transactional).begin world.storage.inner).2 :=
      congrArg Prod.snd hin
    rw [Connection.storage_begin, Prod.mk.injEq] at hin
    obtain ⟨rfl, hin⟩ := hin
    have hdb : s.inner.database = world.storage.inner.database := by
      rw [hin]; cases transactional <;> rfl
    obtain ⟨⟨created, error⟩, w₁, hprocess, -, hsaved, hP⟩ := process_keeps target transactional
      plan body step { world with storage := s } (hdb ▸ holds)
    -- processing leaves the transaction as `begin` opened it
    have hopened := hsaved.trans (congrArg Connection.saved hopen)
    rw [hbegin]
    dsimp only
    rw [hprocess]
    cases error with
    | none =>
      obtain ⟨r, s', hcommit, -, hin' | ⟨e, -, rfl, hin'⟩⟩ :=
        watched_commit (Connection.storage transactional) plan w₁.storage
      · have hdone : s'.inner = ((Connection.storage transactional).commit w₁.storage.inner).2 :=
          congrArg Prod.snd hin'
        rw [Connection.storage_commit, Prod.mk.injEq] at hin'
        obtain ⟨rfl, -⟩ := hin'
        dsimp only
        rw [hcommit]
        exact ⟨_, _, rfl, hdone ▸ .kept hopened hP⟩
      · dsimp only
        rw [hcommit]
        exact ⟨_, _, rfl, hin' ▸ .undone e hopened hP⟩
    | some e =>
      obtain ⟨r, s', hrollback, -, hin'⟩ :=
        watched_rollback (Connection.storage transactional) plan w₁.storage
      dsimp only
      rw [hrollback]
      exact ⟨_, _, rfl, hin' ▸ .undone e hopened hP⟩
  · rw [hbegin]
    exact ⟨_, _, rfl, hin ▸ .barred e⟩

/-- Whatever the plan, what an import reports as saved and the database that it leaves satisfy `P`,
and a transactional import that failed leaves everything as it was. No transaction stays open. -/
theorem attempts_end (policy : RetryPolicy) (more number : Nat)
    (world : World (Watched Connection)) (holds : P Created.empty world.storage.inner.database) :
    ∃ outcome world',
      attempts target ((Connection.storage transactional).watched plan) policy body more number world
        = (outcome, world') ∧
      P outcome.saved world'.storage.inner.database ∧
      (transactional = true → outcome.errors.isSome = true → outcome.saved = Created.empty ∧
        world'.storage.inner.database = world.storage.inner.database) ∧
      (world.storage.inner.saved = none → world'.storage.inner.saved = none) := by
  induction more generalizing number world with
  | zero =>
    rw [attempts_run]
    obtain ⟨r, w₁, hr, hgoes⟩ := attempt_goes target transactional plan body step { world with
        trail := .activity (.beginAttempt (UInt32.ofNat number)) :: world.trail } holds
    have hends := hgoes.ends holds
    rw [hr]
    cases r with
    | committed created => exact ⟨_, _, rfl, hends, nofun, hgoes.closed⟩
    | retry e => exact ⟨_, _, rfl, hends.2 ▸ holds, fun _ _ => ⟨rfl, hends.2⟩, hgoes.closed⟩
    | fatal e kept => exact ⟨_, _, rfl, hends.1, fun h _ => hends.2 h, hgoes.closed⟩
  | succ more ih =>
    rw [attempts_run]
    obtain ⟨r, w₁, hr, hgoes⟩ := attempt_goes target transactional plan body step { world with
        trail := .activity (.beginAttempt (UInt32.ofNat number)) :: world.trail } holds
    have hends := hgoes.ends holds
    rw [hr]
    cases r with
    | committed created => exact ⟨_, _, rfl, hends, nofun, hgoes.closed⟩
    | fatal e kept => exact ⟨_, _, rfl, hends.1, fun h _ => hends.2 h, hgoes.closed⟩
    | retry e =>
      -- nothing was left behind, so the next attempt starts from the same database
      have hdb : w₁.storage.inner.database = world.storage.inner.database := hends.2
      obtain ⟨outcome, world', hrun, hP, hfail, hclosed⟩ := ih (number + 1)
        { w₁ with trail := .sleep (policy.backoff number) :: .activity (.enter .retrying)
            :: w₁.trail } (hdb ▸ holds)
      exact ⟨outcome, world', hrun, hP, fun ht he => ⟨(hfail ht he).1, (hfail ht he).2.trans hdb⟩,
        fun closed => hclosed (hgoes.closed closed)⟩

end

structure Import where
  repository : Int
  transactional : Bool := true
  policy : RetryPolicy := {}
  faults : FaultPlan := FaultPlan.empty
  body : List UInt8

namespace Import

variable (i : Import) (registry : Registry) (db : Database)

def target : Target := ⟨registry, i.repository⟩

def storage : Storage (Watched Connection) :=
  (Connection.storage i.transactional).watched i.faults

def world : Outcome × World (Watched Connection) :=
  run (i.target registry) i.storage i.policy i.body { storage := { inner := { database := db } } }

def outcome : Outcome := (i.world registry db).1

/-- What the import leaves of the database when its connection is dropped. -/
def database : Database := (i.world registry db).2.storage.inner.left

/-- No transaction stays open, so that is all that its connection shows. -/
theorem database_eq :
    i.database registry db = (i.world registry db).2.storage.inner.database := by
  obtain ⟨result, world', hrun, -, -, hclosed⟩ := attempts_end (i.target registry)
    i.transactional i.faults i.body (P := fun _ _ => True)
    (fun _ _ _ _ _ _ _ _ _ _ => trivial) i.policy (i.policy.attempts - 1) 1
    { storage := { inner := { database := db } } } trivial
  have hworld : i.world registry db = (result, world') := hrun
  rw [database, hworld, Connection.left, hclosed rfl]
  rfl

variable {P : Created → Database → Prop}

theorem keeps_records (holds : P Created.empty db)
    (step : ∀ record ∈ (recordsOf registry i.body).1, ∀ created c persisted db,
      created.get? record.logicalId = none → created.Indexed → P created c.database →
      Stores (i.target registry) created c record persisted db →
      P (created.insert record.logicalId persisted).1 db) :
    P (i.outcome registry db).saved (i.database registry db) ∧
      (i.transactional = true → (i.outcome registry db).errors.isSome = true →
        (i.outcome registry db).saved = Created.empty ∧ i.database registry db = db) := by
  obtain ⟨result, world', hrun, hP, hfail, -⟩ := attempts_end (i.target registry)
    i.transactional i.faults i.body step i.policy
    (i.policy.attempts - 1) 1 { storage := { inner := { database := db } } } holds
  have hworld : i.world registry db = (result, world') := hrun
  rw [database_eq, outcome, hworld]
  exact ⟨hP, hfail⟩

theorem keeps (holds : P Created.empty db)
    (step : ∀ record, Admitted registry record → ∀ created c persisted db,
      created.get? record.logicalId = none → created.Indexed → P created c.database →
      Stores (i.target registry) created c record persisted db →
      P (created.insert record.logicalId persisted).1 db) :
    P (i.outcome registry db).saved (i.database registry db) ∧
      (i.transactional = true → (i.outcome registry db).errors.isSome = true →
        (i.outcome registry db).saved = Created.empty ∧ i.database registry db = db) :=
  i.keeps_records registry db holds (fun record hrecord => step record (recordsOf_admitted hrecord))

end Import

end Accession.Batch
