import Accession.Proofs.Batch.Repetition
import Mathlib.Order.Bounds.Basic
set_option autoImplicit false

namespace Accession.Batch

open Registry (standard)

variable {ω : Type}

def AttemptResult.asksAgain : AttemptResult → Bool
  | .retry _ => true
  | .committed _ | .fatal _ _ => false

def World.begun (world : World ω) (number : Nat) : World ω :=
  { world with trail := .activity (.beginAttempt (UInt32.ofNat number)) :: world.trail }

def World.paused (world : World ω) (duration : Nat) : World ω :=
  { world with trail := .sleep duration :: .activity (.enter .retrying) :: world.trail }

theorem World.steps_begun (world : World ω) (number : Nat) :
    (world.begun number).steps
      = world.steps ++ [.activity (.beginAttempt (UInt32.ofNat number))] :=
  List.reverse_cons

theorem World.steps_paused (world : World ω) (duration : Nat) :
    (world.paused duration).steps
      = world.steps ++ [.activity (.enter .retrying), .sleep duration] := by
  simp [World.paused, World.steps]

section

variable (target : Target) (storage : Storage ω) (policy : RetryPolicy) (body : List UInt8)
  (world : World ω)

/-- The world in which an attempt is about to begin when so many have failed before it. -/
def pausedAfter : Nat → World ω
  | 0 => world
  | failed + 1 =>
    (attempt target storage body ((pausedAfter failed).begun (failed + 1))).2.paused
      (policy.backoff (failed + 1))

/-- What the attempt with a number, counted from 1, comes to when all before it asked for another. -/
def trial (number : Nat) : AttemptResult × World ω :=
  attempt target storage body
    ((pausedAfter target storage policy body world (number - 1)).begun number)

theorem attempts_trial (more failed : Nat) :
    attempts target storage policy body more (failed + 1)
        (pausedAfter target storage policy body world failed)
      = if more = 0 ∨ (trial target storage policy body world (failed + 1)).1.asksAgain = false then
          ((trial target storage policy body world (failed + 1)).1.outcome,
            (trial target storage policy body world (failed + 1)).2)
        else attempts target storage policy body (more - 1) (failed + 2)
          (pausedAfter target storage policy body world (failed + 1)) := by
  have hattempt : attempt target storage body
      { pausedAfter target storage policy body world failed with
        trail := .activity (.beginAttempt (UInt32.ofNat (failed + 1)))
          :: (pausedAfter target storage policy body world failed).trail }
      = trial target storage policy body world (failed + 1) := rfl
  have hpaused : pausedAfter target storage policy body world (failed + 1)
      = (trial target storage policy body world (failed + 1)).2.paused
          (policy.backoff (failed + 1)) := rfl
  rw [attempts_run, hattempt, hpaused]
  rcases trial target storage policy body world (failed + 1) with ⟨_ | _ | _, w⟩
  · exact (if_pos (.inr rfl)).symm
  · cases more with
    | zero => exact (if_pos (.inl rfl)).symm
    | succ more => exact (if_neg (by simp [AttemptResult.asksAgain])).symm
  · exact (if_pos (.inr rfl)).symm

/-- Attempts go on to the first that does not ask for another, or to the last that is allowed. -/
theorem attempts_last (more failed : Nat) :
    ∃ last,
      IsLeast {n | failed + 1 ≤ n ∧ (n = failed + 1 + more ∨
        (trial target storage policy body world n).1.asksAgain = false)} last ∧
      attempts target storage policy body more (failed + 1)
          (pausedAfter target storage policy body world failed)
        = ((trial target storage policy body world last).1.outcome,
          (trial target storage policy body world last).2) := by
  induction more generalizing failed with
  | zero =>
    rw [attempts_trial, if_pos (.inl rfl)]
    exact ⟨failed + 1, ⟨⟨Nat.le_refl _, .inl rfl⟩, fun n hn => hn.1⟩, rfl⟩
  | succ more ih =>
    rw [attempts_trial]
    by_cases hlast : (trial target storage policy body world (failed + 1)).1.asksAgain = false
    · rw [if_pos (.inr hlast)]
      exact ⟨failed + 1, ⟨⟨Nat.le_refl _, .inr hlast⟩, fun n hn => hn.1⟩, rfl⟩
    · rw [if_neg (by simpa using hlast), Nat.add_sub_cancel]
      obtain ⟨last, ⟨⟨hmore, hends⟩, hleast⟩, hrun⟩ := ih (failed + 1)
      have hlimit : failed + 1 + (more + 1) = failed + 1 + 1 + more := by omega
      rw [hlimit]
      refine ⟨last, ⟨⟨Nat.le_of_succ_le hmore, hends⟩, ?_⟩, hrun⟩
      rintro n ⟨hfirst, hn⟩
      -- the first of these attempts asked for another, so it is none of those that end the run
      have hlater : n ≠ failed + 1 := by
        rintro rfl
        exact hn.elim (by omega) hlast
      exact hleast ⟨Nat.lt_of_le_of_ne hfirst (Ne.symm hlater), hn⟩

end

section Steps

def Step.number? : Step → Option Nat
  | .activity (.beginAttempt number) => some number.toNat
  | _ => none

/-- What every attempt announces, and the pause after each but the last. -/
def schedule (policy : RetryPolicy) (last : Nat) : List Step :=
  (List.range' 1 (last - 1)).flatMap (fun n =>
      [.activity (.beginAttempt (UInt32.ofNat n)), .activity (.enter .retrying),
        .sleep (policy.backoff n)])
    ++ [.activity (.beginAttempt (UInt32.ofNat last))]

theorem schedule_succ (policy : RetryPolicy) (failed : Nat) :
    schedule policy (failed + 2) = schedule policy (failed + 1)
      ++ [.activity (.enter .retrying), .sleep (policy.backoff (failed + 1)),
        .activity (.beginAttempt (UInt32.ofNat (failed + 2)))] := by
  rw [schedule, schedule, show failed + 2 - 1 = failed + 1 from rfl, List.range'_1_concat,
    Nat.add_comm 1 failed]
  simp

theorem schedule_numbers (policy : RetryPolicy) (failed : Nat) (word : failed + 1 < UInt32.size) :
    (schedule policy (failed + 1)).filterMap Step.number? = List.range' 1 (failed + 1) := by
  induction failed with
  | zero => rfl
  | succ failed ih =>
    have hnumber : (UInt32.ofNat (failed + 2)).toNat = failed + 2 := UInt32.toNat_ofNat_of_lt' word
    rw [schedule_succ, List.filterMap_append, ih (Nat.lt_of_succ_lt word),
      List.range'_1_concat (n := failed + 1), Nat.add_comm 1]
    change _ ++ [(UInt32.ofNat (failed + 2)).toNat] = _
    rw [hnumber]

variable (target : Target) (storage : Storage ω) (policy : RetryPolicy) (body : List UInt8)
  (world : World ω)

theorem trial_steps (failed : Nat) :
    ∃ steps, (trial target storage policy body world (failed + 1)).2.steps = world.steps ++ steps ∧
      steps.filter (· ≠ .activity .processed) = schedule policy (failed + 1) := by
  induction failed with
  | zero =>
    obtain ⟨stored, hsteps⟩ := attempt_steps target storage body (world.begun 1)
    rw [World.steps_begun, List.append_assoc] at hsteps
    refine ⟨_, hsteps, ?_⟩
    rw [List.filter_append, List.filter_replicate]
    rfl
  | succ failed ih =>
    obtain ⟨steps, hsteps, hschedule⟩ := ih
    obtain ⟨stored, hattempt⟩ := attempt_steps target storage body
      (((trial target storage policy body world (failed + 1)).2.paused
        (policy.backoff (failed + 1))).begun (failed + 2))
    rw [World.steps_begun, World.steps_paused, hsteps] at hattempt
    simp only [List.append_assoc] at hattempt
    refine ⟨_, hattempt, ?_⟩
    rw [List.filter_append, hschedule, schedule_succ]
    simp

end Steps

section Results

variable {target : Target} {storage : Storage ω} {body : List UInt8} {world : World ω}

theorem failed_retry {created : Created} {e e' : ImportError}
    (h : failed storage created e = .retry e') :
    storage.transactional = true ∧ e'.isRetryable = true := by
  rw [failed] at h
  split at h
  · rename_i htransactional
    split at h
    · rename_i hretryable
      cases h
      exact ⟨htransactional, hretryable⟩
    · cases h
  · cases h

theorem attempt_retry {e : ImportError} (h : (attempt target storage body world).1 = .retry e) :
    storage.transactional = true ∧ e.isRetryable = true := by
  revert h
  rw [attempt_run]
  rcases storage.begin world.storage with ⟨_ | _, s⟩
  · exact failed_retry
  · dsimp only
    rcases process target storage body { world with storage := s } with ⟨⟨created, _ | e'⟩, w⟩
    · dsimp only
      rcases storage.commit w.storage with ⟨_ | _, s'⟩
      · exact failed_retry
      · exact nofun
    · exact failed_retry

end Results

/-- A run over any storage makes its attempts up to the first that does not ask for another, but at
least one and no more than the policy allows. It reports what the last of them came to, and that one
alone. The attempts announce themselves by their numbers from 1 on, all of which fit the word that
they are counted in. Between two of them the run is said to be retrying and sleeps as the policy has
it, and there is no other step but that records are stored. An attempt asks for another only after a
passing failure in a transaction, so without transactions there is one attempt. -/
theorem run_last_attempt (target : Target) (storage : Storage ω) (policy : RetryPolicy)
    (body : List UInt8) (world : World ω) (word : policy.maxAttempts < UInt32.size) :
    let trial := trial target storage policy body world
    ∃ last steps,
      IsLeast {n | 1 ≤ n ∧ (n = max 1 policy.maxAttempts ∨ (trial n).1.asksAgain = false)} last ∧
      run target storage policy body world = ((trial last).1.outcome, (trial last).2) ∧
      (trial last).2.steps = world.steps ++ steps ∧
      steps.filter (· ≠ .activity .processed) = schedule policy last ∧
      steps.filterMap Step.number? = List.range' 1 last ∧
      (∀ n e, (trial n).1 = .retry e → storage.transactional = true ∧ e.isRetryable = true) ∧
      (storage.transactional = false → last = 1) := by
  intro trial
  obtain ⟨last, hleast, hrun⟩ :=
    attempts_last target storage policy body world (policy.attempts - 1) 0
  have hlimit : 0 + 1 + (policy.attempts - 1) = max 1 policy.maxAttempts := by
    have : 1 ≤ max 1 policy.maxAttempts := Nat.le_max_left 1 _
    rw [RetryPolicy.attempts]
    omega
  rw [hlimit] at hleast
  obtain ⟨failed, rfl⟩ : ∃ failed, last = failed + 1 := ⟨last - 1, by have := hleast.1.1; omega⟩
  obtain ⟨steps, hsteps, hschedule⟩ := trial_steps target storage policy body world failed
  have hretry : ∀ n e, (trial n).1 = .retry e →
      storage.transactional = true ∧ e.isRetryable = true := fun n e h => attempt_retry h
  refine ⟨failed + 1, steps, hleast, hrun, hsteps, hschedule, ?_, hretry, ?_⟩
  · have hbound : failed + 1 ≤ max 1 policy.maxAttempts :=
      hleast.2 ⟨Nat.le_max_left 1 _, .inl rfl⟩
    have hword : failed + 1 < UInt32.size :=
      Nat.lt_of_le_of_lt hbound (Nat.max_lt.2 ⟨by decide, word⟩)
    -- storing a record announces no attempt
    have hsilent : ∀ s : Step, (if s ≠ .activity .processed then s.number? else none) = s.number? := by
      intro s
      split
      · rfl
      · rename_i hprocessed
        rw [Decidable.of_not_not hprocessed]
        rfl
    rw [← schedule_numbers policy failed hword, ← hschedule, List.filterMap_filter]
    simp only [decide_eq_true_eq, hsilent]
  · intro hdirect
    have hfirst : (trial 1).1.asksAgain = false := by
      cases hresult : (trial 1).1 with
      | retry e =>
        have htransactional := (hretry 1 e hresult).1
        rw [hdirect] at htransactional
        cases htransactional
      | committed created => rfl
      | fatal e kept => rfl
    have hone : failed + 1 ≤ 1 := hleast.2 ⟨Nat.le_refl 1, .inr hfirst⟩
    omega

theorem run_last_attempt_struck :
    let i := struckIn 1
    let world : World (Watched Store.Connection) := { storage := { inner := { database := shelf } } }
    let result := run (i.target standard) i.storage i.policy i.body world
    i.policy.maxAttempts < UInt32.size ∧
    (trial (i.target standard) i.storage i.policy i.body world 1).1.asksAgain = true ∧
    result.2.steps.filter (· ≠ .activity .processed)
      = [.activity (.beginAttempt 1), .activity (.enter .retrying), .sleep 10,
        .activity (.beginAttempt 2)] ∧
    result.1.saved.toList = [("a", ⟨"/repositories/1/archival_objects/1", 1⟩)] := by
  intro i world result
  have word : i.policy.maxAttempts < UInt32.size := by decide
  have hagain : (trial (i.target standard) i.storage i.policy i.body world 1).1.asksAgain = true := by
    decide +kernel
  obtain ⟨last, steps, hleast, hrun, hsteps, hschedule, -⟩ :=
    run_last_attempt (i.target standard) i.storage i.policy i.body world word
  obtain rfl : last = 2 := by
    refine hleast.unique ⟨⟨by decide, .inl rfl⟩, ?_⟩
    rintro n ⟨hfirst, hn⟩
    have hlater : n ≠ 1 := by
      rintro rfl
      rw [hagain] at hn
      exact hn.elim (by decide) (by decide)
    omega
  have hresult : result.2.steps = steps := by
    rw [show result = _ from hrun, hsteps]
    rfl
  refine ⟨word, hagain, ?_, by decide +kernel⟩
  rw [hresult, hschedule]
  rfl

end Accession.Batch
