import Accession.Batch.Job
import Accession.Proofs.Batch.Imports
import Accession.Proofs.Batch.Spooling
set_option autoImplicit false

namespace Accession.Batch

/-- A step that touches neither the folder nor the last error. -/
def Step.Quiet : Step → Prop
  | .sleep _ | .activity _ => True
  | .file _ | .reportError _ => False

theorem Workplace.after_quiet {steps : List Step} (quiet : ∀ s ∈ steps, s.Quiet)
    (place : Workplace) : (place.after steps).folder = place.folder ∧
      (place.after steps).lastError = place.lastError := by
  induction steps generalizing place with
  | nil => exact ⟨rfl, rfl⟩
  | cons s rest ih =>
    have hs := quiet s List.mem_cons_self
    obtain ⟨hfolder, hlast⟩ := ih (fun s hs => quiet s (List.mem_cons_of_mem _ hs)) (place.take s)
    rw [Workplace.after_cons]
    cases s with
    | sleep _ => exact ⟨hfolder, hlast⟩
    | activity _ => exact ⟨hfolder, hlast⟩
    | file _ => exact hs.elim
    | reportError _ => exact hs.elim

section Attempts

variable {ω : Type}

def World.Adds (before after : World ω) : Prop :=
  ∃ steps, after.steps = before.steps ++ steps ∧ ∀ s ∈ steps, s.Quiet

namespace World.Adds

variable {a b c : World ω}

theorem of_step {s : Step} (h : b.trail = s :: a.trail) (quiet : s.Quiet) : a.Adds b :=
  ⟨[s], by rw [World.steps, h, List.reverse_cons, World.steps], by simpa using quiet⟩

theorem trans (h : a.Adds b) (h' : b.Adds c) : a.Adds c := by
  obtain ⟨s, hs, hquiet⟩ := h
  obtain ⟨s', hs', hquiet'⟩ := h'
  refine ⟨s ++ s', by rw [hs', hs, List.append_assoc], ?_⟩
  intro step hstep
  exact (List.mem_append.1 hstep).elim (hquiet step) (hquiet' step)

end World.Adds

variable (target : Target) (storage : Storage ω)

theorem attempt_adds (body : List UInt8) (world : World ω) :
    world.Adds (attempt target storage body world).2 := by
  obtain ⟨stored, hsteps⟩ := attempt_steps target storage body world
  refine ⟨_, hsteps, ?_⟩
  intro s hs
  obtain rfl := List.eq_of_mem_replicate hs
  trivial

theorem attempts_adds (policy : RetryPolicy) (body : List UInt8) (more number : Nat)
    (world : World ω) :
    world.Adds (attempts target storage policy body more number world).2 := by
  induction more generalizing number world with
  | zero =>
    have hbegin : world.Adds
        { world with trail := .activity (.beginAttempt (UInt32.ofNat number)) :: world.trail } :=
      .of_step rfl trivial
    have hattempt := hbegin.trans (attempt_adds target storage body _)
    rw [attempts_run]
    rcases hr : attempt target storage body _ with ⟨_ | _ | _, w⟩ <;> rw [hr] at hattempt <;>
      exact hattempt
  | succ more ih =>
    have hbegin : world.Adds
        { world with trail := .activity (.beginAttempt (UInt32.ofNat number)) :: world.trail } :=
      .of_step rfl trivial
    have hattempt := hbegin.trans (attempt_adds target storage body _)
    rw [attempts_run]
    rcases hr : attempt target storage body _ with ⟨_ | _ | _, w⟩ <;> rw [hr] at hattempt
    · exact hattempt
    · have hretry : w.Adds ⟨w.storage, .activity (.enter .retrying) :: w.trail⟩ :=
        .of_step rfl trivial
      have hsleep : World.Adds ⟨w.storage, .activity (.enter .retrying) :: w.trail⟩
          { w with trail := .sleep (policy.backoff number) :: .activity (.enter .retrying)
              :: w.trail } := .of_step rfl trivial
      exact ((hattempt.trans hretry).trans hsleep).trans (ih _ _)
    · exact hattempt

theorem run_adds (policy : RetryPolicy) (body : List UInt8) (state : ω) :
    ∀ s ∈ (run target storage policy body ⟨state, []⟩).2.steps, s.Quiet := by
  obtain ⟨steps, hsteps, hquiet⟩ :=
    attempts_adds target storage policy body (policy.attempts - 1) 1 ⟨state, []⟩
  rw [run, hsteps]
  exact hquiet

end Attempts

section Working

variable {ω : Type}

def Outcome.firstError? (outcome : Outcome) : Option String :=
  outcome.errors.bind List.head?

namespace Job

variable (job : Job) (storage : Storage ω)

/-- What becomes of a job: a body that fails is a failure of its own and reaches no storage; over a
body that arrives there are attempts. -/
def result (body : List Chunk) (state : ω) : Outcome × ω :=
  match received body with
  | .error message => (.failure Created.empty (.spool message), state)
  | .ok octets =>
    let (outcome, world) := run job.target storage job.policy octets ⟨state, []⟩
    (outcome, world.storage)

def lastError (place : Workplace) (outcome : Outcome) : Option String :=
  if job.reports then outcome.firstError?.or place.lastError else place.lastError

theorem after_report (place : Workplace) (outcome : Outcome) :
    (place.after (job.report outcome)).folder = place.folder ∧
      (place.after (job.report outcome)).lastError = job.lastError place outcome := by
  rw [report, lastError, Outcome.firstError?]
  rcases outcome.errors with _ | (_ | ⟨message, rest⟩) <;> cases job.reports <;> exact ⟨rfl, rfl⟩

/-- The worker hands over the outcome; by then the folder is as it was, and a failure is known. -/
theorem work_run (place : Workplace) (body : List Chunk) (state : ω) :
    ∃ steps, job.work storage place body state
        = (⟨steps, some (job.result storage body state).1⟩, (job.result storage body state).2) ∧
      (place.after steps).folder = place.folder ∧
      (place.after steps).lastError = job.lastError place (job.result storage body state).1 := by
  have hspool := Spool.ofChunks_run place body
  rw [work, result]
  cases hreceived : received body with
  | error message =>
    rw [hreceived] at hspool
    obtain ⟨steps, hsteps, hfolder, hlast⟩ := hspool
    obtain ⟨hfolder', hlast'⟩ := job.after_report (place.after steps)
      (.failure Created.empty (.spool message))
    rw [hsteps]
    refine ⟨_, rfl, ?_⟩
    rw [Workplace.after_append, hfolder', hlast', lastError, lastError, hlast]
    exact ⟨hfolder, rfl⟩
  | ok octets =>
    rw [hreceived] at hspool
    obtain ⟨steps, spool, hsteps, -, fresh, hholds⟩ := hspool
    have hoctets : spool.contents (place.after steps).folder = octets := hholds.contents
    have hquiet := run_adds job.target storage job.policy octets state
    rw [hsteps]
    dsimp only
    rw [hoctets]
    rcases hrun : run job.target storage job.policy octets ⟨state, []⟩ with ⟨outcome, world⟩
    rw [hrun] at hquiet
    refine ⟨_, rfl, ?_⟩
    obtain ⟨hfolder, hlast⟩ := Workplace.after_quiet hquiet (place.after steps)
    obtain ⟨⟨pieces, hpieces, hflatten⟩, hlasts⟩ := hholds
    -- the attempts, then the last activity, then the removal of the copy
    have hclosed : Holds place spool.file octets (((place.after steps).after world.steps).take
        (.activity (.enter .finishing))) :=
      ⟨⟨pieces, hfolder.trans hpieces, hflatten⟩, hlast.trans hlasts⟩
    obtain ⟨hremoved, hkept⟩ := hclosed.removed fresh
    obtain ⟨hfolder', hlast'⟩ := job.after_report ((((place.after steps).after world.steps).take
      (.activity (.enter .finishing))).take spool.close) outcome
    rw [List.append_assoc, Workplace.after_append, Workplace.after_append, List.cons_append,
      List.cons_append, List.nil_append, Workplace.after_cons, Workplace.after_cons, hfolder',
      hlast', lastError, lastError]
    refine ⟨hremoved, ?_⟩
    rw [show ((((place.after steps).after world.steps).take (.activity (.enter .finishing))).take
      spool.close).lastError = place.lastError from hkept]

end Job

end Working

section Watching

namespace Worker

variable (worker : Worker)

def pause : (pauses : Nat → Nat) → List Step → List Step
  | pauses, [] => [.sleep (pauses 0)]
  | pauses, s :: rest => .sleep (pauses 0) :: s :: pause (fun n => pauses (n + 1)) rest

/-- The worker that takes its time before every step and before it hands over the outcome. -/
def paused (pauses : Nat → Nat) : Worker :=
  { worker with steps := pause pauses worker.steps }

theorem after_pause (pauses : Nat → Nat) (steps : List Step) (place : Workplace) :
    place.after (pause pauses steps) = place.after steps := by
  induction steps generalizing pauses place with
  | nil => rfl
  | cons s rest ih => exact ih _ (place.take s)

theorem stepsBefore_all {now start : Nat} {steps : List Step}
    (h : start + steps.foldr (fun step rest => step.duration + rest) 0 < now) :
    stepsBefore now start steps = steps := by
  induction steps generalizing start with
  | nil => rfl
  | cons s rest ih =>
    rw [List.foldr_cons] at h
    cases s with
    | sleep duration =>
      rw [Step.duration, ← Nat.add_assoc] at h
      rw [stepsBefore, if_pos (by omega), ih h]
    | activity _ | file _ | reportError _ =>
      rw [Step.duration, Nat.zero_add] at h
      · rw [stepsBefore, ih h]
        nofun
      · nofun

theorem placeAt_after {now : Nat} (h : worker.duration < now) (place : Workplace) :
    worker.placeAt place now = place.after worker.steps := by
  rw [placeAt, stepsBefore_all (by rw [Nat.zero_add]; exact h)]

end Worker

variable (importId : Uuid) (pace : Pace) (worker : Worker)

theorem framesFrom_ends (limit now due tick : Nat) :
    ∃ shown time, framesFrom importId pace worker limit now due tick
        = shown ++ [(time, .outcome importId worker.finalOutcome)] ∧
      worker.duration ≤ time ∧
      ∀ frame ∈ shown, ∃ ticks monitor, frame.2 = .progress importId ticks monitor := by
  induction limit generalizing now due tick with
  | zero => exact ⟨[], _, rfl, Nat.le_max_right _ _, nofun⟩
  | succ limit ih =>
    rw [framesFrom]
    split
    · exact ⟨[], _, rfl, Nat.le_max_right _ _, nofun⟩
    · obtain ⟨shown, time, hframes, htime, hshown⟩ := ih (max now due + pace.delay)
        (pace.nextDue due (max now due)) (tick + 1)
      rw [hframes]
      refine ⟨_ :: shown, time, rfl, htime, ?_⟩
      intro frame hframe
      obtain rfl | hframe := List.mem_cons.1 hframe
      · exact ⟨tick, _, rfl⟩
      · exact hshown frame hframe

theorem Pace.ready_lt (h : 0 < pace.interval) {now due : Nat}
    (prompt : pace.delay = 0 → now ≤ due) :
    max now due < max (max now due + pace.delay) (pace.nextDue due (max now due)) := by
  by_cases hdelay : pace.delay = 0
  · have hready : max now due = due := Nat.max_eq_right (prompt hdelay)
    rw [hready, nextDue, if_neg (by omega)]
    omega
  · omega

/-- The bound on the number of ticks is never reached: the stream ends because the worker does. -/
theorem framesFrom_limit (h : 0 < pace.interval) {limit now due : Nat} (tick : Nat)
    (prompt : pace.delay = 0 → now ≤ due) (enough : worker.duration < max now due + limit)
    (more : Nat) :
    framesFrom importId pace worker (limit + more) now due tick
      = framesFrom importId pace worker limit now due tick := by
  induction limit generalizing now due tick with
  | zero =>
    rw [Nat.zero_add]
    cases more with
    | zero => rfl
    | succ more => rw [framesFrom, framesFrom, if_pos (by omega)]
  | succ limit ih =>
    rw [Nat.add_right_comm, framesFrom, framesFrom]
    split
    · rfl
    · -- each tick takes time, so the bound falls no faster than the time that is left
      have hlt := pace.ready_lt h prompt
      have hprompt : pace.delay = 0 →
          max now due + pace.delay ≤ pace.nextDue due (max now due) := by
        intro hdelay
        rw [hdelay] at hlt ⊢
        omega
      rw [ih (tick + 1) hprompt (by omega)]

end Watching

/-- For every job, place, body and storage, whatever the storage answers and however the steps of the
worker fall among the ticks: the stream is progress frames, then one frame with the outcome, and it
ends there because the worker did. The outcome and the storage are those of the attempts over the
body, or of a body that failed, with which the storage has nothing to do. From that frame on the
folder of temporary files is as it was before the job, and the first error of a failure is known. -/
theorem outcome_last_and_clean {ω : Type} (job : Job) (storage : Storage ω) (place : Workplace)
    (body : List Chunk) (state : ω) (pace : Pace) (pauses : Nat → Nat) :
    let worker := (job.work storage place body state).1.paused pauses
    let outcome := (job.result storage body state).1
    (∃ shown time, frames job.importId pace worker
          = shown ++ [(time, .outcome job.importId outcome)] ∧
        (∀ frame ∈ shown, ∃ ticks monitor, frame.2 = .progress job.importId ticks monitor) ∧
        ∀ now, time < now → (worker.placeAt place now).folder = place.folder ∧
          (worker.placeAt place now).lastError = job.lastError place outcome) ∧
      (0 < pace.interval → ∀ limit, worker.duration < limit →
        framesFrom job.importId pace worker limit 0 pace.interval 1
          = frames job.importId pace worker) ∧
      (job.work storage place body state).2 = (job.result storage body state).2 := by
  intro worker outcome
  obtain ⟨steps, hwork, hfolder, hlast⟩ := job.work_run storage place body state
  have hworker : worker = (⟨steps, some outcome⟩ : Worker).paused pauses :=
    congrArg (fun work => Worker.paused work.1 pauses) hwork
  have hafter : place.after worker.steps = place.after steps := by
    rw [hworker]
    exact Worker.after_pause pauses steps place
  refine ⟨?_, ?_, congrArg Prod.snd hwork⟩
  · obtain ⟨shown, time, hframes, htime, hshown⟩ :=
      framesFrom_ends job.importId pace worker (worker.duration + 1) 0 pace.interval 1
    have houtcome : worker.finalOutcome = outcome := by rw [hworker]; rfl
    rw [houtcome] at hframes
    refine ⟨shown, time, hframes, hshown, ?_⟩
    intro now hnow
    rw [worker.placeAt_after (Nat.lt_of_le_of_lt htime hnow), hafter]
    exact ⟨hfolder, hlast⟩
  · intro interval limit hlimit
    obtain ⟨more, rfl⟩ := Nat.exists_eq_add_of_le hlimit
    exact framesFrom_limit job.importId pace worker interval 1 (fun _ => Nat.zero_le _) (by omega)
      more

end Accession.Batch
