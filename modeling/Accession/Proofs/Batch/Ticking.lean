import Accession.Proofs.Batch.Lifecycle
set_option autoImplicit false

namespace Accession.Batch

namespace Pace

variable (pace : Pace)

/-- When the consumer looks for the frame with a number, counted from 0, and when the tick that it
looks for is due, while no outcome comes. -/
def look : Nat → Nat × Nat
  | 0 => (0, pace.interval)
  | k + 1 =>
    let taken := max (look k).1 (look k).2
    (taken + pace.delay, pace.nextDue (look k).2 taken)

/-- When the consumer looks for a frame. -/
def poll (k : Nat) : Nat := (pace.look k).1

/-- When a tick is due. -/
def due (k : Nat) : Nat := (pace.look k).2

/-- When a tick is received: not before it is due, and not before the consumer looks. -/
def taken (k : Nat) : Nat := max (pace.poll k) (pace.due k)

theorem poll_succ (k : Nat) : pace.poll (k + 1) = pace.taken k + pace.delay := rfl

theorem due_succ (k : Nat) : pace.due (k + 1) = pace.nextDue (pace.due k) (pace.taken k) := rfl

variable {pace} (interval : 0 < pace.interval)

include interval

theorem poll_le_due (prompt : pace.delay = 0) (k : Nat) : pace.poll k ≤ pace.due k := by
  induction k with
  | zero => exact Nat.zero_le _
  | succ k ih =>
    rw [poll_succ, due_succ, taken, Nat.max_eq_right ih, prompt, nextDue, if_neg (by omega)]
    omega

theorem taken_lt_succ (k : Nat) : pace.taken k < pace.taken (k + 1) :=
  pace.ready_lt interval (fun prompt => poll_le_due interval prompt k)

theorem taken_mono {j k : Nat} (h : j ≤ k) : pace.taken j ≤ pace.taken k := by
  induction h with
  | refl => exact Nat.le_refl _
  | step _ ih => exact Nat.le_trans ih (Nat.le_of_lt (taken_lt_succ interval _))

end Pace

namespace Worker

/-- The activities among steps that begin at a time, each with the time at which it happens. -/
def timeline : (start : Nat) → List Step → List (Nat × Activity)
  | _, [] => []
  | start, .sleep duration :: rest => timeline (start + duration) rest
  | start, .activity a :: rest => (start, a) :: timeline start rest
  | start, _ :: rest => timeline start rest

/-- What the activities of a worker before a time add up to. -/
def monitorAt (worker : Worker) (now : Nat) : Monitor :=
  .after (((timeline 0 worker.steps).filter (fun a => a.1 < now)).map (·.2))

theorem timeline_ge (start : Nat) (steps : List Step) :
    ∀ a ∈ timeline start steps, start ≤ a.1 := by
  induction steps generalizing start with
  | nil => exact nofun
  | cons s rest ih =>
    intro a ha
    cases s with
    | sleep duration => exact Nat.le_trans (Nat.le_add_right _ _) (ih (start + duration) a ha)
    | activity b =>
      obtain rfl | ha := List.mem_cons.1 ha
      · exact Nat.le_refl _
      · exact ih start a ha
    | file _ | reportError _ => exact ih start a ha

theorem monitor_stepsBefore {start now : Nat} (h : start < now) (steps : List Step)
    (place : Workplace) :
    (place.after (stepsBefore now start steps)).monitor
      = (((timeline start steps).filter (fun a => a.1 < now)).map (·.2)).foldl Monitor.note
          place.monitor := by
  induction steps generalizing start place with
  | nil => rfl
  | cons s rest ih =>
    cases s with
    | sleep duration =>
      rw [stepsBefore, timeline]
      split
      · rename_i hlt
        exact ih hlt place
      · -- nothing after a sleep that lasts until then is seen
        rename_i hlast
        have hnone : (timeline (start + duration) rest).filter (fun a => a.1 < now) = [] := by
          rw [List.filter_eq_nil_iff]
          intro a ha
          have hge := timeline_ge (start + duration) rest a ha
          rw [decide_eq_true_eq]
          omega
        rw [hnone]
        rfl
    | activity a =>
      have hsteps : stepsBefore now start (.activity a :: rest)
          = .activity a :: stepsBefore now start rest := rfl
      rw [hsteps, timeline, List.filter_cons, if_pos (decide_eq_true h), Workplace.after_cons,
        ih h (place.take (.activity a))]
      rfl
    | file change => exact ih h (place.take (.file change))
    | reportError message => exact ih h (place.take (.reportError message))

theorem placeAt_monitor (worker : Worker) {now : Nat} (h : 0 < now) :
    (worker.placeAt {} now).monitor = worker.monitorAt now :=
  monitor_stepsBefore h worker.steps {}

end Worker

section Frames

variable (importId : Uuid) (pace : Pace) (worker : Worker)

def shownAt (k : Nat) : Nat × Frame :=
  (pace.taken k, .progress importId (k + 1) (worker.monitorAt (pace.taken k)))

variable {pace} (interval : 0 < pace.interval)

include interval

theorem framesFrom_looks {limit k : Nat} (enough : worker.duration < pace.taken k + limit) :
    ∃ n, framesFrom importId pace worker limit (pace.poll k) (pace.due k) (k + 1)
        = (List.range' k n).map (shownAt importId pace worker)
          ++ [(max worker.duration (pace.poll (k + n)), outcomeFrame importId worker)] ∧
      ∀ j, k ≤ j → (j < k + n ↔ pace.taken j ≤ worker.duration) := by
  -- once the worker ends before a tick, there are no more ticks
  have hlast {k : Nat} (h : worker.duration < pace.taken k) (j : Nat) (hj : k ≤ j) :
      j < k + 0 ↔ pace.taken j ≤ worker.duration := by
    have hmono := Pace.taken_mono interval hj
    omega
  induction limit generalizing k with
  | zero =>
    refine ⟨0, ?_, hlast enough⟩
    rw [framesFrom, Nat.max_comm]
    rfl
  | succ limit ih =>
    rw [framesFrom]
    split
    · rename_i hended
      refine ⟨0, ?_, hlast hended⟩
      rw [Nat.max_comm]
      rfl
    · rename_i hbusy
      have hlt := Pace.taken_lt_succ interval k
      have hpositive : 0 < pace.taken k := by
        have hfirst := Pace.taken_mono interval (Nat.zero_le k)
        have hstart : pace.taken 0 = pace.interval := Nat.max_eq_right (Nat.zero_le _)
        omega
      obtain ⟨n, hframes, hcount⟩ := ih (k := k + 1) (by omega)
      refine ⟨n + 1, ?_, ?_⟩
      · have htick : (max (pace.poll k) (pace.due k),
            tickFrame importId worker (k + 1) (max (pace.poll k) (pace.due k)))
            = shownAt importId pace worker k := by
          rw [tickFrame, ← Pace.taken, worker.placeAt_monitor hpositive]
          rfl
        rw [htick, List.range'_succ, List.map_cons, List.cons_append,
          show k + (n + 1) = k + 1 + n by omega, ← hframes]
        rfl
      · intro j hj
        obtain rfl | hlater := Nat.eq_or_lt_of_le hj
        · have hready : pace.taken k ≤ worker.duration := Nat.not_lt.1 hbusy
          exact ⟨fun _ => hready, fun _ => by omega⟩
        · rw [← hcount j hlater]
          omega

end Frames

/-- Whatever the worker does and however it ends, and however long the consumer stays away after
every frame: the frames are the ticks with the numbers from 1 on, and then the outcome. Each tick
shows the monitor as the worker has left it when the tick is received. Those ticks are shown that are
received until the worker hands over its outcome or vanishes, and no others. The outcome is received
then or, if that is later, at the next look of the consumer; it is what was handed over, or the
failure of a worker that vanished, with nothing saved. -/
theorem frames_timed (importId : Uuid) (pace : Pace) (worker : Worker)
    (interval : 0 < pace.interval) :
    ∃ n result, frames importId pace worker
        = (List.range n).map (fun k =>
            (pace.taken k, .progress importId (k + 1) (worker.monitorAt (pace.taken k))))
          ++ [(max worker.duration (pace.poll n), .outcome importId result)] ∧
      (∀ k, k < n ↔ pace.taken k ≤ worker.duration) ∧
      (∀ outcome, worker.outcome = some outcome → result = outcome) ∧
      (worker.outcome = none → result.saved.toList = [] ∧
        result.errors = some ["Server error: import worker terminated unexpectedly"]) := by
  have enough : worker.duration < pace.taken 0 + (worker.duration + 1) := by omega
  obtain ⟨n, hframes, hcount⟩ := framesFrom_looks importId worker interval enough
  rw [Nat.zero_add, Nat.zero_add] at hframes
  refine ⟨n, worker.finalOutcome, ?_, ?_, ?_, ?_⟩
  · rw [List.range_eq_range']
    exact hframes
  · intro k
    rw [← hcount k (Nat.zero_le k), Nat.zero_add]
  · intro outcome houtcome
    rw [Worker.finalOutcome, houtcome, Option.getD_some]
  · intro hnone
    rw [Worker.finalOutcome, hnone]
    exact ⟨rfl, rfl⟩

/-- A slow consumer: the second tick comes after it was due, the third would come after the end. -/
def slow : Pace := ⟨10, 25⟩

def busy : Worker :=
  ⟨[.activity (.enter .importing), .sleep 20, .activity .processed, .sleep 30], none⟩

theorem frames_timed_slow :
    0 < slow.interval ∧
      (slow.taken 0, slow.taken 1, slow.taken 2, slow.poll 2, busy.duration) = (10, 35, 60, 60, 50) ∧
      ∃ result, frames .zero slow busy
          = [(10, .progress .zero 1 { phase := .importing }),
            (35, .progress .zero 2 { phase := .importing, recordsProcessed := 1 }),
            (60, .outcome .zero result)] ∧
        result.errors = some ["Server error: import worker terminated unexpectedly"] := by
  have interval : 0 < slow.interval := by decide
  obtain ⟨n, result, hframes, hcount, -, hnone⟩ := frames_timed .zero slow busy interval
  have htwo : n = 2 := by
    have hlow := (hcount 1).2 (by decide)
    have hhigh : ¬2 < n := fun h => absurd ((hcount 2).1 h) (by decide)
    omega
  subst htwo
  exact ⟨interval, by decide, result, hframes, (hnone rfl).2⟩

end Accession.Batch
