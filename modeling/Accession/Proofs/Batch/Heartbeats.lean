import Accession.Proofs.Batch.Ticking
set_option autoImplicit false

namespace Accession.Batch

namespace Pace

variable (pace : Pace) {due now : Nat}

theorem le_nextDue_due : due + pace.interval ≤ pace.nextDue due now := by
  rw [nextDue]
  split <;> omega

theorem le_nextDue_taken : now + pace.interval ≤ pace.nextDue due now + tolerance := by
  rw [nextDue]
  split <;> omega

end Pace

section

variable (importId : Uuid) (interval : Nat) (worker : Worker)

/-- What a consumer may receive that looks at `now`, when the next tick has the number `tick` and is
due at `due`. How long it stays away is its own choice after every tick. -/
inductive Received : (now due tick : Nat) → List (Nat × Frame) → Prop where
  | outcome {now due tick : Nat} (ended : worker.duration < max now due) :
      Received now due tick [(max now worker.duration, outcomeFrame importId worker)]
  | tick {now due tick : Nat} {rest : List (Nat × Frame)} (away : Nat)
      (busy : max now due ≤ worker.duration)
      (later : Received (max now due + away) (Pace.nextDue { interval } due (max now due))
        (tick + 1) rest) :
      Received now due tick ((max now due, tickFrame importId worker tick (max now due)) :: rest)

variable {interval}

theorem received_framesFrom {pace : Pace} (long : Pace.tolerance < pace.interval)
    {limit now due : Nat} (tick : Nat) (enough : worker.duration < max now due + limit) :
    Received importId pace.interval worker now due tick
      (framesFrom importId pace worker limit now due tick) := by
  induction limit generalizing now due tick with
  | zero => exact .outcome enough
  | succ limit ih =>
    rw [framesFrom]
    split
    · rename_i ended
      exact .outcome ended
    · rename_i busy
      have hnext : max now due + pace.interval
          ≤ Pace.nextDue { interval := pace.interval } due (max now due) + Pace.tolerance :=
        pace.le_nextDue_taken
      exact .tick pace.delay (Nat.not_lt.1 busy) (ih (tick + 1) (by omega))

theorem received_frames {pace : Pace} (long : Pace.tolerance < pace.interval) :
    Received importId pace.interval worker 0 pace.interval 1 (frames importId pace worker) :=
  received_framesFrom importId worker long 1 (by omega)

namespace Received

variable {importId worker} {now due tick : Nat} {lines : List (Nat × Frame)}
  (received : Received importId interval worker now due tick lines)

include received

theorem first {t k : Nat} {id : Uuid} {m : Monitor} {rest : List (Nat × Frame)}
    (h : lines = (t, .progress id k m) :: rest) : k = tick ∧ due ≤ t := by
  cases received with
  | outcome => cases h
  | tick away busy later =>
    cases h
    exact ⟨rfl, Nat.le_max_right _ _⟩

theorem mul_interval_le (kept : tick * interval ≤ due) {t k : Nat} {id : Uuid} {m : Monitor}
    (h : (t, .progress id k m) ∈ lines) : k * interval ≤ t := by
  induction received with
  | outcome => cases List.mem_singleton.1 h
  | @tick now due tick rest away busy later ih =>
    obtain heq | h := List.mem_cons.1 h
    · cases heq
      exact Nat.le_trans kept (Nat.le_max_right _ _)
    · refine ih ?_ h
      rw [Nat.succ_mul]
      exact Nat.le_trans (Nat.add_le_add_right kept interval) (Pace.le_nextDue_due { interval })

theorem consecutive {t k t' k' : Nat} {id id' : Uuid} {m m' : Monitor}
    {front rest : List (Nat × Frame)}
    (h : lines = front ++ (t, .progress id k m) :: (t', .progress id' k' m') :: rest) :
    k' = k + 1 ∧ t + interval ≤ t' + Pace.tolerance := by
  induction received generalizing front with
  | outcome =>
    cases front with
    | nil => cases h
    | cons _ front => cases front <;> cases h
  | @tick now due tick rest' away busy later ih =>
    cases front with
    | nil =>
      obtain ⟨hhead, hrest⟩ := List.cons.inj h
      obtain ⟨rfl, hdue⟩ := later.first hrest
      cases hhead
      have hnext : max now due + interval
          ≤ Pace.nextDue { interval } due (max now due) + Pace.tolerance :=
        Pace.le_nextDue_taken { interval }
      exact ⟨rfl, Nat.le_trans hnext (Nat.add_le_add_right hdue _)⟩
    | cons _ front => exact ih (List.cons.inj h).2

end Received

end

/-- However long the consumer stays away after a tick, be it always equally long or not: the tick
with a number comes no earlier than that many intervals after the first look, and two ticks that
follow one another are an interval apart but for the five milliseconds that a tick may be late
without moving the next one. -/
theorem ticks_apart (importId : Uuid) (interval : Nat) (worker : Worker) (long : 5 < interval) :
    (∀ delay, Received importId interval worker 0 interval 1
      (frames importId ⟨interval, delay⟩ worker)) ∧
    ∀ lines, Received importId interval worker 0 interval 1 lines →
      (∀ t id k m, (t, .progress id k m) ∈ lines → k * interval ≤ t) ∧
      ∀ front t id k m t' id' k' m' rest,
        lines = front ++ (t, .progress id k m) :: (t', .progress id' k' m') :: rest →
          k' = k + 1 ∧ t + (interval - 5) ≤ t' := by
  have hpace (delay : Nat) : Pace.tolerance < (⟨interval, delay⟩ : Pace).interval := long
  refine ⟨fun delay => received_frames importId worker (hpace delay), ?_⟩
  intro lines received
  refine ⟨fun t id k m h => received.mul_interval_le (Nat.le_of_eq (Nat.one_mul _)) h, ?_⟩
  intro front t id k m t' id' k' m' rest h
  obtain ⟨hnumber, happart⟩ := received.consecutive h
  rw [Pace.tolerance] at happart
  exact ⟨hnumber, by omega⟩

/-- A consumer that comes five milliseconds late for the second tick finds the third one on time. -/
theorem ticks_apart_late : ∃ lines, Received .zero 10 busy 0 10 1 lines ∧
    lines.map (·.1) = [10, 25, 30, 55] ∧ 5 < 10 ∧
    (∀ t id k m, (t, .progress id k m) ∈ lines → k * 10 ≤ t) ∧
    ∀ front t id k m t' id' k' m' rest,
      lines = front ++ (t, .progress id k m) :: (t', .progress id' k' m') :: rest →
        k' = k + 1 ∧ t + (10 - 5) ≤ t' := by
  have received : Received .zero 10 busy 0 10 1 _ :=
    .tick 15 (by decide) (.tick 0 (by decide) (.tick 25 (by decide) (.outcome (by decide))))
  exact ⟨_, received, by decide, by decide, (ticks_apart .zero 10 busy (by decide)).2 _ received⟩

end Accession.Batch
