import Accession.Batch.Frame
import Accession.Batch.Worker
set_option autoImplicit false

/-!
# The stream of frames

While the worker of an import is busy, a stream shows its monitor at regular ticks; the outcome is
its last frame. The stream looks at the worker before the ticker, so nothing is shown of a worker
that has handed over its outcome. Time is counted in milliseconds from the first look; a consumer
that comes back at the moment at which the worker acts comes first. A consumer that comes late finds
the tick that was due, and the ticks after it are counted from then on; a tick missed by no more
than `tolerance` moves nothing.
-/
namespace Accession.Batch

/-- How often the stream ticks, and how long its consumer stays away after every frame. -/
structure Pace where
  interval : Nat
  delay : Nat := 0
deriving DecidableEq, Repr

namespace Pace

def tolerance : Nat := 5

/-- When the tick after one is due that was due at `due` and taken at `now`. -/
def nextDue (pace : Pace) (due now : Nat) : Nat :=
  if due + tolerance < now then now + pace.interval else due + pace.interval

end Pace

def Worker.finalOutcome (worker : Worker) : Outcome :=
  worker.outcome.getD (.ofMessage Created.empty "import worker terminated unexpectedly")

section

variable (importId : Uuid) (pace : Pace) (worker : Worker)

def outcomeFrame : Frame :=
  .outcome importId worker.finalOutcome

def tickFrame (ticks now : Nat) : Frame :=
  .progress importId ticks (worker.placeAt {} now).monitor

/-- The frames that a consumer receives from `now` on, each with the time. The next tick has the
number `tick` and is due at `due`; no more than `limit` ticks are shown. -/
def framesFrom : (limit now due tick : Nat) → List (Nat × Frame)
  | 0, now, _, _ => [(max now worker.duration, outcomeFrame importId worker)]
  | limit + 1, now, due, tick =>
    let ready := max now due
    if worker.duration < ready then [(max now worker.duration, outcomeFrame importId worker)]
    else
      (ready, tickFrame importId worker tick ready)
        :: framesFrom limit (ready + pace.delay) (pace.nextDue due ready) (tick + 1)

/-- All frames of an import. Ticks are a millisecond apart at least, so there are no more of them
than the worker is busy. -/
def frames : List (Nat × Frame) :=
  framesFrom importId pace worker (worker.duration + 1) 0 pace.interval 1

end

end Accession.Batch
