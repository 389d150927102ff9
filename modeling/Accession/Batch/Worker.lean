import Accession.Batch.Folder
import Accession.Batch.Monitor
import Accession.Batch.Outcome
set_option autoImplicit false

namespace Accession.Batch

inductive Step where
  /-- In milliseconds. -/
  | sleep (duration : Nat)
  | activity (a : Activity)
  | file (change : FileChange)
  | reportError (message : String)
deriving DecidableEq, Repr

def Step.duration : Step → Nat
  | .sleep duration => duration
  | _ => 0

structure Workplace where
  monitor : Monitor := {}
  folder : Folder := {}
  lastError : Option String := none
deriving DecidableEq, Repr

namespace Workplace

def take (place : Workplace) : Step → Workplace
  | .sleep _ => place
  | .activity a => { place with monitor := place.monitor.note a }
  | .file change => { place with folder := place.folder.apply change }
  | .reportError message => { place with lastError := some message }

def after (place : Workplace) (steps : List Step) : Workplace :=
  steps.foldl take place

end Workplace

structure Worker where
  steps : List Step
  /-- None if the worker ends without handing anything over. -/
  outcome : Option Outcome

namespace Worker

def duration (worker : Worker) : Nat :=
  worker.steps.foldr (fun step rest => step.duration + rest) 0

/-- The steps taken before a time, of those that begin at `start`. -/
def stepsBefore (now : Nat) : (start : Nat) → List Step → List Step
  | _, [] => []
  | start, .sleep duration :: rest =>
    if start + duration < now then .sleep duration :: stepsBefore now (start + duration) rest
    else []
  | start, step :: rest => step :: stepsBefore now start rest

/-- What can be seen of the worker at a time, before it acts at that time. -/
def placeAt (worker : Worker) (place : Workplace) (now : Nat) : Workplace :=
  place.after (stepsBefore now 0 worker.steps)

end Worker

end Accession.Batch
