import Accession.Batch.Progress
import Accession.Batch.Retry
import Accession.Batch.Spool
set_option autoImplicit false

namespace Accession.Batch

structure Job where
  importId : Uuid
  target : Target
  policy : RetryPolicy
  reports : Bool := true

namespace Job

variable {ω : Type} (job : Job) (storage : Storage ω)

def report (outcome : Outcome) : List Step :=
  match outcome.errors with
  | some (message :: _) => if job.reports then [.reportError message] else []
  | _ => []

/-- The worker of the job, and the storage after it. -/
def work (place : Workplace) (body : List Chunk) (state : ω) : Worker × ω :=
  match Spool.ofChunks (some place.folder) body with
  | (steps, .error message) =>
    let outcome := Outcome.failure Created.empty (.spool message)
    (⟨steps ++ job.report outcome, some outcome⟩, state)
  | (steps, .ok spool) =>
    let octets := spool.contents (place.after steps).folder
    let (outcome, world) := run job.target storage job.policy octets ⟨state, []⟩
    let closing := [.activity (.enter .finishing), spool.close] ++ job.report outcome
    (⟨steps ++ world.steps ++ closing, some outcome⟩, world.storage)

end Job

end Accession.Batch
