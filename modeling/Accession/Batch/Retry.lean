import Accession.Batch.Process
import Accession.Batch.RetryPolicy
set_option autoImplicit false

/-!
# Attempts and their repetition

An attempt processes the whole body within one session of the storage. If the storage is
transactional, an attempt that failed left nothing behind, and after a transient failure it may be
made again; otherwise what was stored is kept and reported, and every failure is final.
-/
namespace Accession.Batch

inductive AttemptResult where
  | committed (created : Created)
  /-- A transient failure that left nothing behind. -/
  | retry (error : ImportError)
  | fatal (error : ImportError) (kept : Created)

section

variable {ω : Type} (target : Target) (storage : Storage ω)

def failed (created : Created) (error : ImportError) : AttemptResult :=
  if storage.transactional then
    if error.isRetryable then .retry error else .fatal error Created.empty
  else .fatal error created

/-- One pass over a body. A failure to roll back changes nothing about the result. -/
def attempt (body : List UInt8) : StateM (World ω) AttemptResult := do
  match ← World.call storage.begin with
  | .error e => return failed storage Created.empty e
  | .ok () =>
    let processed ← process target storage body
    match processed.error with
    | none =>
      match ← World.call storage.commit with
      | .ok () => return .committed processed.created
      | .error e => return failed storage processed.created e
    | some e =>
      let _ ← World.call storage.rollback
      return failed storage processed.created e

/-- Attempts from the one numbered `number` on, after which `more` may follow. -/
def attempts (policy : RetryPolicy) (body : List UInt8) :
    (more number : Nat) → StateM (World ω) Outcome
  | more, number => do
    World.note (.beginAttempt (UInt32.ofNat number))
    match ← attempt target storage body with
    | .committed created => return .success created
    | .fatal error kept => return .failure kept error
    | .retry error =>
      match more with
      | 0 => return .failure Created.empty error
      | more + 1 => do
        World.note (.enter .retrying)
        World.step (.sleep (policy.backoff number))
        attempts policy body more (number + 1)

def run (policy : RetryPolicy) (body : List UInt8) : StateM (World ω) Outcome :=
  attempts target storage policy body (policy.attempts - 1) 1

end

end Accession.Batch
