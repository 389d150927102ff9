set_option autoImplicit false

namespace Accession.Batch

structure RetryPolicy where
  /-- At least one attempt is made whatever is set here. -/
  maxAttempts : Nat := 10
  initialBackoff : Nat := 10
  maxBackoff : Nat := 1000
deriving DecidableEq, Repr, Inhabited

namespace RetryPolicy

def attempts (policy : RetryPolicy) : Nat :=
  max 1 policy.maxAttempts

/-- The milliseconds to wait after a failed attempt, counted from 1. -/
def backoff (policy : RetryPolicy) (attempt : Nat) : Nat :=
  min (policy.initialBackoff * Nat.pow 2 (min (attempt - 1) 31)) policy.maxBackoff

end RetryPolicy

end Accession.Batch
