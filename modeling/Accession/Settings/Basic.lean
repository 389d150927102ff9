import Accession.Batch.RetryPolicy
import Accession.Failure
set_option autoImplicit false

namespace Accession

namespace Settings

structure Listener where
  host : String := "127.0.0.1"
  port : Nat := 8089
deriving DecidableEq, Repr

structure Journal where
  level : String := "info"
deriving DecidableEq, Repr

structure Importing where
  transactional : Bool := true
  /-- Milliseconds between progress frames. -/
  progressInterval : Nat := 1000
  retry : Batch.RetryPolicy := {}
  spoolFolder : Option String := none
deriving DecidableEq, Repr

end Settings

structure Settings where
  rootFolder : Option String := none
  listener : Settings.Listener := {}
  journal : Settings.Journal := {}
  importing : Settings.Importing := {}
deriving DecidableEq, Repr

namespace Settings

def fault? (settings : Settings) : Option Failure :=
  let i := settings.importing
  if i.retry.maxAttempts == 0 then
    some (.settings "import.max_attempts must be at least 1")
  else if i.progressInterval == 0 then
    some (.settings "import.progress_interval_ms must be greater than 0")
  else if i.retry.maxBackoff < i.retry.initialBackoff then
    some (.settings "import.initial_backoff_ms must not exceed import.max_backoff_ms")
  else none

theorem fault?_default : fault? {} = none := by
  simp [fault?]

end Settings

end Accession
