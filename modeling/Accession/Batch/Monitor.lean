set_option autoImplicit false

namespace Accession.Batch

inductive Phase where
  | spooling
  | importing
  | retrying
  | finishing
deriving DecidableEq, Repr

def Phase.name : Phase → String
  | .spooling => "spooling"
  | .importing => "importing"
  | .retrying => "retrying"
  | .finishing => "finishing"

structure Monitor where
  phase : Phase := .spooling
  attempt : UInt32 := 0
  bytesSpooled : UInt64 := 0
  recordsProcessed : UInt64 := 0
deriving DecidableEq, Repr, Inhabited

inductive Activity where
  | beginAttempt (attempt : UInt32)
  | spooled (bytes : UInt64)
  | processed
  | enter (phase : Phase)
deriving DecidableEq, Repr

namespace Monitor

def start : Monitor := {}

def note (monitor : Monitor) : Activity → Monitor
  | .beginAttempt attempt => { monitor with attempt, recordsProcessed := 0, phase := .importing }
  | .spooled bytes => { monitor with bytesSpooled := monitor.bytesSpooled + bytes }
  | .processed => { monitor with recordsProcessed := monitor.recordsProcessed + 1 }
  | .enter phase => { monitor with phase }

def after (activities : List Activity) : Monitor :=
  activities.foldl note start

end Monitor

end Accession.Batch
