import Accession.Text.Integer
set_option autoImplicit false

namespace Accession.Batch

inductive ImportError where
  | spool (message : String)
  /-- The text at a position, counted in records from 1, is no record. -/
  | decode (position : Nat) (message : String)
  | validation (subject : String) (reports : List String)
  | unresolved (subject field reference : String)
  | persistence (subject message : String)
  | conflict (message : String)
  | storage (message : String)
deriving DecidableEq, Repr

namespace ImportError

def message : ImportError → String
  | .spool m => "Failed to spool import stream: " ++ m
  | .decode position m =>
    "Malformed record at position " ++ Text.Integer.write position ++ ": " ++ m
  | .validation subject reports =>
    "Validation failed for " ++ subject ++ ": " ++ "; ".intercalate reports
  | .unresolved subject field reference =>
    "Unresolved reference in " ++ subject ++ ": " ++ field ++ " -> " ++ reference
  | .persistence subject m => "Could not save " ++ subject ++ ": " ++ m
  | .conflict m => "Storage conflict: " ++ m
  | .storage m => "Storage error: " ++ m

def isRetryable : ImportError → Bool
  | .conflict _ | .storage _ => true
  | _ => false

end ImportError

end Accession.Batch
