import Accession.Store.Error
set_option autoImplicit false

namespace Accession

inductive Failure where
  | database (error : Store.Error)
  | io (message : String)
  | settings (message : String)
  | invalidInput (message : String)
  | internal (message : String)
deriving DecidableEq, Repr

def Failure.message : Failure → String
  | .database e => "Database error: " ++ e.message
  | .io m => "IO error: " ++ m
  | .settings m => "Configuration error: " ++ m
  | .invalidInput m => "Invalid input: " ++ m
  | .internal m => "Internal error: " ++ m

end Accession
