import Accession.Failure
import Accession.Json.Writer
set_option autoImplicit false

namespace Accession.Service

inductive Error where
  | notFound (what : String)
  | badRequest (message : String)
  | conflict (message : String)
  | failed (failure : Failure)
deriving DecidableEq, Repr

namespace Error

def display : Error → String
  | .notFound what => "Resource not found: " ++ what
  | .badRequest m => "Invalid request: " ++ m
  | .conflict m => "Conflict: " ++ m
  | .failed f => "Common error: " ++ f.message

def status : Error → Nat
  | .notFound _ => 404
  | .badRequest _ | .failed (.invalidInput _) => 400
  | .conflict _ => 409
  | .failed _ => 500

def code : Error → String
  | .notFound _ => "NOT_FOUND"
  | .badRequest _ | .failed (.invalidInput _) => "BAD_REQUEST"
  | .conflict _ => "CONFLICT"
  | .failed (.database _) => "DATABASE_ERROR"
  | .failed _ => "INTERNAL_ERROR"

def message : Error → String
  | .notFound m | .badRequest m | .conflict m | .failed (.invalidInput m) => m
  | .failed f => f.message

def toJson (e : Error) : Json.Value :=
  .obj [("error", .obj [("code", .str e.code), ("message", .str e.message)])]

end Error

end Accession.Service
