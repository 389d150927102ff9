import Accession.Batch.Error
set_option autoImplicit false

namespace Accession.Store

inductive Constraint where
  | unique
  | foreignKey
  | notNull
  | check
  | other
deriving DecidableEq, Repr

structure DatabaseError where
  code : Option String
  message : String
  violated : Constraint
  /-- The message as it is shown to people; a database may put the code in front. -/
  shown : String
deriving DecidableEq, Repr

inductive Error where
  | rowNotFound
  | poolTimedOut
  | poolClosed
  | workerCrashed
  | protocol (message : String)
  | columnNotFound (name : String)
  | io (message : String)
  | database (error : DatabaseError)
  | other (message : String)
deriving DecidableEq, Repr

namespace Error

def message : Error → String
  | .rowNotFound =>
    "no rows returned by a query that expected to return at least one row"
  | .poolTimedOut => "pool timed out while waiting for an open connection"
  | .poolClosed => "attempted to acquire a connection on a closed pool"
  | .workerCrashed => "attempted to communicate with a crashed background worker"
  | .protocol m => "encountered unexpected or invalid data: " ++ m
  | .columnNotFound name => "no column found for name: " ++ name
  | .io m => "error communicating with database: " ++ m
  | .database e => "error returned from database: " ++ e.shown
  | .other m => m

end Error

def DatabaseError.coded (code : String) (violated : Constraint) (message : String) :
    DatabaseError :=
  ⟨some code, message, violated, "(code: " ++ code ++ ") " ++ message⟩

/-- The low octet of the code, if the code is an integer of 32 bits. -/
def DatabaseError.primary? (e : DatabaseError) : Option Int :=
  (e.code.bind Text.Integer.read32?).map (· % 256)

def Constraint.refuses : Constraint → Bool
  | .unique | .foreignKey | .check => true
  | .notNull | .other => false

def occurs (word : List Char) : List Char → Bool
  | [] => word.isEmpty
  | c :: cs => word.isPrefixOf (c :: cs) || occurs word cs

def lockedText : List Char := "database is locked".toList

namespace Error

def statement (message : String) : Error :=
  .database (.coded "1" .other message)

def noTable (name : String) : Error :=
  statement ("no such table: " ++ name)

def noColumn (name : String) : Error :=
  statement ("no such column: " ++ name)

/-- What a failure means where neither code nor constraint decides. -/
def byText (e : Error) : Batch.ImportError :=
  if occurs lockedText e.message.toList || e == .poolTimedOut then .conflict e.message
  else .storage e.message

def classify (e : Error) (subject : String) : Batch.ImportError :=
  match e with
  | .database d =>
    if d.primary? == some 5 || d.primary? == some 6 then .conflict d.message
    else if d.primary? == some 19 || d.violated.refuses then .persistence subject d.message
    else byText e
  | _ => byText e

end Error

end Accession.Store
