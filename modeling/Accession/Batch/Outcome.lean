import Accession.Batch.Created
import Accession.Batch.Error
set_option autoImplicit false

namespace Accession.Batch

structure Outcome where
  saved : Created
  errors : Option (List String)

namespace Outcome

def success (saved : Created) : Outcome :=
  ⟨saved, none⟩

def ofMessage (saved : Created) (message : String) : Outcome :=
  ⟨saved, some ["Server error: " ++ message]⟩

def failure (saved : Created) (error : ImportError) : Outcome :=
  ofMessage saved error.message

def isSuccess (outcome : Outcome) : Bool :=
  outcome.errors.isNone

/-- The members that an outcome has wherever it is written; a success has no `errors`. -/
def members (outcome : Outcome) : Json.Members :=
  ("saved", outcome.saved.toJson)
    :: match outcome.errors with
      | none => []
      | some errors => [("errors", .arr (errors.map .str))]

def toJson (outcome : Outcome) : Json.Value :=
  .obj outcome.members

end Outcome

end Accession.Batch
