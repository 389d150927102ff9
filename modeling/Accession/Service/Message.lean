import Accession.Batch.Spool
import Accession.Json.Writer
set_option autoImplicit false

namespace Accession.Service

structure Request where
  method : String
  target : String
  headers : List (String × String) := []
  body : List Batch.Chunk := []
deriving DecidableEq, Repr

namespace Request

def header? (request : Request) (name : String) : Option String :=
  (request.headers.find? (fun h => h.1.toList.map Char.toLower == name.toList)).map (·.2)

def contentType? (request : Request) : Option String :=
  request.header? "content-type"

end Request

structure Response where
  status : Nat
  contentType : Option String := none
  body : String := ""
  /-- The methods that the path admits, where the method of the request is none of them. -/
  allow : Option String := none
deriving DecidableEq, Repr

namespace Response

def plainText : String := "text/plain; charset=utf-8"

def empty (status : Nat) : Response := { status }

def text (status : Nat) (body : String) : Response :=
  { status, contentType := some plainText, body }

def json (status : Nat) (value : Json.Value) : Response :=
  { status, contentType := some "application/json", body := value.render }

def notAllowed (methods : String) : Response :=
  { status := 405, allow := some methods }

def withoutBody (response : Response) : Response :=
  { response with body := "" }

end Response

end Accession.Service
