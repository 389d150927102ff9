import Accession.Json.Skip
import Accession.Service.MediaType
import Accession.Service.Message
set_option autoImplicit false

namespace Accession.Service

open Json (Fault)

structure NewRepository where
  code : String
  name : String
deriving DecidableEq, Repr

inductive BodyError where
  | wrongMediaType
  | notReceived (message : String)
  | tooLarge
  | unreadable (error : Json.ReadError)
deriving DecidableEq, Repr

namespace BodyError

def status : BodyError → Nat
  | .wrongMediaType => 415
  | .notReceived _ => 400
  | .tooLarge => 413
  | .unreadable e => if e.category == .shape then 422 else 400

def message : BodyError → String
  | .wrongMediaType => "Expected request with `Content-Type: application/json`"
  | .notReceived m => "Failed to buffer the request body: " ++ m
  | .tooLarge => "Failed to buffer the request body: length limit exceeded"
  | .unreadable e =>
    if e.category == .shape then
      "Failed to deserialize the JSON body into the target type: " ++ e.message
    else "Failed to parse the request body as JSON: " ++ e.message

end BodyError

def bodyLimit : Nat := 2097152

def receive : (room : Nat) → List Batch.Chunk → Except BodyError (List UInt8)
  | _, [] => .ok []
  | _, .failure message :: _ => .error (.notReceived message)
  | room, .octets s :: rest =>
    if room < s.length then .error .tooLarge
    else (receive (room - s.length) rest).map (s ++ ·)

namespace NewRepository

def structName : String := "struct CreateRepositoryRequest"

def codeKey : String := "repo_code"
def nameKey : String := "name"

def readText (s : List UInt8) : Except Fault (String × List UInt8) :=
  match Json.skipSpace s with
  | 0x22 :: t => Json.Literal.read t
  | s => .error (Json.mistyped "a string" s)

structure Draft where
  code : Option String := none
  name : Option String := none
deriving DecidableEq, Repr

/-- The text after a key that stands twice: white space and the end of the object are read. -/
def afterRepeated (s : List UInt8) : List UInt8 :=
  match Json.skipSpace s with
  | 0x7D :: t => t
  | s => s

def repeated (key : String) (s : List UInt8) : Fault :=
  .after (.duplicateField key) (afterRepeated s)

def pass (s : List UInt8) : Except Fault (Unit × List UInt8) :=
  (Json.skip s).map (fun s => ((), s))

def valueOf {α : Type} (key : String) (read : List UInt8 → Except Fault (α × List UInt8))
    (s : List UInt8) : Except Fault (α × List UInt8) := do
  let s ← Json.readColon s
  (read s).mapError (Fault.inPart key)

def member (key : String) (draft : Draft) (s : List UInt8) : Except Fault (Draft × List UInt8) :=
  if key == codeKey then
    if draft.code.isSome then .error (repeated key s)
    else do
      let (code, s) ← valueOf key readText s
      return ({ draft with code := some code }, s)
  else if key == nameKey then
    if draft.name.isSome then .error (repeated key s)
    else do
      let (name, s) ← valueOf key readText s
      return ({ draft with name := some name }, s)
  else do
    let ((), s) ← valueOf key pass s
    return (draft, s)

def complete (draft : Draft) (s : List UInt8) : Except Fault NewRepository :=
  match draft.code, draft.name with
  | none, _ => .error (.after (.missingField codeKey) s)
  | some _, none => .error (.after (.missingField nameKey) s)
  | some code, some name => .ok ⟨code, name⟩

def readArrayEnd (s : List UInt8) : Except Fault Unit :=
  match Json.skipSpace s with
  | [] => .error (.ahead .endInList [])
  | b :: t =>
    if b == 0x5D then .ok ()
    else if b != 0x2C then .error (.ahead .trailingCharacters (b :: t))
    else match Json.skipSpace t with
      | 0x5D :: u => .error (.ahead .trailingComma (0x5D :: u))
      | u => .error (.ahead .trailingCharacters u)

def tooShort (found : Nat) (s : List UInt8) : Fault :=
  .after (.invalidLength found (structName ++ " with 2 elements")) s

def readArray (s : List UInt8) : Except Fault NewRepository :=
  match Json.skipSpace s with
  | [] => .error (.ahead .endInList [])
  | 0x5D :: t => .error (tooShort 0 t)
  | s => do
    let (code, s) ← (readText s).mapError (Fault.inPart "[0]")
    match Json.skipSpace s with
    | [] => throw (.ahead .endInList [])
    | b :: t =>
      if b == 0x5D then throw (tooShort 1 t)
      else if b != 0x2C then throw (.ahead .listEndExpected (b :: t))
      else match Json.skipSpace t with
        | [] => throw (.ahead .endInValue [])
        | 0x5D :: u => throw (.ahead .trailingComma (0x5D :: u))
        | u => do
          let (name, s) ← (readText u).mapError (Fault.inPart "[1]")
          readArrayEnd s
          return ⟨code, name⟩

def read (s : List UInt8) : Except Fault NewRepository :=
  match Json.skipSpace s with
  | 0x7B :: t => do
    let (draft, s) ← Json.members member s.length true {} t
    complete draft s
  | 0x5B :: t => readArray t
  | s => .error (Json.mistyped structName s)

def ofRequest (request : Request) : Except BodyError NewRepository :=
  if !declaresJson request.contentType? then .error .wrongMediaType
  else do
    let body ← receive bodyLimit request.body
    (read body).mapError (fun fault => .unreadable (fault.locate body))

end NewRepository

end Accession.Service
