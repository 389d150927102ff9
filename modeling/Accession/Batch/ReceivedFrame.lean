import Accession.Batch.Created
import Accession.Json.Reader
import Accession.Uuid
set_option autoImplicit false

namespace Accession.Batch

open Json (Value Members Fault Cause)

inductive ReceivedFrame where
  | progress (importId : Uuid) (ticks attempt recordsProcessed bytesSpooled : Nat)
  | outcome (importId : Uuid) (saved : Members) (errors : Option (List String))
deriving Repr

namespace ReceivedFrame

inductive Kind where
  | progress
  | outcome
deriving DecidableEq, Repr

def Kind.ofName? (name : String) : Option Kind :=
  if name == "progress" then some .progress
  else if name == "outcome" then some .outcome
  else none

def uuid? : Value → Option Uuid
  | .str s => Uuid.parse? s
  | _ => none

def naturalUpTo? (limit : Nat) : Value → Option Nat
  | .num (.int (.ofNat n)) => if n ≤ limit then some n else none
  | _ => none

def texts? : Value → Option (Option (List String))
  | .null => some none
  | .arr items => (items.mapM Value.asString?).map some
  | _ => none

def progress? (importId ticks attempt recordsProcessed bytesSpooled : Value) :
    Option ReceivedFrame := do
  let importId ← uuid? importId
  let ticks ← naturalUpTo? Text.Integer.maxUnsigned64 ticks
  let attempt ← naturalUpTo? Text.Integer.maxUnsigned32 attempt
  let recordsProcessed ← naturalUpTo? Text.Integer.maxUnsigned64 recordsProcessed
  let bytesSpooled ← naturalUpTo? Text.Integer.maxUnsigned64 bytesSpooled
  return .progress importId ticks attempt recordsProcessed bytesSpooled

def outcome? (importId saved errors : Value) : Option ReceivedFrame := do
  let importId ← uuid? importId
  let saved ← saved.asMembers?
  let errors ← texts? errors
  return .outcome importId saved errors

def sole? (fields : List (String × Value)) (key : String) : Option Value :=
  match fields.filter (fun f => f.1 == key) with
  | [f] => some f.2
  | _ => none

def soleOrNull? (fields : List (String × Value)) (key : String) : Option Value :=
  match fields.filter (fun f => f.1 == key) with
  | [] => some .null
  | [f] => some f.2
  | _ => none

def ofFields? (fields : List (String × Value)) : Kind → Option ReceivedFrame
  | .progress => do
    progress? (← sole? fields "import_id") (← sole? fields "ticks") (← sole? fields "attempt")
      (← sole? fields "records_processed") (← sole? fields "bytes_spooled")
  | .outcome => do
    outcome? (← sole? fields "import_id") (← sole? fields "saved") (← soleOrNull? fields "errors")

def ofItems? : Kind → List Value → Option ReceivedFrame
  | .progress, [importId, ticks, attempt, recordsProcessed, bytesSpooled] =>
    progress? importId ticks attempt recordsProcessed bytesSpooled
  | .outcome, [importId, saved, errors] => outcome? importId saved errors
  | .outcome, [importId, saved] => outcome? importId saved .null
  | _, _ => none

def expected : String := "a frame"

def misshapen (s : List UInt8) : Fault :=
  .after (.invalidType "value" expected) s

def readKind (s : List UInt8) : Except Fault (Kind × List UInt8) :=
  match Json.skipSpace s with
  | 0x22 :: t =>
    match Json.Literal.read t with
    | .error e => .error e
    | .ok (name, s) =>
      match Kind.ofName? name with
      | some kind => .ok (kind, s)
      | none => .error (misshapen s)
  | s => .error (Json.mistyped expected s)

abbrev Collected := Option Kind × List (String × Value)

def member (fuel depth : Nat) (key : String) (read : Collected) (s : List UInt8) :
    Except Fault (Collected × List UInt8) :=
  if key == "kind" then
    if read.1.isSome then .error (.after (.duplicateField key) s)
    else do
      let s ← Json.readColon s
      let (kind, s) ← readKind s
      return ((some kind, read.2), s)
  else do
    let s ← Json.readColon s
    let (v, s) ← Json.readValue fuel depth s
    return ((read.1, (key, v) :: read.2), s)

abbrev Listed := Option Kind × List Value

def item (fuel depth : Nat) (read : Listed) (s : List UInt8) :
    Except Fault (Listed × List UInt8) :=
  match read.1 with
  | none => do
    let (kind, s) ← readKind s
    return ((some kind, read.2), s)
  | some _ => do
    let (v, s) ← Json.readValue fuel depth s
    return ((read.1, v :: read.2), s)

def shaped (frame : Option ReceivedFrame) (s : List UInt8) : Except Fault ReceivedFrame :=
  match frame with
  | none => .error (misshapen s)
  | some frame => do
    Json.readEnd s
    return frame

def read (line : List UInt8) : Except Fault ReceivedFrame :=
  let fuel := line.length
  let depth := Json.maxDepth - 1
  match Json.skipSpace line with
  | 0x7B :: t => do
    let ((kind, fields), s) ← Json.members (member fuel depth) fuel true (none, []) t
    shaped (kind.bind (ofFields? fields.reverse)) s
  | 0x5B :: t => do
    let ((kind, values), s) ← Json.items (item fuel depth) fuel true (none, []) t
    shaped (kind.bind (ofItems? · values.reverse)) s
  | s => .error (Json.mistyped expected s)

def lines : List UInt8 → List (List UInt8)
  | [] => [[]]
  | b :: s =>
    if b == 0x0A then [] :: lines s
    else match lines s with
      | [] => [[b]]
      | line :: rest => (b :: line) :: rest

/-- White space within a line: the space, tab, form feed and carriage return. -/
def isSpace (b : UInt8) : Bool :=
  b == 0x20 || b == 0x09 || b == 0x0A || b == 0x0C || b == 0x0D

def parseAll (body : List UInt8) : Except Json.Category (List ReceivedFrame) :=
  ((lines body).filter (fun line => !line.all isSpace)).mapM
    (fun line => (read line).mapError (fun fault => fault.cause.category))

def isOutcome : ReceivedFrame → Bool
  | .outcome .. => true
  | .progress .. => false

def persisted? : Value → Option Persisted
  | .arr (uri :: id :: _) => do
    let uri ← uri.asString?
    let id ← id.asInt64?
    return ⟨uri, id⟩
  | _ => none

def savedRecords? : ReceivedFrame → Option (List (String × Persisted))
  | .outcome _ saved _ => saved.mapM (fun entry => (persisted? entry.2).map (fun p => (entry.1, p)))
  | .progress .. => none

end ReceivedFrame

end Accession.Batch
