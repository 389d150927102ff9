import Accession.Json.Number
import Accession.Json.Literal
import Accession.Json.Numeral
import Accession.Text.Quoted
set_option autoImplicit false

/-!
# Reading JSON text

`parse` reads one value that fills the whole text but for white space. `readValue` reads one value
off the front; it refuses the bracket that would nest deeper than `maxDepth`. `items` and `members`
walk the elements of a list and the members of an object with a step of the caller's, so a reader
of a particular shape can stop at the first member that does not fit. The `fuel` of these walks
counts elements: the number of octets of the text is always enough.
-/
namespace Accession.Json

def maxDepth : Nat := 127

def isSpace (b : UInt8) : Bool :=
  b == 0x20 || b == 0x0A || b == 0x09 || b == 0x0D

def skipSpace (s : List UInt8) : List UInt8 :=
  s.dropWhile isSpace

def readName : (name : List UInt8) → List UInt8 → Except Fault (List UInt8)
  | [], s => .ok s
  | _ :: _, [] => .error (.after .endInValue [])
  | c :: name, b :: s =>
    if b == c then readName name s else .error (.after .literalExpected s)

def ullName : List UInt8 := [0x75, 0x6C, 0x6C]
def rueName : List UInt8 := [0x72, 0x75, 0x65]
def alseName : List UInt8 := [0x61, 0x6C, 0x73, 0x65]

def readColon (s : List UInt8) : Except Fault (List UInt8) :=
  match skipSpace s with
  | [] => .error (.ahead .endInObject [])
  | b :: t => if b == 0x3A then .ok t else .error (.ahead .colonExpected (b :: t))

section Walks

variable {σ : Type}

def items (item : σ → List UInt8 → Except Fault (σ × List UInt8)) :
    (fuel : Nat) → (first : Bool) → σ → List UInt8 → Except Fault (σ × List UInt8)
  | 0, _, _, s => .error (.ahead .endInList s)
  | fuel + 1, first, acc, s =>
    match skipSpace s with
    | [] => .error (.ahead .endInList [])
    | b :: t =>
      if b == 0x5D then .ok (acc, t)
      else if first then
        match item acc (b :: t) with
        | .error e => .error e
        | .ok (acc, s) => items item fuel false acc s
      else if b != 0x2C then .error (.ahead .listEndExpected (b :: t))
      else match skipSpace t with
        | [] => .error (.ahead .endInValue [])
        | c :: u =>
          if c == 0x5D then .error (.ahead .trailingComma (c :: u))
          else match item acc (c :: u) with
            | .error e => .error e
            | .ok (acc, s) => items item fuel false acc s

/-- The members of an object after its bracket; the closing bracket is read too. The step gets the
key and the text after it, colon included. -/
def members (member : String → σ → List UInt8 → Except Fault (σ × List UInt8)) :
    (fuel : Nat) → (first : Bool) → σ → List UInt8 → Except Fault (σ × List UInt8)
  | 0, _, _, s => .error (.ahead .endInObject s)
  | fuel + 1, first, acc, s =>
    match skipSpace s with
    | [] => .error (.ahead .endInObject [])
    | b :: t =>
      if b == 0x7D then .ok (acc, t)
      else if first then
        if b != 0x22 then .error (.ahead .keyNotString (b :: t))
        else match Literal.read t with
          | .error e => .error e
          | .ok (key, s) =>
            match member key acc s with
            | .error e => .error e
            | .ok (acc, s) => members member fuel false acc s
      else if b != 0x2C then .error (.ahead .objectEndExpected (b :: t))
      else match skipSpace t with
        | [] => .error (.ahead .endInValue [])
        | c :: u =>
          if c == 0x7D then .error (.ahead .trailingComma (c :: u))
          else if c != 0x22 then .error (.ahead .keyNotString (c :: u))
          else match Literal.read u with
            | .error e => .error e
            | .ok (key, s) =>
              match member key acc s with
              | .error e => .error e
              | .ok (acc, s) => members member fuel false acc s

end Walks

/-- The value off the front of a text, where `depth` more brackets may be opened. -/
def readValue (fuel : Nat) : (depth : Nat) → List UInt8 → Except Fault (Value × List UInt8)
  | depth, s =>
    match skipSpace s with
    | [] => .error (.ahead .endInValue [])
    | b :: t =>
      if b == 0x6E then (readName ullName t).map (fun s => (.null, s))
      else if b == 0x74 then (readName rueName t).map (fun s => (.bool true, s))
      else if b == 0x66 then (readName alseName t).map (fun s => (.bool false, s))
      else if b == 0x2D then (Numeral.read true t).map (fun (n, s) => (.num n, s))
      else if Numeral.isDigit b then
        (Numeral.read false (b :: t)).map (fun (n, s) => (.num n, s))
      else if b == 0x22 then (Literal.read t).map (fun (x, s) => (.str x, s))
      else if b == 0x5B then
        match depth with
        | 0 => .error (.ahead .recursionLimit (b :: t))
        | depth + 1 =>
          (items (fun acc s => (readValue fuel depth s).map (fun (v, s) => (v :: acc, s)))
            fuel true [] t).map (fun (vs, s) => (.arr vs.reverse, s))
      else if b == 0x7B then
        match depth with
        | 0 => .error (.ahead .recursionLimit (b :: t))
        | depth + 1 =>
          (members (fun key acc s => do
              let s ← readColon s
              let (v, s) ← readValue fuel depth s
              return (Members.insert key v acc, s))
            fuel true [] t).map (fun (ms, s) => (.obj ms, s))
      else .error (.ahead .valueExpected (b :: t))

def readEnd (s : List UInt8) : Except Fault Unit :=
  match skipSpace s with
  | [] => .ok ()
  | s => .error (.ahead .trailingCharacters s)

def parse (text : List UInt8) : Except ReadError Value :=
  let read : Except Fault Value := do
    let (v, s) ← readValue text.length maxDepth text
    readEnd s
    return v
  read.mapError (·.locate text)

def Number.described (n : Number) : String :=
  let kind := match n with
    | .int _ => "integer"
    | .float _ _ => "floating point"
  kind ++ " `" ++ String.ofList n.render ++ "`"

/-- The fault of a text that starts with a value of the wrong type. Scalars are read first, so a
malformed scalar is reported as such; lists and objects are left unread. -/
def mistyped (expected : String) (s : List UInt8) : Fault :=
  let wrong (found : String) (s : List UInt8) : Fault := .after (.invalidType found expected) s
  match skipSpace s with
  | [] => .ahead .endInValue []
  | b :: t =>
    let fault : Except Fault Fault :=
      if b == 0x6E then (readName ullName t).map (wrong "null")
      else if b == 0x74 then (readName rueName t).map (wrong "boolean `true`")
      else if b == 0x66 then (readName alseName t).map (wrong "boolean `false`")
      else if b == 0x2D then (Numeral.read true t).map (fun (n, s) => wrong n.described s)
      else if Numeral.isDigit b then
        (Numeral.read false (b :: t)).map (fun (n, s) => wrong n.described s)
      else if b == 0x22 then
        (Literal.read t).map (fun (x, s) => wrong ("string " ++ Text.Quoted.quote x) s)
      else if b == 0x5B then .ok (wrong "sequence" (b :: t))
      else if b == 0x7B then .ok (wrong "map" (b :: t))
      else .ok (.ahead .valueExpected (b :: t))
    match fault with
    | .ok e => e
    | .error e => e

def parseObject (text : List UInt8) : Except ReadError Members :=
  let read : Except Fault Members :=
    match skipSpace text with
    | 0x7B :: t => do
      let (v, s) ← readValue text.length maxDepth (0x7B :: t)
      readEnd s
      return v.asMembers?.getD []
    | s => .error (mistyped "a map" s)
  read.mapError (·.locate text)

end Accession.Json
