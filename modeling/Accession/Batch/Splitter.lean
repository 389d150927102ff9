import Accession.Text.Utf8
set_option autoImplicit false

/-!
# Cutting a stream into records

A batch is an array of objects or a sequence of objects, with white space between them. The
splitter finds where each object begins and ends without parsing it: it counts open brackets of
either kind outside string literals. `push` takes one octet; `feed` takes octets up to the end of
the next record. An octet that does not fit leaves the splitter as it was.
-/
namespace Accession.Batch

inductive Framing where
  | array
  | sequence
deriving DecidableEq, Repr

inductive Quotation where
  | outside
  | inside
  | escaped
deriving DecidableEq, Repr

inductive Splitter where
  | start
  | arrayOpen
  | arrayComma
  | arrayAfterRecord
  | arrayClosed
  | betweenRecords
  /-- In a record: its open brackets and its octets so far, last first. -/
  | record (framing : Framing) (depth : Nat) (quotation : Quotation) (octets : List UInt8)
deriving DecidableEq, Repr

inductive FramingError where
  | dataAfterArray
  | separatorExpected (found : UInt8)
  | trailingComma
  | batchExpected (found : UInt8)
  | objectExpected (found : UInt8)
  | endInRecord
  | endInArray
deriving DecidableEq, Repr

def FramingError.message : FramingError → String
  | .dataAfterArray => "unexpected data after the closing ']'"
  | .separatorExpected b =>
    "expected ',' or ']' but found '" ++ String.singleton (Text.Utf8.latin1 b) ++ "'"
  | .trailingComma => "trailing ',' before ']'"
  | .batchExpected b =>
    "expected a JSON array or object but found '" ++ String.singleton (Text.Utf8.latin1 b) ++ "'"
  | .objectExpected b =>
    "expected a JSON object but found '" ++ String.singleton (Text.Utf8.latin1 b) ++ "'"
  | .endInRecord => "unexpected end of stream inside a record"
  | .endInArray => "unexpected end of stream: array was not closed"

/-- White space between records: the space, tab, line feed, form feed and carriage return. -/
def isGap (b : UInt8) : Bool :=
  b == 0x20 || b == 0x09 || b == 0x0A || b == 0x0C || b == 0x0D

def isOpening (b : UInt8) : Bool :=
  b == 0x7B || b == 0x5B

def isClosing (b : UInt8) : Bool :=
  b == 0x7D || b == 0x5D

def Framing.after : Framing → Splitter
  | .array => .arrayAfterRecord
  | .sequence => .betweenRecords

def Quotation.next (q : Quotation) (b : UInt8) : Quotation :=
  match q with
  | .outside => if b == 0x22 then .inside else .outside
  | .inside => if b == 0x5C then .escaped else if b == 0x22 then .outside else .inside
  | .escaped => .inside

def Quotation.depth (q : Quotation) (depth : Nat) (b : UInt8) : Nat :=
  match q with
  | .outside => if isOpening b then depth + 1 else if isClosing b then depth - 1 else depth
  | _ => depth

namespace Splitter

def begin (framing : Framing) (b : UInt8) : Splitter :=
  .record framing 1 .outside [b]

/-- The state after an octet, and the record that it completes. -/
def push : Splitter → UInt8 → Except FramingError (Splitter × Option (List UInt8))
  | .record framing depth quotation octets, b =>
    let depth := quotation.depth depth b
    if depth == 0 then .ok (framing.after, some (b :: octets).reverse)
    else .ok (.record framing depth (quotation.next b) (b :: octets), none)
  | state, b =>
    if isGap b then .ok (state, none)
    else match state with
      | .start =>
        if b == 0x5B then .ok (.arrayOpen, none)
        else if b == 0x7B then .ok (begin .sequence b, none)
        else .error (.batchExpected b)
      | .arrayOpen =>
        if b == 0x7B then .ok (begin .array b, none)
        else if b == 0x5D then .ok (.arrayClosed, none)
        else .error (.objectExpected b)
      | .arrayComma =>
        if b == 0x7B then .ok (begin .array b, none)
        else if b == 0x5D then .error .trailingComma
        else .error (.objectExpected b)
      | .arrayAfterRecord =>
        if b == 0x5D then .ok (.arrayClosed, none)
        else if b == 0x2C then .ok (.arrayComma, none)
        else .error (.separatorExpected b)
      | .arrayClosed => .error .dataAfterArray
      | .betweenRecords =>
        if b == 0x7B then .ok (begin .sequence b, none) else .error (.objectExpected b)
      | state => .ok (state, none)

def finish : Splitter → Except FramingError Unit
  | .start | .betweenRecords | .arrayClosed => .ok ()
  | .record .. => .error .endInRecord
  | .arrayOpen | .arrayComma | .arrayAfterRecord => .error .endInArray

inductive Feed where
  | taken (state : Splitter)
  | piece (state : Splitter) (record rest : List UInt8)
  | refused (state : Splitter) (error : FramingError)
deriving Repr

def feed (state : Splitter) : List UInt8 → Feed
  | [] => .taken state
  | b :: rest =>
    match state.push b with
    | .error e => .refused state e
    | .ok (state, some octets) => .piece state octets rest
    | .ok (state, none) => feed state rest

end Splitter

end Accession.Batch
