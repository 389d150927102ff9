import Accession.Text.Integer
set_option autoImplicit false

namespace Accession.Json

inductive Category where
  | malformed
  | shape
  | ended
deriving DecidableEq, Repr

inductive Cause where
  | endInValue
  | endInList
  | endInObject
  | endInString
  | valueExpected
  | colonExpected
  | listEndExpected
  | objectEndExpected
  | literalExpected
  | keyNotString
  | invalidEscape
  | endOfHexEscape
  | loneSurrogate
  | invalidUnicode
  | controlCharacter
  | invalidNumber
  | numberOutOfRange
  | trailingComma
  | trailingCharacters
  | recursionLimit
  | invalidType (found : String) (expected : String)
  | invalidLength (found : Nat) (expected : String)
  | missingField (name : String)
  | duplicateField (name : String)
deriving DecidableEq, Repr

namespace Cause

def category : Cause → Category
  | .endInValue | .endInList | .endInObject | .endInString => .ended
  | .invalidType _ _ | .invalidLength _ _ | .missingField _ | .duplicateField _ => .shape
  | _ => .malformed

def message : Cause → String
  | .endInValue => "EOF while parsing a value"
  | .endInList => "EOF while parsing a list"
  | .endInObject => "EOF while parsing an object"
  | .endInString => "EOF while parsing a string"
  | .valueExpected => "expected value"
  | .colonExpected => "expected `:`"
  | .listEndExpected => "expected `,` or `]`"
  | .objectEndExpected => "expected `,` or `\x7d`"
  | .literalExpected => "expected ident"
  | .keyNotString => "key must be a string"
  | .invalidEscape => "invalid escape"
  | .endOfHexEscape => "unexpected end of hex escape"
  | .loneSurrogate => "lone leading surrogate in hex escape"
  | .invalidUnicode => "invalid unicode code point"
  | .controlCharacter => "control character (\\u0000-\\u001F) found while parsing a string"
  | .invalidNumber => "invalid number"
  | .numberOutOfRange => "number out of range"
  | .trailingComma => "trailing comma"
  | .trailingCharacters => "trailing characters"
  | .recursionLimit => "recursion limit exceeded"
  | .invalidType found expected => "invalid type: " ++ found ++ ", expected " ++ expected
  | .invalidLength found expected =>
    "invalid length " ++ Text.Integer.write found ++ ", expected " ++ expected
  | .missingField name => "missing field `" ++ name ++ "`"
  | .duplicateField name => "duplicate field `" ++ name ++ "`"

end Cause

structure ReadError where
  cause : Cause
  line : Nat
  column : Nat
  part : Option String := none
deriving DecidableEq, Repr

namespace ReadError

def category (e : ReadError) : Category :=
  e.cause.category

def message (e : ReadError) : String :=
  (e.part.map (· ++ ": ")).getD "" ++ e.cause.message
    ++ " at line " ++ Text.Integer.write e.line ++ " column " ++ Text.Integer.write e.column

end ReadError

/-- A cause before its place is known: `rest` is the text not read yet, and `shift` moves the place
from the end of what was read. -/
structure Fault where
  cause : Cause
  rest : List UInt8
  shift : Int
  part : Option String := none
deriving DecidableEq, Repr

namespace Fault

def ahead (cause : Cause) (rest : List UInt8) : Fault :=
  { cause, rest, shift := 1 }

def after (cause : Cause) (rest : List UInt8) : Fault :=
  { cause, rest, shift := 0 }

def inPart (part : String) (f : Fault) : Fault :=
  { f with part := some part }

/-- The number of octets of `text` before the place, at most all of them. -/
def offset (f : Fault) (text : List UInt8) : Nat :=
  min text.length ((text.length : Int) - f.rest.length + f.shift).toNat

def count (seen : List UInt8) : Nat × Nat :=
  seen.foldl
    (fun (p : Nat × Nat) (b : UInt8) => if b == 0x0A then (p.1 + 1, 0) else (p.1, p.2 + 1)) (1, 0)

def locate (f : Fault) (text : List UInt8) : ReadError :=
  let (line, column) := count (text.take (f.offset text))
  { cause := f.cause, line, column, part := f.part }

end Fault

end Accession.Json
