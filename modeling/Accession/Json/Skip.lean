import Accession.Json.Literal
import Accession.Json.Numeral
import Accession.Json.Reader
set_option autoImplicit false

namespace Accession.Json

inductive Bracket where
  | list
  | object
deriving DecidableEq, Repr

namespace Bracket

def closing : Bracket → UInt8
  | .list => 0x5D
  | .object => 0x7D

def ended : Bracket → Cause
  | .list => .endInList
  | .object => .endInObject

def separatorExpected : Bracket → Cause
  | .list => .listEndExpected
  | .object => .objectEndExpected

end Bracket

def skipKey (s : List UInt8) : Except Fault (List UInt8) :=
  match skipSpace s with
  | [] => .error (.ahead .endInObject [])
  | b :: t =>
    if b != 0x22 then .error (.ahead .keyNotString (b :: t))
    else do
      let s ← Literal.pass t
      readColon s

def skipScalar (b : UInt8) (t : List UInt8) : Except Fault (List UInt8) :=
  if b == 0x6E then readName ullName t
  else if b == 0x74 then readName rueName t
  else if b == 0x66 then readName alseName t
  else if b == 0x2D then Numeral.pass t
  else if Numeral.isDigit b then Numeral.pass (b :: t)
  else if b == 0x22 then Literal.pass t
  else .error (.ahead .valueExpected (b :: t))

mutual

def skipWithin (fuel : Nat) (opened : List Bracket) (s : List UInt8) :
    Except Fault (List UInt8) :=
  match fuel with
  | 0 => .error (.ahead .endInValue s)
  | fuel + 1 =>
    match skipSpace s with
    | [] => .error (.ahead .endInValue [])
    | b :: t =>
      if b == 0x5B then skipRest fuel (.list :: opened) false t
      else if b == 0x7B then skipRest fuel (.object :: opened) false t
      else
        match skipScalar b t with
        | .error e => .error e
        | .ok s => skipRest fuel opened true s

/-- What follows a value, or the bracket that was just opened. -/
def skipRest (fuel : Nat) (opened : List Bracket) (afterValue : Bool) (s : List UInt8) :
    Except Fault (List UInt8) :=
  match fuel, opened with
  | _, [] => .ok s
  | 0, _ => .error (.ahead .endInValue s)
  | fuel + 1, bracket :: outer =>
    match skipSpace s with
    | [] => .error (.ahead bracket.ended [])
    | b :: t =>
      if b == bracket.closing then skipRest fuel outer true t
      else if afterValue && b != 0x2C then
        .error (.ahead bracket.separatorExpected (b :: t))
      else
        let s := if afterValue then t else b :: t
        match bracket with
        | .list => skipWithin fuel (bracket :: outer) s
        | .object =>
          match skipKey s with
          | .error e => .error e
          | .ok s => skipWithin fuel (bracket :: outer) s

end

def skip (s : List UInt8) : Except Fault (List UInt8) :=
  skipWithin (2 * s.length + 1) [] s

end Accession.Json
