import Accession.Binary64.Basic
import Accession.Text.Integer
import Accession.Toml.Basic
import Accession.Toml.Lexical
set_option autoImplicit false

namespace Accession.Toml.Numeral

open Text.Integer (isDigit digit)

def digitIn? (base : Nat) (c : Char) : Option Nat :=
  let d :=
    if isDigit c then digit c
    else if 'A' ≤ c && c ≤ 'F' then c.toNat - 55
    else if 'a' ≤ c && c ≤ 'f' then c.toNat - 87
    else base
  if d < base then some d else none

def digits (base : Nat) : List Char → Option (List Nat × List Char)
  | [] => none
  | c :: s =>
    match digitIn? base c with
    | none => none
    | some d =>
      match s with
      | [] => some ([d], [])
      | c' :: s' =>
        if c' == '_' then (digits base s').map (fun (ds, s) => (d :: ds, s))
        else if (digitIn? base c').isSome then
          (digits base (c' :: s')).map (fun (ds, s) => (d :: ds, s))
        else some ([d], c' :: s')

def value (base : Nat) (ds : List Nat) : Nat :=
  ds.foldl (fun n d => n * base + d) 0

def sign : List Char → Bool × List Char
  | '+' :: s => (false, s)
  | '-' :: s => (true, s)
  | s => (false, s)

/-- Decimal digits that do not start with a zero, or a zero alone. -/
def wholeDigits : List Char → Option (List Nat × List Char)
  | '0' :: s => some ([0], s)
  | s => digits 10 s

def exponent (s : List Char) : Option (Int × List Char) :=
  let (negative, s) := sign s
  (digits 10 s).map (fun (ds, s) =>
    (if negative then -(value 10 ds : Int) else (value 10 ds : Int), s))

def startsExponent : List Char → Option (List Char)
  | c :: s => if c == 'e' || c == 'E' then some s else none
  | [] => none

/-- Whether `digits * 10 ^ e` rounds to a finite number of the 64-bit binary format. A number of
more than 309 digits before the point does not, one of fewer does. -/
def isFinite (digits : Nat) (e : Int) : Bool :=
  let places := ((Nat.toDigits 10 digits).length : Int) + e
  digits == 0 || places < 309
    || (places == 309
      && (Binary64.round (digits * Nat.pow 10 e.toNat) (Nat.pow 10 (-e).toNat)).isSome)

def floatTail (s : List Char) : Option (Option (List Nat × Int × List Char)) :=
  match s with
  | '.' :: s => do
    let (fraction, s) ← digits 10 s
    match startsExponent s with
    | none => return some (fraction, 0, s)
    | some s => do
      let (e, s) ← exponent s
      return some (fraction, e, s)
  | s =>
    match startsExponent s with
    | none => some none
    | some s => do
      let (e, s) ← exponent s
      return some ([], e, s)

def upTo (s rest : List Char) : String :=
  String.ofList (s.take (s.length - rest.length))

def fits (n : Int) : Option Int :=
  if Text.Integer.min64 ≤ n && n ≤ Text.Integer.max64 then some n else none

def decimal (s : List Char) : Option (Value × List Char) := do
  let (negative, unsigned) := sign s
  let (whole, rest) ← wholeDigits unsigned
  match ← floatTail rest with
  | none =>
    let n : Int := value 10 whole
    let n ← fits (if negative then -n else n)
    return (.integer n, rest)
  | some (fraction, e, rest) =>
    if negative || isFinite (value 10 (whole ++ fraction)) (e - fraction.length) then
      return (.float (upTo s rest), rest)
    else none

def inBase (base : Nat) (s : List Char) : Option (Value × List Char) := do
  let (ds, rest) ← digits base s
  let n ← fits (value base ds)
  return (.integer n, rest)

def read (s : List Char) : Option (Value × List Char) :=
  match s with
  | '0' :: 'x' :: s => inBase 16 s
  | '0' :: 'o' :: s => inBase 8 s
  | '0' :: 'b' :: s => inBase 2 s
  | s =>
    let unsigned := (sign s).2
    match (afterWord ['i', 'n', 'f'] unsigned).or (afterWord ['n', 'a', 'n'] unsigned) with
    | some rest => some (.float (upTo s rest), rest)
    | none => decimal s

end Accession.Toml.Numeral
