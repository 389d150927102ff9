import Accession.Json.Error
import Accession.Json.Basic
set_option autoImplicit false

/-!
# Numbers in JSON text

A numeral is an optional minus sign, an integer part without a superfluous zero, and optionally a
fraction and an exponent. Integers of 64 bits are exact. Any other number keeps the digits that fit
an unsigned integer of 64 bits and counts the rest into the power of ten; the value is then
`digits * 10 ^ exponent` in binary arithmetic, which need not be the number nearest to the text.
`pass` goes over a numeral without taking its value.
-/
namespace Accession.Json.Numeral

open Binary64 (Magnitude)

def isDigit (b : UInt8) : Bool :=
  0x30 ≤ b && b ≤ 0x39

def digit (b : UInt8) : Nat :=
  b.toNat - 0x30

def startsWithDigit : List UInt8 → Bool
  | b :: _ => isDigit b
  | [] => false

def startsExponent (b : UInt8) : Bool :=
  b == 0x65 || b == 0x45

/-- Digits as long as the value fits, with their number. -/
def fitting (n count : Nat) : List UInt8 → Nat × Nat × List UInt8
  | [] => (n, count, [])
  | b :: s =>
    if isDigit b && n * 10 + digit b ≤ Text.Integer.maxUnsigned64 then
      fitting (n * 10 + digit b) (count + 1) s
    else (n, count, b :: s)

def run (count : Nat) : List UInt8 → Nat × List UInt8
  | [] => (count, [])
  | b :: s => if isDigit b then run (count + 1) s else (count, b :: s)

def finish (digits : Nat) (exponent : Int) (s : List UInt8) :
    Except Fault (Magnitude × List UInt8) :=
  match Binary64.ofDecimal digits exponent with
  | some m => .ok (m, s)
  | none => .error (.after .numberOutOfRange s)

/-- The largest exponent that is taken as a number. -/
def maxExponent : Nat := 2147483647

/-- The digits of an exponent, or what follows the digit that makes it too large. -/
def exponentDigits (e : Nat) : List UInt8 → Except (List UInt8) (Nat × List UInt8)
  | [] => .ok (e, [])
  | b :: s =>
    if !isDigit b then .ok (e, b :: s)
    else if maxExponent < e * 10 + digit b then .error s
    else exponentDigits (e * 10 + digit b) s

def exponentSign : List UInt8 → Bool × List UInt8
  | 0x2B :: s => (false, s)
  | 0x2D :: s => (true, s)
  | s => (false, s)

def exponent (digits : Nat) (shift : Int) (s : List UInt8) :
    Except Fault (Magnitude × List UInt8) :=
  let (negative, s) := exponentSign s
  match s with
  | [] => .error (.after .endInValue [])
  | b :: s =>
    if !isDigit b then .error (.after .invalidNumber s)
    else match exponentDigits (digit b) s with
      | .ok (e, s) => finish digits (if negative then shift - e else shift + e) s
      | .error s =>
        if digits != 0 && !negative then .error (.after .numberOutOfRange s)
        else .ok (Magnitude.zero, (run 0 s).2)

def exponentOrEnd (digits : Nat) (shift : Int) : List UInt8 → Except Fault (Magnitude × List UInt8)
  | [] => finish digits shift []
  | b :: s => if startsExponent b then exponent digits shift s else finish digits shift (b :: s)

def fraction (digits : Nat) (shift : Int) (s : List UInt8) :
    Except Fault (Magnitude × List UInt8) :=
  let (digits, count, s) := fitting digits 0 s
  if startsWithDigit s then exponentOrEnd digits (shift - count) (run 0 s).2
  else if count == 0 then
    match s with
    | [] => .error (.ahead .endInValue [])
    | _ => .error (.ahead .invalidNumber s)
  else exponentOrEnd digits (shift - count) s

def fractionOrEnd (digits : Nat) (shift : Int) : List UInt8 → Except Fault (Magnitude × List UInt8)
  | [] => finish digits shift []
  | b :: s =>
    if b == 0x2E then fraction digits shift s
    else if startsExponent b then exponent digits shift s
    else finish digits shift (b :: s)

def float (negative : Bool) (r : Except Fault (Magnitude × List UInt8)) :
    Except Fault (Number × List UInt8) :=
  r.map (fun (m, s) => (.float negative m, s))

def integer (negative : Bool) (n : Nat) (s : List UInt8) : Except Fault (Number × List UInt8) :=
  if !negative then .ok (.int n, s)
  else if 0 < n && n ≤ 9223372036854775808 then .ok (.int (-(n : Int)), s)
  else float true (finish n 0 s)

def afterInteger (negative : Bool) (n : Nat) : List UInt8 → Except Fault (Number × List UInt8)
  | [] => integer negative n []
  | b :: s =>
    if b == 0x2E then float negative (fraction n 0 s)
    else if startsExponent b then float negative (exponent n 0 s)
    else integer negative n (b :: s)

def read (negative : Bool) : List UInt8 → Except Fault (Number × List UInt8)
  | [] => .error (.after .endInValue [])
  | b :: s =>
    if b == 0x30 then
      if startsWithDigit s then .error (.ahead .invalidNumber s) else afterInteger negative 0 s
    else if !isDigit b then .error (.after .invalidNumber s)
    else
      let (n, _, s) := fitting (digit b) 1 s
      if startsWithDigit s then
        let (dropped, s) := run 0 s
        float negative (fractionOrEnd n dropped s)
      else afterInteger negative n s

def passExponent (s : List UInt8) : Except Fault (List UInt8) :=
  match (exponentSign s).2 with
  | [] => .error (.after .invalidNumber [])
  | b :: s => if isDigit b then .ok (run 0 s).2 else .error (.after .invalidNumber s)

def passFraction (s : List UInt8) : Except Fault (List UInt8) :=
  match run 0 s with
  | (0, s) => .error (.ahead .invalidNumber s)
  | (_, []) => .ok []
  | (_, b :: s) => if startsExponent b then passExponent s else .ok (b :: s)

def passAfterInteger : List UInt8 → Except Fault (List UInt8)
  | [] => .ok []
  | b :: s =>
    if b == 0x2E then passFraction s
    else if startsExponent b then passExponent s
    else .ok (b :: s)

def pass : List UInt8 → Except Fault (List UInt8)
  | [] => .error (.after .invalidNumber [])
  | b :: s =>
    if b == 0x30 then
      if startsWithDigit s then .error (.ahead .invalidNumber s) else passAfterInteger s
    else if !isDigit b then .error (.after .invalidNumber s)
    else passAfterInteger (run 0 s).2

end Accession.Json.Numeral
