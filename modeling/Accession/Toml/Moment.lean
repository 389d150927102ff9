import Accession.Toml.Numeral
set_option autoImplicit false

namespace Accession.Toml.Moment

open Text.Integer (isDigit digit)

def fixedOnto (value : Nat) : (n : Nat) → List Char → Option (Nat × List Char)
  | 0, s => some (value, s)
  | _ + 1, [] => none
  | n + 1, c :: s =>
    if isDigit c then fixedOnto (value * 10 + digit c) n s else none

def fixed (n low high : Nat) (s : List Char) : Option (Nat × List Char) :=
  (fixedOnto 0 n s).filter (fun (v, _) => low ≤ v && v ≤ high)

def isLeap (year : Nat) : Bool :=
  year % 4 == 0 && (year % 100 != 0 || year % 400 == 0)

def daysIn (year month : Nat) : Nat :=
  if month == 2 then (if isLeap year then 29 else 28)
  else if [4, 6, 9, 11].contains month then 30
  else 31

def afterDate (s : List Char) : Option (List Char) := do
  let (year, s) ← fixed 4 0 9999 s
  let (month, s) ← afterWord ['-'] s >>= fixed 2 1 12
  let (_, s) ← afterWord ['-'] s >>= fixed 2 1 (daysIn year month)
  return s

def afterTime (s : List Char) : Option (List Char) := do
  let (_, s) ← fixed 2 0 23 s
  let (_, s) ← afterWord [':'] s >>= fixed 2 0 59
  let (_, s) ← afterWord [':'] s >>= fixed 2 0 60
  match s with
  | '.' :: c :: t =>
    return if isDigit c then t.dropWhile isDigit else s
  | _ => return s

def skipOffset : List Char → List Char
  | [] => []
  | c :: s =>
    if c == 'Z' || c == 'z' then s
    else if c == '+' || c == '-' then
      let rest := do
        let (_, s) ← fixed 2 0 23 s
        let (_, s) ← afterWord [':'] s >>= fixed 2 0 59
        return s
      rest.getD (c :: s)
    else c :: s

def after (s : List Char) : Option (List Char) :=
  match afterDate s with
  | none => afterTime s
  | some [] => some []
  | some (c :: rest) =>
    if c == 'T' || c == 't' || c == ' ' then
      match afterTime rest with
      | some rest => some (skipOffset rest)
      | none => some (c :: rest)
    else some (c :: rest)

def read (s : List Char) : Option (Value × List Char) :=
  (after s).map (fun rest => (.moment (Numeral.upTo s rest), rest))

end Accession.Toml.Moment
