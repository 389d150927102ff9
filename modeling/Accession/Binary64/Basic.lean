set_option autoImplicit false

/-!
# Binary floating-point magnitudes

A `Magnitude` is `significand * 2 ^ exponent`: at most 53 bits over an exponent from −1074 to 971,
the finite non-negative values of the 64-bit binary format. `round` takes a ratio of natural numbers
to the nearest of them, a tie to the even significand, and is `none` where the nearest would be
infinite. Multiplication and division are exact ratios that are rounded once. All of it is
arithmetic on natural numbers.
-/
namespace Accession.Binary64

structure Magnitude where
  significand : Nat
  exponent : Int
deriving DecidableEq, Repr

def minExponent : Int := -1074
def maxExponent : Int := 971

def significandLimit : Nat := Nat.pow 2 53

def Magnitude.zero : Magnitude := ⟨0, minExponent⟩

namespace Magnitude

def isZero (x : Magnitude) : Bool :=
  x.significand == 0

def ratio (x : Magnitude) : Nat × Nat :=
  if 0 ≤ x.exponent then (x.significand * Nat.pow 2 x.exponent.toNat, 1)
  else (x.significand, Nat.pow 2 (-x.exponent).toNat)

end Magnitude

def nearestEven (num den : Nat) : Nat :=
  let q := num / den
  let r := num % den
  if 2 * r < den then q
  else if den < 2 * r then q + 1
  else if q % 2 == 0 then q else q + 1

def scaled (num den : Nat) (e : Int) : Nat × Nat :=
  if 0 ≤ e then (num, den * Nat.pow 2 e.toNat) else (num * Nat.pow 2 (-e).toNat, den)

/-- The exponent that leaves a significand of 53 bits, but never below the least one. -/
def exponentFor (num den : Nat) : Int :=
  let e : Int := max minExponent ((num.log2 : Int) - (den.log2 : Int) - 53)
  let (n, d) := scaled num den e
  if significandLimit ≤ n / d then e + 1 else e

def round (num den : Nat) : Option Magnitude :=
  if num == 0 then some Magnitude.zero
  else
    let e := exponentFor num den
    let (n, d) := scaled num den e
    let m := nearestEven n d
    let (m, e) := if m == significandLimit then (Nat.pow 2 52, e + 1) else (m, e)
    if maxExponent < e then none else some ⟨m, e⟩

def ofNat (n : Nat) : Option Magnitude :=
  round n 1

namespace Magnitude

def mul (x y : Magnitude) : Option Magnitude :=
  let (a, b) := x.ratio
  let (c, d) := y.ratio
  round (a * c) (b * d)

def div (x y : Magnitude) : Option Magnitude :=
  let (a, b) := x.ratio
  let (c, d) := y.ratio
  round (a * d) (b * c)

end Magnitude

def maxPowerOfTen : Nat := 308

def powerOfTen (k : Nat) : Option Magnitude :=
  ofNat (Nat.pow 10 k)

/-- `x * 10 ^ e` for an exponent within ±308, rounded once. -/
def scaleWithin (x : Magnitude) (e : Int) : Option Magnitude :=
  if 0 ≤ e then (powerOfTen e.toNat).bind x.mul else (powerOfTen (-e).toNat).bind x.div

/-- `x * 10 ^ e`. Exponents above 308 are out of range; below −308 the largest power of ten is
divided away, at most `steps` times, until the rest is in reach or nothing is left. -/
def scaleByTen (x : Magnitude) (e : Int) : (steps : Nat) → Option Magnitude
  | 0 => scaleWithin x e
  | steps + 1 =>
    if e.natAbs ≤ maxPowerOfTen then scaleWithin x e
    else if x.isZero then some x
    else if 0 ≤ e then none
    else ((powerOfTen maxPowerOfTen).bind x.div).bind
      (fun y => scaleByTen y (e + maxPowerOfTen) steps)

/-- The value read for an integer of decimal digits and a power of ten. -/
def ofDecimal (digits : Nat) (e : Int) : Option Magnitude :=
  (ofNat digits).bind (fun x => scaleByTen x e (e.natAbs / maxPowerOfTen + 1))

end Accession.Binary64
