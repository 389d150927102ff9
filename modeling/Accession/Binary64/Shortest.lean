import Accession.Binary64.Basic
set_option autoImplicit false

/-!
# Shortest decimal digits

The fewest decimal digits that read back as a given magnitude, and of these the nearest to it.
The numbers that round to a magnitude form an interval around it, with its ends when the
significand is even. For 1, 2, … digits the two neighbours of the value on the grid of that many
digits are tried; the first grid with a hit wins, of two hits the nearer, a tie goes to the even
digit. Seventeen digits always suffice.
-/
namespace Accession.Binary64

/-- `digits * 10 ^ exponent`, the digits without trailing zeros. -/
structure Decimal where
  digits : Nat
  exponent : Int
deriving DecidableEq, Repr

/-- The value in quarters of the last place, with the interval of numbers that round to it, all
over one denominator. -/
structure Window where
  value : Nat
  low : Nat
  high : Nat
  den : Nat
  closed : Bool

namespace Magnitude

def window (x : Magnitude) : Window :=
  let m := x.significand
  let below := if m == Nat.pow 2 52 && minExponent < x.exponent then 1 else 2
  let e := x.exponent - 2
  let unit := if 0 ≤ e then Nat.pow 2 e.toNat else 1
  let den := if 0 ≤ e then 1 else Nat.pow 2 (-e).toNat
  { value := 4 * m * unit
    low := (4 * m - below) * unit
    high := (4 * m + 2) * unit
    den := den
    closed := m % 2 == 0 }

end Magnitude

def Window.holds (w : Window) (d : Nat) (k : Int) : Bool :=
  let up := if 0 ≤ k then d * Nat.pow 10 k.toNat * w.den else d * w.den
  let unit := if 0 ≤ k then 1 else Nat.pow 10 (-k).toNat
  if w.closed then w.low * unit ≤ up && up ≤ w.high * unit
  else w.low * unit < up && up < w.high * unit

def Window.over (w : Window) (k : Int) : Nat × Nat :=
  if 0 ≤ k then (w.value, w.den * Nat.pow 10 k.toNat) else (w.value * Nat.pow 10 (-k).toNat, w.den)

def Window.hit? (w : Window) (k : Int) : Option Nat :=
  let (n, d) := w.over k
  let q := n / d
  match w.holds q k, w.holds (q + 1) k with
  | true, true => some (nearestEven n d)
  | true, false => some q
  | false, true => some (q + 1)
  | false, false => none

/-- The number of digits before the point of `num / den`, negative for leading zeros after it. -/
def magnitudeOfTen (num den : Nat) : Int :=
  let guess : Int := ((num.log2 : Int) - (den.log2 : Int)) * 30103 / 100000 - 1
  let reaches (k : Int) : Bool :=
    if 0 ≤ k then den * Nat.pow 10 k.toNat ≤ num else den ≤ num * Nat.pow 10 (-k).toNat
  if reaches (guess + 2) then guess + 3
  else if reaches (guess + 1) then guess + 2
  else if reaches guess then guess + 1
  else guess

def shortestFrom (w : Window) (top : Int) : (tries : Nat) → (digits : Nat) → Option Decimal
  | 0, _ => none
  | tries + 1, digits =>
    match w.hit? (top - digits) with
    | some d => some ⟨d, top - digits⟩
    | none => shortestFrom w top tries (digits + 1)

def dropTrailingZeros (d : Nat) (k : Int) : (places : Nat) → Decimal
  | 0 => ⟨d, k⟩
  | places + 1 => if d % 10 == 0 then dropTrailingZeros (d / 10) (k + 1) places else ⟨d, k⟩

def Magnitude.shortest (x : Magnitude) : Decimal :=
  if x.isZero then ⟨0, 0⟩
  else
    let w := x.window
    match shortestFrom w (magnitudeOfTen w.value w.den) 17 1 with
    | some r => dropTrailingZeros r.digits r.exponent 18
    | none => ⟨x.significand, 0⟩

end Accession.Binary64
