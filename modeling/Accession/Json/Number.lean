import Accession.Binary64.Shortest
import Accession.Json.Basic
import Accession.Text.Integer
set_option autoImplicit false

namespace Accession.Json

/-- The layout of a decimal of digits `d` with `point` digits before the point. -/
def layout (d : List Char) (point : Int) : List Char :=
  if 0 < point && point ≤ 16 then
    let whole := point.toNat
    if d.length ≤ whole then d ++ List.replicate (whole - d.length) '0' ++ ['.', '0']
    else d.take whole ++ '.' :: d.drop whole
  else if -5 < point && point ≤ 0 then
    '0' :: '.' :: (List.replicate (-point).toNat '0' ++ d)
  else
    let head := match d with
      | [] => []
      | [c] => [c]
      | c :: rest => c :: '.' :: rest
    let e := point - 1
    head ++ 'e' :: (if e < 0 then '-' else '+') :: Nat.toDigits 10 e.natAbs

def Number.render : Number → List Char
  | .int n => (Text.Integer.write n).toList
  | .float negative m =>
    let text :=
      if m.isZero then ['0', '.', '0']
      else
        let d := m.shortest
        let digits := Nat.toDigits 10 d.digits
        layout digits (d.exponent + digits.length)
    if negative then '-' :: text else text

end Accession.Json
