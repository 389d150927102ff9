set_option autoImplicit false

namespace Accession.Text.Integer

def isDigit (c : Char) : Bool :=
  '0' ≤ c && c ≤ '9'

def digit (c : Char) : Nat :=
  c.toNat - '0'.toNat

def value (cs : List Char) : Nat :=
  cs.foldl (fun n c => n * 10 + digit c) 0

def digits? (cs : List Char) : Option Nat :=
  if cs.isEmpty || !cs.all isDigit then none else some (value cs)

def read? (s : String) : Option Int :=
  match s.toList with
  | '-' :: cs => (digits? cs).map (fun n => -(n : Int))
  | '+' :: cs => (digits? cs).map (fun n => (n : Int))
  | cs => (digits? cs).map (fun n => (n : Int))

def readWithin? (low high : Int) (s : String) : Option Int :=
  (read? s).filter (fun n => low ≤ n && n ≤ high)

def min64 : Int := -9223372036854775808
def max64 : Int := 9223372036854775807
def maxUnsigned64 : Nat := 18446744073709551615
def maxUnsigned32 : Nat := 4294967295

def read64? (s : String) : Option Int :=
  readWithin? min64 max64 s

def read32? (s : String) : Option Int :=
  readWithin? (-2147483648) 2147483647 s

def write (n : Int) : String :=
  match n with
  | .ofNat m => String.ofList (Nat.toDigits 10 m)
  | .negSucc m => String.ofList ('-' :: Nat.toDigits 10 (m + 1))

end Accession.Text.Integer
