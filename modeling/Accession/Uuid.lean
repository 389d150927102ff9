set_option autoImplicit false

namespace Accession

structure Uuid where
  digits : List (Fin 16)
  length_digits : digits.length = 32 := by decide
deriving DecidableEq, Repr

namespace Uuid

def zero : Uuid := ⟨List.replicate 32 0, by decide⟩

instance : Inhabited Uuid := ⟨zero⟩

def digit? (c : Char) : Option (Fin 16) :=
  let n := c.toNat
  if 48 ≤ n && n ≤ 57 then some (Fin.ofNat 16 (n - 48))
  else if 65 ≤ n && n ≤ 70 then some (Fin.ofNat 16 (n - 55))
  else if 97 ≤ n && n ≤ 102 then some (Fin.ofNat 16 (n - 87))
  else none

def digitChar (d : Fin 16) : Char :=
  Nat.digitChar d.val

def groups : List Nat := [8, 4, 4, 4, 12]

/-- Groups of the given lengths joined by hyphens; what is left is the last group. -/
def group : List Nat → List Char → List Char
  | n :: m :: ns, cs => cs.take n ++ '-' :: group (m :: ns) (cs.drop n)
  | _, cs => cs

def ungroup? : List Nat → List Char → Option (List Char)
  | n :: m :: ns, cs =>
    match cs.drop n with
    | '-' :: rest => (ungroup? (m :: ns) rest).map (cs.take n ++ ·)
    | _ => none
  | _, cs => some cs

def ofDigits? (cs : List Char) : Option Uuid :=
  (cs.mapM digit?).bind (fun ds => if h : ds.length = 32 then some ⟨ds, h⟩ else none)

def ofGroups? (cs : List Char) : Option Uuid :=
  (ungroup? groups cs).bind ofDigits?

def scheme : List Char := ['u', 'r', 'n', ':', 'u', 'u', 'i', 'd', ':']

def parse? (s : String) : Option Uuid :=
  let cs := s.toList
  if cs.length == 32 then ofDigits? cs
  else if cs.length == 36 then ofGroups? cs
  else if cs.length == 38 && cs.head? == some '\x7b' && cs.getLast? == some '\x7d' then
    ofGroups? (cs.drop 1).dropLast
  else if cs.length == 45 && (cs.take 9).map Char.toLower == scheme then ofGroups? (cs.drop 9)
  else none

def render (u : Uuid) : String :=
  String.ofList (group groups (u.digits.map digitChar))

end Uuid

end Accession
