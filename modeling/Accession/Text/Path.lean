set_option autoImplicit false

namespace Accession.Text.Path

def split : List Char → List (List Char)
  | [] => [[]]
  | c :: cs =>
    if c == '/' then [] :: split cs
    else match split cs with
      | [] => [[c]]
      | part :: parts => (c :: part) :: parts

def join (parts : List (List Char)) : List Char :=
  List.intercalate ['/'] parts

def isAbsolute (path : String) : Bool :=
  path.toList.head? == some '/'

/-- A slash comes between unless there is one already or there is no folder. -/
def append (folder name : String) : String :=
  match folder.toList.getLast? with
  | none => name
  | some c => if c == '/' then folder ++ name else folder ++ "/" ++ name

theorem split_ne_nil (cs : List Char) : split cs ≠ [] := by
  cases cs with
  | nil => simp [split]
  | cons c cs =>
    rw [split]
    split
    · simp
    · split <;> simp

theorem join_split (cs : List Char) : join (split cs) = cs := by
  induction cs with
  | nil => simp [split, join, List.intercalate]
  | cons c cs ih =>
    rw [split]
    split
    · rename_i h
      cases hs : split cs with
      | nil => exact absurd hs (split_ne_nil cs)
      | cons part parts =>
        rw [hs] at ih
        simp_all [join, List.intercalate, List.intersperse]
    · cases hs : split cs with
      | nil => exact absurd hs (split_ne_nil cs)
      | cons part parts =>
        rw [hs] at ih
        cases parts <;> simp_all [join, List.intercalate, List.intersperse]

end Accession.Text.Path
