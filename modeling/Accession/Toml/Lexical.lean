set_option autoImplicit false

namespace Accession.Toml

/-- A character of a comment or a string: a tab, but no other control character of ASCII. -/
def isPrintable (c : Char) : Bool :=
  c == '\t' || (0x20 ≤ c.toNat && c.toNat != 0x7F)

def isSpace (c : Char) : Bool :=
  c == ' ' || c == '\t'

def skipSpace (s : List Char) : List Char :=
  s.dropWhile isSpace

def afterWord : (word : List Char) → List Char → Option (List Char)
  | [], s => some s
  | _ :: _, [] => none
  | c :: word, d :: s => if c == d then afterWord word s else none

def afterNewline? : List Char → Option (List Char)
  | '\n' :: s => some s
  | '\r' :: '\n' :: s => some s
  | _ => none

/-- Past blanks, line ends and comments; `comment` tells whether the text starts inside one. -/
def skipLines (comment : Bool) : List Char → List Char
  | [] => []
  | c :: s =>
    if comment && isPrintable c then skipLines true s
    else if isSpace c || c == '\n' then skipLines false s
    else if c == '\r' && s.head? == some '\n' then skipLines false s
    else if c == '#' then skipLines true s
    else c :: s

def lineEnd (s : List Char) : Option (List Char) :=
  let rest := match skipSpace s with
    | '#' :: s => s.dropWhile isPrintable
    | s => s
  if rest.isEmpty then some [] else afterNewline? rest

end Accession.Toml
