import Accession.Toml.Numeral
set_option autoImplicit false

namespace Accession.Toml.Literal

inductive Mode where
  | plain
  | escaped
  /-- In the number of a character, so many hexadecimal digits before its end. -/
  | code (left value : Nat)
  /-- After a backslash that a line end has to follow, or (`ended`) did. -/
  | folded (ended : Bool)
deriving DecidableEq, Repr

def simpleEscape? (c : Char) : Option Char :=
  match c with
  | 'b' => some '\x08'
  | 't' => some '\t'
  | 'n' => some '\n'
  | 'f' => some '\x0C'
  | 'r' => some '\r'
  | '"' => some '"'
  | '\\' => some '\\'
  | _ => none

def scalar? (n : Nat) : Option Char :=
  if n < 0xD800 || (0xE000 ≤ n && n ≤ 0x10FFFF) then some (Char.ofNat n) else none

/-- Whether a tripled mark ends here, after one `mark`: the marks that belong to the string, and
the text after the closing three. -/
def closing? (mark : Char) (s : List Char) : Option (List Char × List Char) :=
  match afterWord [mark, mark] s with
  | none => none
  | some s =>
    match afterWord [mark, mark] s with
    | some s => some ([mark, mark], s)
    | none =>
      match afterWord [mark] s with
      | some s => some ([mark], s)
      | none => some ([], s)

def close (done : List Char) (s : List Char) : Option (String × List Char) :=
  some (String.ofList done.reverse, s)

def startsBlank (c : Char) (s : List Char) : Bool :=
  isSpace c || c == '\n' || (c == '\r' && s.head? == some '\n')

/-- A string between quotes after its opening, with the text after it. The characters in `done`
were read before, last first; `long` tells whether the quotes are tripled. -/
def quoted (long : Bool) : Mode → (done : List Char) → List Char → Option (String × List Char)
  | _, _, [] => none
  | mode, done, c :: s =>
    match mode with
    | .escaped =>
      match simpleEscape? c with
      | some e => quoted long .plain (e :: done) s
      | none =>
        if c == 'u' then quoted long (.code 4 0) done s
        else if c == 'U' then quoted long (.code 8 0) done s
        else if !long then none
        else if startsBlank c s then quoted long (.folded (c == '\n')) done s
        else none
    | .code left value =>
      match Numeral.digitIn? 16 c with
      | none => none
      | some d =>
        if 1 < left then quoted long (.code (left - 1) (value * 16 + d)) done s
        else match scalar? (value * 16 + d) with
          | none => none
          | some e => quoted long .plain (e :: done) s
    | .folded false =>
      if startsBlank c s then quoted long (.folded (c == '\n')) done s else none
    | mode =>
      if mode == .folded true && startsBlank c s then
        quoted long (.folded true) done s
      else if c == '"' then
        if !long then close done s
        else match closing? '"' s with
          | some (marks, s) => close (marks ++ done) s
          | none => quoted long .plain ('"' :: done) s
      else if c == '\\' then quoted long .escaped done s
      else if isPrintable c || (long && c == '\n') then quoted long .plain (c :: done) s
      else if long && c == '\r' && s.head? == some '\n' then quoted long .plain done s
      else none

def verbatim (long : Bool) : (done : List Char) → List Char → Option (String × List Char)
  | _, [] => none
  | done, c :: s =>
    if c == '\'' then
      if !long then close done s
      else match closing? '\'' s with
        | some (marks, s) => close (marks ++ done) s
        | none => verbatim long ('\'' :: done) s
    else if isPrintable c || (long && c == '\n') then verbatim long (c :: done) s
    else if long && c == '\r' && s.head? == some '\n' then verbatim long done s
    else none

def readShort : List Char → Option (String × List Char)
  | [] => none
  | c :: s =>
    if c == '"' then quoted false .plain [] s
    else if c == '\'' then verbatim false [] s
    else none

def read (s : List Char) : Option (String × List Char) :=
  match afterWord ['"', '"', '"'] s with
  | some s => quoted true .plain [] ((afterNewline? s).getD s)
  | none =>
    match afterWord ['\'', '\'', '\''] s with
    | some s => verbatim true [] ((afterNewline? s).getD s)
    | none => readShort s

end Accession.Toml.Literal
