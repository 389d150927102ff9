import Accession.Toml.Literal
import Accession.Toml.Moment
set_option autoImplicit false

namespace Accession.Toml

def maxDepth : Nat := 79

def isBareKey (c : Char) : Bool :=
  c.isAlphanum || c == '_' || c == '-'

def readPart (s : List Char) : Option (String × List Char) :=
  let (bare, rest) := s.span isBareKey
  if bare.isEmpty then Literal.readShort s else some (String.ofList bare, rest)

/-- A key of at most `parts` parts with points between: the parts before the last, and the last. -/
def readKey : (parts : Nat) → List Char → Option (List String × String × List Char)
  | 0, _ => none
  | parts + 1, s => do
    let (part, s) ← readPart (skipSpace s)
    match skipSpace s with
    | '.' :: s => do
      let (path, key, s) ← readKey parts s
      return (part :: path, key, s)
    | s => return ([], part, s)

def readEntry (value : List Char → Option (Value × List Char)) (s : List Char) :
    Option (List String × String × Value × List Char) := do
  let (path, key, s) ← readKey maxDepth s
  let s ← afterWord ['='] s
  let (v, s) ← value (skipSpace s)
  return (path, key, v, s)

def readElements (value : List Char → Option (Value × List Char)) :
    (fuel : Nat) → List Value → List Char → Option (List Value × List Char)
  | 0, _, _ => none
  | fuel + 1, done, s =>
    match skipLines false s with
    | ']' :: s => some (done.reverse, s)
    | s => do
      let (v, s) ← value s
      match skipLines false s with
      | ',' :: s => readElements value fuel (v :: done) s
      | ']' :: s => return ((v :: done).reverse, s)
      | _ => none

def readEntries (value : List Char → Option (Value × List Char)) :
    (fuel : Nat) → Table → List Char → Option (Table × List Char)
  | 0, _, _ => none
  | fuel + 1, t, s => do
    let (path, key, v, s) ← readEntry value s
    let t ← t.insertDotted path key v
    match skipSpace s with
    | ',' :: s => readEntries value fuel t s
    | '}' :: s => return (t, s)
    | _ => none

def readValue (fuel : Nat) : (depth : Nat) → List Char → Option (Value × List Char)
  | _, [] => none
  | depth, c :: s =>
    if c == '"' || c == '\'' then (Literal.read (c :: s)).map (fun (x, s) => (.text x, s))
    else if c == 't' then (afterWord ['r', 'u', 'e'] s).map (fun s => (.boolean true, s))
    else if c == 'f' then (afterWord ['a', 'l', 's', 'e'] s).map (fun s => (.boolean false, s))
    else if c == '[' then
      match depth with
      | 0 => none
      | depth + 1 =>
        (readElements (readValue fuel depth) fuel [] s).map (fun (vs, s) => (.list vs, s))
    else if c == '{' then
      match depth with
      | 0 => none
      | depth + 1 =>
        match skipSpace s with
        | '}' :: s => some (.table .inline [], s)
        | s => (readEntries (readValue fuel depth) fuel [] s).map
            (fun (t, s) => (.table .inline t, s))
    else (Moment.read (c :: s)).or (Numeral.read (c :: s))

structure Document where
  table : Table := []
  place : List String := []
deriving Repr

namespace Document

def readLine (fuel : Nat) (d : Document) (s : List Char) : Option (Document × List Char) :=
  match s with
  | '[' :: '[' :: s => do
    let (path, key, s) ← readKey maxDepth s
    let s ← afterWord [']', ']'] s
    let table ← d.table.appendAt path key
    return (⟨table, path ++ [key]⟩, s)
  | '[' :: s => do
    let (path, key, s) ← readKey maxDepth s
    let s ← afterWord [']'] s
    let table ← d.table.openAt path key
    return (⟨table, path ++ [key]⟩, s)
  | s => do
    let (path, key, v, s) ← readEntry (readValue fuel maxDepth) s
    let table ← d.table.insertAt d.place path key v
    return ({ d with table }, s)

def readLines (fuel : Nat) : (lines : Nat) → Document → List Char → Option Document
  | 0, _, _ => none
  | lines + 1, d, s =>
    match skipLines false s with
    | [] => some d
    | s => do
      let (d, s) ← d.readLine fuel s
      let s ← lineEnd s
      readLines fuel lines d s

end Document

/-- A byte order mark at the start is not part of the text. -/
def parse (text : String) : Option Table :=
  let s := match text.toList with
    | '\uFEFF' :: s => s
    | s => s
  (Document.readLines s.length (s.length + 1) {} s).map (·.table)

end Accession.Toml
