set_option autoImplicit false

/-!
# Tables of keys and values

What a TOML document says: a table whose values may be tables again. A table remembers how it was
introduced, because that decides what may still be added to it: nothing if it was written between
braces, and nothing by a dotted key if it has a header of its own. `insertAt`, `openAt` and
`appendAt` are the three ways in which a document grows: by an entry, by the header of a table and
by the header of one more table of a list. They are `none` where the document says a thing twice.
-/
namespace Accession.Toml

inductive Form where
  | inline
  | header
  /-- By the header of a table inside it. -/
  | implied
  | dotted
deriving DecidableEq, Repr

/-- Floats and times keep their text: they are checked, but nobody calculates with them. -/
inductive Value where
  | text (s : String)
  | integer (n : Int)
  | float (written : String)
  | boolean (b : Bool)
  | moment (written : String)
  | list (elements : List Value)
  | table (form : Form) (entries : List (String × Value))
  /-- Tables that were opened one after the other by headers in double brackets. -/
  | tables (elements : List (List (String × Value)))
deriving Repr

abbrev Table := List (String × Value)

namespace Table

def find? (key : String) (t : Table) : Option Value :=
  (List.find? (fun e => e.1 == key) t).map (·.2)

def replace (key : String) (v : Value) (t : Table) : Table :=
  t.map (fun e => if e.1 == key then (key, v) else e)

def insertNew (key : String) (v : Value) (t : Table) : Option Table :=
  if (find? key t).isSome then none else some (t ++ [(key, v)])

end Table

/-- Whether a table may be entered by a key of a path that introduces tables of another form. -/
def Form.letsIn (form entering : Form) : Bool :=
  match form, entering with
  | .inline, _ => false
  | .header, .dotted => false
  | _, _ => true

namespace Table

/-- A change of the table at the end of a path. Tables that are missing on the way are introduced
in the form `entering`; of a list of tables the last one is meant. The change also gets the form of
the table that it is made in. -/
def changeAt (entering : Form) (change : Form → Table → Option Table) :
    (path : List String) → Form → Table → Option Table
  | [], form, t => change form t
  | key :: path, _, t =>
    match find? key t with
    | none =>
      (changeAt entering change path entering []).map (fun u => t ++ [(key, .table entering u)])
    | some (.table form u) =>
      if form.letsIn entering then
        (changeAt entering change path form u).map (fun u => replace key (.table form u) t)
      else none
    | some (.tables us) =>
      match us.getLast? with
      | none => none
      | some u =>
        (changeAt entering change path .header u).map
          (fun u => replace key (.tables (us.dropLast ++ [u])) t)
    | some _ => none

/-- An entry under a dotted key; only a table that dotted keys introduced takes one. -/
def insertDotted (path : List String) (key : String) (v : Value) (t : Table) : Option Table :=
  changeAt .dotted
    (fun form u => if !path.isEmpty && form != .dotted then none else insertNew key v u)
    path .header t

def insertAt (place path : List String) (key : String) (v : Value) (t : Table) : Option Table :=
  changeAt .implied (fun _ u => insertDotted path key v u) place .header t

def openAt (path : List String) (key : String) (t : Table) : Option Table :=
  changeAt .implied (fun _ u =>
      match find? key u with
      | none => some (u ++ [(key, .table .header [])])
      | some (.table .implied entries) => some (replace key (.table .header entries) u)
      | some _ => none)
    path .header t

def appendAt (path : List String) (key : String) (t : Table) : Option Table :=
  changeAt .implied (fun _ u =>
      match find? key u with
      | none => some (u ++ [(key, .tables [[]])])
      | some (.tables us) => some (replace key (.tables (us ++ [[]])) u)
      | some _ => none)
    path .header t

end Table

end Accession.Toml
