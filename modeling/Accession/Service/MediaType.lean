set_option autoImplicit false

namespace Accession.Service

structure MediaType where
  kind : List Char
  subtype : List Char
  suffix : Option (List Char)
deriving DecidableEq, Repr

namespace MediaType

def marks : List Char :=
  ['!', '#', '$', '%', '&', '\x27', '*', '+', '-', '.', '^', '_', '\x60', '|', '~']

def isToken (c : Char) : Bool :=
  c.isAlphanum || marks.contains c

/-- Where in its parameters a media type is read; `started` tells whether there is a character of
the name or value yet. -/
inductive Place where
  | name (started : Bool)
  | value (started : Bool)
  | quoted (started : Bool)
  | afterQuoted
deriving DecidableEq, Repr

def parameters : Place → List Char → Bool
  | .name started, [] => !started
  | .value _, [] | .afterQuoted, [] => true
  | .quoted _, [] => false
  | .name started, c :: cs =>
    if c == ' ' && !started then parameters (.name false) cs
    else if isToken c then parameters (.name true) cs
    else c == '=' && started && parameters (.value false) cs
  | .value started, c :: cs =>
    if c == '"' && !started then parameters (.quoted false) cs
    else if isToken c then parameters (.value true) cs
    else c == ';' && started && parameters (.name false) cs
  | .quoted started, c :: cs =>
    if c == '"' && started then parameters .afterQuoted cs
    else 31 < c.toNat && c.toNat != 127 && parameters (.quoted true) cs
  | .afterQuoted, c :: cs =>
    if c == ';' then parameters (.name false) cs
    else c == ' ' && parameters .afterQuoted cs

def cutSuffix (name : List Char) : List Char × Option (List Char) :=
  let suffix := (name.reverse.takeWhile (· != '+')).reverse
  let stem := name.take (name.length - suffix.length - 1)
  if suffix.length == name.length || stem.isEmpty then (name, none) else (stem, some suffix)

def parse? (s : String) : Option MediaType :=
  let cs := s.toList
  let kind := cs.takeWhile isToken
  match cs.dropWhile isToken with
  | '/' :: rest =>
    let name := rest.takeWhile isToken
    let (subtype, suffix) := cutSuffix name
    let complete := match rest.dropWhile isToken with
      | [] => true
      | ';' :: more => !name.isEmpty && parameters (.name false) more
      | _ => false
    if kind.isEmpty || !complete then none else some { kind, subtype, suffix }
  | _ => none

def lower (cs : List Char) : String :=
  String.ofList (cs.map Char.toLower)

def isJson (m : MediaType) : Bool :=
  lower m.kind == "application" && (lower m.subtype == "json" || m.suffix.any (lower · == "json"))

end MediaType

/-- Whether a header may declare the media type of JSON; it must be printable ASCII. -/
def declaresJson (contentType : Option String) : Bool :=
  match contentType with
  | none => false
  | some s =>
    s.toList.all (fun c => c == '\t' || (32 ≤ c.toNat && c.toNat < 127))
      && (MediaType.parse? s).any MediaType.isJson

end Accession.Service
