import Accession.Text.Integer
import Accession.Text.Path
import Accession.Text.Percent
import Accession.Text.Quoted
set_option autoImplicit false

namespace Accession.Service

inductive Route where
  | repositories
  | repository (id : String)
  | record (owner segment id : String)
  | agent (kind id : String)
  | batchImports (owner : String)
  | health
deriving DecidableEq, Repr

namespace Route

def withoutQuery (path : List Char) : List Char :=
  path.takeWhile (fun c => c != '?' && c != '#')

def isSchemeChar (c : Char) : Bool :=
  c.isAlphanum || c == '+' || c == '-' || c == '.' || c == '~'

def endsHost (c : Char) : Bool :=
  c == '/' || c == '?' || c == '#'

def afterHost? (address : List Char) : Option (List Char) :=
  match address.dropWhile isSchemeChar with
  | ':' :: '/' :: '/' :: rest =>
    if rest.head?.all endsHost then none else some (rest.dropWhile (!endsHost ·))
  | _ => none

/-- The path of the target of a request, which is a path or an address with a scheme and a host. -/
def pathOfTarget? (target : List Char) : Option (List Char) :=
  match target with
  | '/' :: _ => some (withoutQuery target)
  | _ => (afterHost? target).map withoutQuery

def ofParts? : List String → Option Route
  | ["health"] => some .health
  | ["repositories"] => some .repositories
  | ["repositories", id] => if id.isEmpty then none else some (.repository id)
  | ["repositories", owner, "batch_imports"] => some (.batchImports owner)
  | ["repositories", owner, segment, id] =>
    if id.isEmpty then none else some (.record owner segment id)
  | ["agents", kind, id] => if id.isEmpty then none else some (.agent kind id)
  | _ => none

def ofTarget? (target : String) : Option Route :=
  match pathOfTarget? target.toList with
  | some ('/' :: rest) => ofParts? ((Text.Path.split rest).map String.ofList)
  | _ => none

inductive Methods where
  | reading
  | posting
deriving DecidableEq, Repr

def methods : Route → Methods
  | .repositories | .batchImports _ => .posting
  | _ => .reading

def Methods.admits (m : Methods) (method : String) : Bool :=
  match m with
  | .reading => method == "GET" || method == "HEAD"
  | .posting => method == "POST"

def Methods.shown : Methods → String
  | .reading => "GET,HEAD"
  | .posting => "POST"

end Route

inductive ParameterError where
  | notText (name : String)
  | notNumber (value : String)
  /-- One of several parameters, counted from 0, is no number. -/
  | notNumberAt (index : Nat) (value : String)
deriving DecidableEq, Repr

def ParameterError.message : ParameterError → String
  | .notText name => "Invalid URL: Invalid UTF-8 in `" ++ name ++ "`"
  | .notNumber value =>
    "Invalid URL: Cannot parse `" ++ Text.Quoted.quote value ++ "` to a `i64`"
  | .notNumberAt index value =>
    "Invalid URL: Cannot parse value at index " ++ Text.Integer.write index ++ " with value `"
      ++ Text.Quoted.quote value ++ "` to a `i64`"

namespace Parameter

def text (name sent : String) : Except ParameterError String :=
  match Text.Percent.decode? sent with
  | some s => .ok s
  | none => .error (.notText name)

def number (refused : String → ParameterError) (value : String) : Except ParameterError Int :=
  match Text.Integer.read64? value with
  | some n => .ok n
  | none => .error (refused value)

def repository (sent : String) : Except ParameterError Int := do
  let value ← text "repo_id" sent
  number .notNumber value

end Parameter

end Accession.Service
