import Accession.Registry.Basic
import Accession.Text.Path
set_option autoImplicit false

/-!
# Record uris

The uri of a stored record names its type by path segments and the record by its id; a record of a
repository has the repository in front. `uriFor` writes the uri of a record. `parseReference?` reads
one back: a positive id after the last slash, in front of it the segments of a registered type
whose scope agrees with the presence of a repository.
-/
namespace Accession

structure Reference where
  typeName : String
  id : Int
  repository : Option Int
deriving DecidableEq, Repr

namespace Registry

def uriFor (t : RecordType) (repository id : Int) : String :=
  match t.scope with
  | .repository =>
    "/repositories/" ++ Text.Integer.write repository ++ "/" ++ t.uriSegment ++ "/"
      ++ Text.Integer.write id
  | .global => "/" ++ t.uriSegment ++ "/" ++ Text.Integer.write id

def positive? (part : List Char) : Option Int :=
  (Text.Integer.read64? (String.ofList part)).filter (fun n => 0 < n)

/-- The repository and the segments of a path without its id. -/
def place? : List (List Char) → Option (Option Int × String)
  | [] => none
  | first :: rest =>
    if first == "repositories".toList then
      match rest with
      | repository :: segment :: segments =>
        (positive? repository).map
          (fun r => (some r, String.ofList (Text.Path.join (segment :: segments))))
      | _ => none
    else some (none, String.ofList (Text.Path.join (first :: rest)))

def Scope.agrees (scope : Scope) (repository : Option Int) : Bool :=
  match scope with
  | .repository => repository.isSome
  | .global => repository.isNone

def parseReference? (registry : Registry) (uri : String) : Option Reference :=
  match uri.toList with
  | '/' :: path => do
    let parts := Text.Path.split path
    let last ← parts.getLast?
    let id ← positive? last
    let (repository, segment) ← place? parts.dropLast
    let t ← registry.types.find?
      (fun t => t.uriSegment == segment && t.scope.agrees repository)
    return ⟨t.name, id, repository⟩
  | _ => none

end Registry

end Accession
