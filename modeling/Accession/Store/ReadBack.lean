import Accession.Failure
import Accession.Json.Reader
import Accession.Registry.Reference
import Accession.Store.Database
set_option autoImplicit false

namespace Accession.Store

/-- The stored object with the members that storage knows better. -/
def Row.complete (row : Row) (uri : String) (body : Json.Members) : Json.Members :=
  (body.insert "uri" (.str uri)).insert "lock_version" (.num (.int row.lockVersion))

def Database.fetchRecord (db : Database) (registry : Registry) (uri : String) :
    Except Failure (Option Json.Members) :=
  match registry.parseReference? uri with
  | none => .ok none
  | some reference =>
    match registry.get? reference.typeName with
    | none => .error (.internal ("Unregistered record type " ++ reference.typeName))
    | some t =>
      match db.row? t.table reference.id reference.repository with
      | .error e => .error (.database e)
      | .ok none => .ok none
      | .ok (some row) =>
        match Json.parseObject (Text.Utf8.encode row.json) with
        | .error e =>
          .error (.internal ("Stored record " ++ uri ++ " is not valid JSON: " ++ e.message))
        | .ok body => .ok (some (row.complete uri body))

end Accession.Store
