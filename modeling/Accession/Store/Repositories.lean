import Accession.Failure
import Accession.Store.Database
set_option autoImplicit false

namespace Accession.Store.Database

def repositoryTable (db : Database) : Except Failure Repositories :=
  match db.repositories with
  | some rs => .ok rs
  | none => .error (.database (.noTable repositoriesName))

def createRepository (db : Database) (code name : String) : Except Failure (Int × Database) := do
  let rs ← db.repositoryTable
  if maxId ≤ rs.lastId then throw (.database full)
  else if rs.containsCode code then
    throw (.invalidInput ("Repository code '" ++ code ++ "' is already in use"))
  else return (rs.lastId + 1, { db with repositories := some (rs.push code name) })

def repository? (db : Database) (id : Int) : Except Failure (Option Repository) :=
  db.repositoryTable.map (fun rs => rs.find? id)

def repositoryExists (db : Database) (id : Int) : Except Failure Bool :=
  db.repositoryTable.map (fun rs => rs.contains id)

end Accession.Store.Database
