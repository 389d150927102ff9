import Accession.Registry.Basic
import Accession.Store.Database
set_option autoImplicit false

namespace Accession.Store

abbrev Change := ExceptT Error (StateM Database)

namespace Schema

def createRepositories : Change Unit :=
  modify (fun db => { db with repositories := some (db.repositories.getD {}) })

def indexName (table : String) : String :=
  "idx_" ++ table ++ "_identifier"

def hasTable (db : Database) (name : String) : Bool :=
  db.isRepositories name || (db.table? name).isSome

def hasIndex (db : Database) (name : String) : Bool :=
  db.tables.any (fun t => t.identifierIndex.any (sameName · name))

def createTable (name : String) : Change Unit := do
  let db ← get
  if hasTable db name then return
  else if hasIndex db name then throw (.statement ("there is already an index named " ++ name))
  else set { db with tables := db.tables ++ [({ name } : Table)] }

def anyClash : List Row → Bool
  | [] => false
  | r :: rest => rest.any (fun s => r.toColumns.clashes s.toColumns) || anyClash rest

def createIndex (table : String) : Change Unit := do
  let db ← get
  let name := indexName table
  if hasTable db name then throw (.statement ("there is already a table named " ++ name))
  else if hasIndex db name then return
  else
    let t ← db.table table (.noColumn "repo_id")
    if anyClash t.rows then throw t.uniqueViolation
    else set (db.replace { t with identifierIndex := some name })

def createType (t : Registry.RecordType) : Change Unit := do
  createTable t.table
  if t.identifierField.isSome then createIndex t.table

def createTypes : List Registry.RecordType → Change Unit
  | [] => return
  | t :: rest => do
    createType t
    createTypes rest

end Schema

def createSchema (registry : Registry) : Change Unit := do
  Schema.createRepositories
  Schema.createTypes registry.types

end Accession.Store
