import Accession.Store.Error
set_option autoImplicit false

/-!
# The database

A table of repositories and one table for every kind of record, all of one layout. Tables number
their rows upwards and use no number twice. Names of tables and indexes differ in more than the case
of ASCII letters. A record belongs to a repository that exists or to none; in a table with an index
no two records of a repository have the same identifier, but an identifier that is missing, or the
lack of a repository, never clashes. Ids are integers of 64 bits, so a table that has given the
largest of them takes no more rows. A statement that fails changes nothing.
-/
namespace Accession.Store

structure Repository where
  id : Int
  code : String
  name : String
deriving DecidableEq, Repr

def Repository.uri (r : Repository) : String :=
  "/repositories/" ++ Text.Integer.write r.id

structure Repositories where
  rows : List Repository := []
  /-- The largest id that was ever given. -/
  lastId : Int := 0
deriving DecidableEq, Repr

structure Columns where
  repository : Option Int
  title : String
  identifier : Option String
  json : String
  lockVersion : Int := 0
deriving DecidableEq, Repr

structure Row extends Columns where
  id : Int
deriving DecidableEq, Repr

structure Table where
  name : String
  rows : List Row := []
  lastId : Int := 0
  /-- The name of the index that keeps identifiers unique. -/
  identifierIndex : Option String := none
deriving DecidableEq, Repr

/-- A table that does not exist is absent; the empty database has none. -/
structure Database where
  repositories : Option Repositories := none
  tables : List Table := []
deriving DecidableEq, Repr

def sameName (a b : String) : Bool :=
  a.toList.map Char.toLower == b.toList.map Char.toLower

/-- Whether two records are of one repository and have one identifier, neither of them missing. -/
def Columns.clashes (a b : Columns) : Bool :=
  a.repository.isSome && a.identifier.isSome && a.repository == b.repository
    && a.identifier == b.identifier

namespace Table

def refuses (t : Table) (c : Columns) : Bool :=
  t.identifierIndex.isSome && t.rows.any (fun r => c.clashes r.toColumns)

def row? (t : Table) (id : Int) (repository : Option Int) : Option Row :=
  t.rows.find? (fun r => r.id == id && (repository.isNone || r.repository == repository))

def push (t : Table) (c : Columns) : Table :=
  { t with rows := t.rows ++ [{ c with id := t.lastId + 1 }], lastId := t.lastId + 1 }

def uniqueViolation (t : Table) : Error :=
  .database (.coded "2067" .unique
    ("UNIQUE constraint failed: " ++ t.name ++ ".repo_id, " ++ t.name ++ ".identifier"))

end Table

def foreignKeyViolation : Error :=
  .database (.coded "787" .foreignKey "FOREIGN KEY constraint failed")

def maxId : Int := Text.Integer.max64

def full : Error :=
  .database (.coded "13" .other "database or disk is full")

namespace Repositories

def find? (rs : Repositories) (id : Int) : Option Repository :=
  rs.rows.find? (fun r => r.id == id)

def contains (rs : Repositories) (id : Int) : Bool :=
  rs.rows.any (fun r => r.id == id)

def containsCode (rs : Repositories) (code : String) : Bool :=
  rs.rows.any (fun r => r.code == code)

def push (rs : Repositories) (code name : String) : Repositories :=
  ⟨rs.rows ++ [⟨rs.lastId + 1, code, name⟩], rs.lastId + 1⟩

end Repositories

namespace Database

def repositoriesName : String := "repositories"

def isRepositories (db : Database) (name : String) : Bool :=
  db.repositories.isSome && sameName name repositoriesName

def table? (db : Database) (name : String) : Option Table :=
  db.tables.find? (fun t => sameName t.name name)

/-- A table of records, or why a statement on it fails: `mismatch` is what is wrong with the table
of repositories. -/
def table (db : Database) (name : String) (mismatch : Error) : Except Error Table :=
  match db.table? name with
  | some t => .ok t
  | none => .error (if db.isRepositories name then mismatch else .noTable name)

def replace (db : Database) (t : Table) : Database :=
  { db with tables := db.tables.map (fun u => if sameName u.name t.name then t else u) }

def row? (db : Database) (name : String) (id : Int) (repository : Option Int) :
    Except Error (Option Row) :=
  (db.table name (.noColumn "json")).map (fun t => t.row? id repository)

def rows (db : Database) (name : String) : Except Error (List Row) :=
  (db.table name (.noColumn "repo_id")).map Table.rows

def recordExists (db : Database) (name : String) (id : Int) (repository : Option Int) :
    Except Error Bool :=
  match db.repositories with
  | some rs =>
    if sameName name repositoriesName && repository.isNone then .ok (rs.contains id)
    else (db.table name (.noColumn "repo_id")).map (fun t => (t.row? id repository).isSome)
  | none => (db.table name (.noColumn "repo_id")).map (fun t => (t.row? id repository).isSome)

def insert (db : Database) (name : String) (c : Columns) : Except Error (Int × Database) := do
  let t ← db.table name
    (.statement ("table " ++ name ++ " has no column named repo_id"))
  match db.repositories with
  | none => throw (.noTable ("main." ++ repositoriesName))
  | some rs =>
    if maxId ≤ t.lastId then throw full
    else if t.refuses c then throw t.uniqueViolation
    else if !c.repository.all rs.contains then throw foreignKeyViolation
    else return (t.lastId + 1, db.replace (t.push c))

/-- The database without a table; repositories that have records stay. -/
def dropTable (db : Database) (name : String) : Except Error Database :=
  if db.isRepositories name then
    if db.tables.any (fun t => t.rows.any (fun r => r.repository.isSome)) then
      throw foreignKeyViolation
    else return { db with repositories := none }
  else
    match db.table? name with
    | some _ => return { db with tables := db.tables.filter (fun t => !sameName t.name name) }
    | none => throw (.noTable name)

def sorted (names : List String) : List String :=
  names.mergeSort (fun a b => decide (a ≤ b))

def tableNames (db : Database) : List String :=
  sorted ((if db.repositories.isSome then [repositoriesName] else []) ++ db.tables.map Table.name)

def indexNames (db : Database) : List String :=
  sorted (db.tables.filterMap Table.identifierIndex)

end Database

end Accession.Store
