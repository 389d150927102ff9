import Accession.Batch.Storage
import Accession.Store.Database
set_option autoImplicit false

/-!
# The database as the storage of imports

A connection is a database and, within a transaction, what the database was when the transaction
began. Without transactions every insertion is durable at once and there is nothing to take back.
-/
namespace Accession.Store

open Batch (Action NewRecord Storage)

structure Connection where
  database : Database
  /-- The database at the beginning of the open transaction. -/
  saved : Option Database := none
deriving DecidableEq, Repr

def NewRecord.columns (record : NewRecord) : Columns where
  repository := record.repository
  title := record.title
  identifier := record.identifier
  json := record.json

namespace Connection

/-- What a connection leaves when it is dropped: an open transaction is taken back. -/
def left (c : Connection) : Database :=
  c.saved.getD c.database

def begin : Action Connection Unit :=
  modify (fun c => { c with saved := some c.database })

def commit : Action Connection Unit :=
  modify (fun c => { c with saved := none })

def rollback : Action Connection Unit :=
  modify (fun c => { database := c.left, saved := none })

def recordExists (t : Registry.RecordType) (id : Int) (repository : Option Int) :
    Action Connection Bool := do
  match (← get).database.recordExists t.table id repository with
  | .ok found => return found
  | .error e => throw (e.classify "reference lookup")

def insert (record : NewRecord) : Action Connection Int := do
  let c ← get
  match c.database.insert record.type.table (NewRecord.columns record) with
  | .ok (id, database) =>
    set { c with database }
    return id
  | .error e => throw (e.classify record.logicalId)

def storage (transactional : Bool) : Storage Connection where
  transactional
  begin := if transactional then begin else pure ()
  recordExists := recordExists
  insert := insert
  commit := if transactional then commit else pure ()
  rollback := if transactional then rollback else pure ()

end Connection

end Accession.Store
