import Std.Data.TreeMap
import Accession.Json.Basic
set_option autoImplicit false

namespace Accession.Batch

structure Persisted where
  uri : String
  id : Int
deriving DecidableEq, Repr, Inhabited

structure Created where
  entries : Array (String × Persisted) := #[]
  index : Std.TreeMap String Nat := {}

namespace Created

def empty : Created := {}

instance : Inhabited Created := ⟨empty⟩

/-- The record is added unless the identifier is taken; whether it was added. -/
def insert (created : Created) (logicalId : String) (record : Persisted) : Created × Bool :=
  if created.index.contains logicalId then (created, false)
  else
    ({ entries := created.entries.push (logicalId, record)
       index := created.index.insert logicalId created.entries.size }, true)

def get? (created : Created) (logicalId : String) : Option Persisted :=
  created.index[logicalId]?.bind (fun i => created.entries[i]?.map (·.2))

def contains (created : Created) (logicalId : String) : Bool :=
  created.index.contains logicalId

def size (created : Created) : Nat :=
  created.entries.size

def isEmpty (created : Created) : Bool :=
  created.entries.isEmpty

def toList (created : Created) : List (String × Persisted) :=
  created.entries.toList

def ofList (records : List (String × Persisted)) : Created :=
  records.foldl (fun created r => (created.insert r.1 r.2).1) empty

end Created

def Persisted.toJson (record : Persisted) : Json.Value :=
  .arr [.str record.uri, .num (.int record.id)]

def Created.toJson (created : Created) : Json.Value :=
  .obj (created.toList.map (fun entry => (entry.1, entry.2.toJson)))

end Accession.Batch
