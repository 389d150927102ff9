import Accession.Batch.Error
import Accession.Registry.Basic
set_option autoImplicit false

/-!
# What an import asks of storage

An attempt is one session: `begin`, then look-ups and insertions, then `commit` or `rollback`. The
operations act on a state `ω` that only the storage knows, and may fail. A transactional storage
takes back everything that a session did when it is rolled back; any other keeps each insertion.
-/
namespace Accession.Batch

/-- An operation that may end the attempt; its effect on the state stays either way. -/
abbrev Action (ω : Type) := ExceptT ImportError (StateM ω)

structure NewRecord where
  type : Registry.RecordType
  logicalId : String
  repository : Option Int
  title : String
  identifier : Option String
  json : String
deriving DecidableEq, Repr

structure Storage (ω : Type) where
  transactional : Bool
  begin : Action ω Unit
  /-- Whether there is a record of a type with an id, in a repository if one is given. -/
  recordExists : Registry.RecordType → Int → Option Int → Action ω Bool
  insert : NewRecord → Action ω Int
  commit : Action ω Unit
  rollback : Action ω Unit

end Accession.Batch
