import Accession.Batch.Storage
set_option autoImplicit false

/-!
# Storage under observation

`watched` wraps a storage: it keeps a log of all calls and lets calls fail according to a plan,
which may look at the number of the session and, within it, at the number of calls of the same
operation. A look-up, an insertion or a `begin` that fails this way does not reach the storage. A
`commit` that fails rolls the session back instead, and a `rollback` that fails still takes place.
-/
namespace Accession.Batch

inductive Operation where
  | begin
  | recordExists
  | insert
  | commit
  | rollback
deriving DecidableEq, Repr

inductive Call where
  | begin (result : Except ImportError Unit)
  | recordExists (type : String) (id : Int) (repository : Option Int)
      (result : Except ImportError Bool)
  | insert (record : NewRecord) (result : Except ImportError Int)
  | commit (result : Except ImportError Unit)
  | rollback (result : Except ImportError Unit)

/-- The failure planned for a call, by session and by call within it, both counted from 1. -/
abbrev FaultPlan := Operation → (session call : Nat) → Option ImportError

def FaultPlan.empty : FaultPlan := fun _ _ _ => none

structure Watched (ω : Type) where
  inner : ω
  sessions : Nat := 0
  lookups : Nat := 0
  insertions : Nat := 0
  /-- The log, last call first. -/
  calls : List Call := []

namespace Watched

variable {ω : Type} {α : Type}

def reach (action : Action ω α) : StateM (Watched ω) (Except ImportError α) := fun w =>
  let (result, inner) := action w.inner
  (result, { w with inner })

def log (call : Call) : StateM (Watched ω) Unit :=
  modify (fun w => { w with calls := call :: w.calls })

def reachUnless (fault : Option ImportError) (action : Action ω α) :
    StateM (Watched ω) (Except ImportError α) :=
  match fault with
  | some e => pure (.error e)
  | none => reach action

def reachDespite (fault : Option ImportError) (action : Action ω α) :
    StateM (Watched ω) (Except ImportError α) := do
  let result ← reach action
  match fault with
  | some e => return .error e
  | none => return result

variable (plan : FaultPlan) (storage : Storage ω)

def begin : Action (Watched ω) Unit := ExceptT.mk do
  modify (fun w => { w with sessions := w.sessions + 1, lookups := 0, insertions := 0 })
  let result ← reachUnless (plan .begin (← get).sessions 1) storage.begin
  log (.begin result)
  return result

def recordExists (t : Registry.RecordType) (id : Int) (repository : Option Int) :
    Action (Watched ω) Bool := ExceptT.mk do
  modify (fun w => { w with lookups := w.lookups + 1 })
  let w ← get
  let result ← reachUnless (plan .recordExists w.sessions w.lookups)
    (storage.recordExists t id repository)
  log (.recordExists t.name id repository result)
  return result

def insert (record : NewRecord) : Action (Watched ω) Int := ExceptT.mk do
  modify (fun w => { w with insertions := w.insertions + 1 })
  let w ← get
  let result ← reachUnless (plan .insert w.sessions w.insertions) (storage.insert record)
  log (.insert record result)
  return result

def commit : Action (Watched ω) Unit := ExceptT.mk do
  let result ← match plan .commit (← get).sessions 1 with
    | some e => reachDespite (some e) storage.rollback
    | none => reach storage.commit
  log (.commit result)
  return result

def rollback : Action (Watched ω) Unit := ExceptT.mk do
  let result ← reachDespite (plan .rollback (← get).sessions 1) storage.rollback
  log (.rollback result)
  return result

end Watched

def Storage.watched {ω : Type} (storage : Storage ω) (plan : FaultPlan) :
    Storage (Watched ω) where
  transactional := storage.transactional
  begin := Watched.begin plan storage
  recordExists := Watched.recordExists plan storage
  insert := Watched.insert plan storage
  commit := Watched.commit plan storage
  rollback := Watched.rollback plan storage

end Accession.Batch
