import Accession.Batch.Retry
import Accession.Batch.Watched
import Accession.Store.Connection
set_option autoImplicit false

namespace Accession.Batch

variable {ω α β : Type}

theorem Action.bind_run (x : Action ω α) (f : α → Action ω β) (w : ω) :
    (x >>= f) w = match x w with
      | (.ok a, w) => f a w
      | (.error e, w) => (.error e, w) := by
  change (ExceptT.bindCont f (x w).1) (x w).2 = _
  rcases x w with ⟨_ | _, _⟩ <;> rfl

theorem Action.bind_eq_ok {x : Action ω α} {f : α → Action ω β} {b : β} {w w' : ω} :
    (x >>= f) w = (.ok b, w') ↔ ∃ a v, x w = (.ok a, v) ∧ f a v = (.ok b, w') := by
  rw [bind_run]
  rcases x w with ⟨e | a, v⟩
  · constructor
    · intro h
      cases h
    · rintro ⟨_, _, hx, -⟩
      cases hx
  · constructor
    · intro h
      exact ⟨a, v, rfl, h⟩
    · rintro ⟨_, _, hx, h⟩
      cases hx
      exact h

theorem Action.get_run (w : ω) : (get : Action ω ω) w = (.ok w, w) := rfl

theorem Action.mk_run (x : StateM ω (Except ImportError α)) (w : ω) :
    (ExceptT.mk x : Action ω α) w = x w := rfl

theorem stateM_bind_run (x : StateM ω α) (f : α → StateM ω β) (w : ω) :
    (x >>= f) w = f (x w).1 (x w).2 := rfl

theorem stateM_get_run (w : ω) : (get : StateM ω ω) w = (w, w) := rfl

theorem stateM_modify_run (f : ω → ω) (w : ω) :
    (modify f : StateM ω PUnit) w = ((), f w) := rfl

theorem World.call_run (action : Action ω α) (world : World ω) :
    World.call action world
      = ((action world.storage).1, { world with storage := (action world.storage).2 }) := rfl

theorem World.note_run (a : Activity) (world : World ω) :
    World.note a world = ((), { world with trail := .activity a :: world.trail }) := rfl

/-- A watched call that fails as planned has nothing else to say; any other call gives what the
storage gives and leaves it as the storage does. -/
def Relays (plan : FaultPlan) (w : Watched ω) (called : Except ImportError α × Watched ω)
    (reached : Except ImportError α × ω) : Prop :=
  called.2.sessions = w.sessions ∧
    ((called.1 = reached.1 ∧ called.2.inner = reached.2) ∨
      ∃ op call e, plan op w.sessions call = some e ∧ called.1 = .error e ∧
        called.2.inner = w.inner)

namespace Watched

variable (plan : FaultPlan) (storage : Storage ω) (w : Watched ω)

theorem recordExists_relays (t : Registry.RecordType) (id : Int) (repository : Option Int) :
    Relays plan w (recordExists plan storage t id repository w)
      (storage.recordExists t id repository w.inner) := by
  simp only [recordExists, Action.mk_run, stateM_bind_run, stateM_modify_run, stateM_get_run]
  cases h : plan .recordExists w.sessions (w.lookups + 1) with
  | none => exact ⟨rfl, .inl ⟨rfl, rfl⟩⟩
  | some e => exact ⟨rfl, .inr ⟨_, _, e, h, rfl, rfl⟩⟩

theorem insert_relays (record : NewRecord) :
    Relays plan w (insert plan storage record w) (storage.insert record w.inner) := by
  simp only [insert, Action.mk_run, stateM_bind_run, stateM_modify_run, stateM_get_run]
  cases h : plan .insert w.sessions (w.insertions + 1) with
  | none => exact ⟨rfl, .inl ⟨rfl, rfl⟩⟩
  | some e => exact ⟨rfl, .inr ⟨_, _, e, h, rfl, rfl⟩⟩

end Watched

section

variable (storage : Storage ω) (plan : FaultPlan) (w : Watched ω)

theorem watched_begin :
    ∃ r w', (storage.watched plan).begin w = (r, w') ∧ w'.sessions = w.sessions + 1 ∧
      ((r, w'.inner) = storage.begin w.inner ∨
        ∃ e, plan .begin (w.sessions + 1) 1 = some e ∧ r = .error e ∧ w'.inner = w.inner) := by
  simp only [Storage.watched, Watched.begin, Action.mk_run, stateM_bind_run, stateM_modify_run,
    stateM_get_run]
  cases h : plan .begin (w.sessions + 1) 1 with
  | none => exact ⟨_, _, rfl, rfl, .inl rfl⟩
  | some e => exact ⟨_, _, rfl, rfl, .inr ⟨e, rfl, rfl, rfl⟩⟩

/-- A commit that fails as planned has rolled the session back. -/
theorem watched_commit :
    ∃ r w', (storage.watched plan).commit w = (r, w') ∧ w'.sessions = w.sessions ∧
      ((r, w'.inner) = storage.commit w.inner ∨
        ∃ e, plan .commit w.sessions 1 = some e ∧ r = .error e ∧
          w'.inner = (storage.rollback w.inner).2) := by
  simp only [Storage.watched, Watched.commit, Action.mk_run, stateM_bind_run, stateM_get_run]
  cases h : plan .commit w.sessions 1 with
  | none => exact ⟨_, _, rfl, rfl, .inl rfl⟩
  | some e => exact ⟨_, _, rfl, rfl, .inr ⟨e, rfl, rfl, rfl⟩⟩

theorem watched_rollback :
    ∃ r w', (storage.watched plan).rollback w = (r, w') ∧ w'.sessions = w.sessions ∧
      w'.inner = (storage.rollback w.inner).2 := by
  simp only [Storage.watched, Watched.rollback, Action.mk_run, stateM_bind_run, stateM_get_run]
  cases plan .rollback w.sessions 1 <;> exact ⟨_, _, rfl, rfl, rfl⟩

end

end Accession.Batch

namespace Accession.Store.Connection

open Batch (Action NewRecord)

variable (c : Connection)

theorem recordExists_run (t : Registry.RecordType) (id : Int) (repository : Option Int) :
    recordExists t id repository c =
      (match c.database.recordExists t.table id repository with
        | .ok found => .ok found
        | .error e => .error (e.classify "reference lookup"), c) := by
  simp only [recordExists, Action.bind_run, Action.get_run]
  cases c.database.recordExists t.table id repository <;> rfl

theorem recordExists_ok {c : Connection} {t : Registry.RecordType} {id : Int}
    {repository : Option Int} {found : Bool}
    (h : (recordExists t id repository c).1 = .ok found) :
    c.database.recordExists t.table id repository = .ok found := by
  rw [recordExists_run] at h
  cases hfound : c.database.recordExists t.table id repository with
  | ok b =>
    rw [hfound] at h
    cases h
    rfl
  | error e =>
    rw [hfound] at h
    cases h

theorem insert_run (record : NewRecord) :
    insert record c =
      match c.database.insert record.type.table (NewRecord.columns record) with
      | .ok (id, database) => (.ok id, { c with database })
      | .error e => (.error (e.classify record.logicalId), c) := by
  simp only [insert, Action.bind_run, Action.get_run]
  cases c.database.insert record.type.table (NewRecord.columns record) <;> rfl

section

variable (transactional : Bool)

theorem storage_begin :
    (storage transactional).begin c
      = (.ok (), if transactional then { c with saved := some c.database } else c) := by
  cases transactional <;> rfl

theorem storage_commit :
    (storage transactional).commit c
      = (.ok (), if transactional then { c with saved := none } else c) := by
  cases transactional <;> rfl

theorem storage_rollback :
    (storage transactional).rollback c
      = (.ok (), if transactional then ⟨c.saved.getD c.database, none⟩ else c) := by
  cases transactional <;> rfl

end

end Accession.Store.Connection
