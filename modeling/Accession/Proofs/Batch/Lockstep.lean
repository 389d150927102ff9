import Accession.Proofs.Batch.Parallel
import Accession.Proofs.Batch.Records
import Accession.Proofs.Registry.StandardTypes
import Accession.Proofs.Registry.Uris
set_option autoImplicit false

namespace Accession.Batch

open Json (Value Members)
open Registry (Field RecordType shownRepository standard)

variable {σ ω α β : Type}

theorem parse_scope {site : Site} {reference uri : String} {repository : Int} {r : Reference}
    (h : site.parse standard reference uri = .ok r)
    (own : ¬ r.repository.any (· != repository) = true) :
    ∀ t, standard.get? r.typeName = some t →
      t ∈ standard.types ∧ r.repository = shownRepository t repository := by
  intro t ht
  obtain ⟨u, hu, hname, hagrees⟩ := Registry.parseReference?_type (Site.parse_ok h).1
  obtain rfl : u = t := by
    rw [← hname, Registry.get?_name u hu] at ht
    exact Option.some.inj ht
  refine ⟨hu, ?_⟩
  rw [shownRepository]
  cases hscope : u.scope with
  | repository =>
    rw [hscope] at hagrees
    obtain ⟨owner, howner⟩ := Option.isSome_iff_exists.1 hagrees
    rw [howner] at own ⊢
    exact congrArg some (by simpa using own)
  | global =>
    rw [hscope] at hagrees
    exact Option.isNone_iff_eq_none.1 hagrees

def Lockstep (rel : σ → σ → Prop) (x : σ → α × σ) : Prop :=
  ∀ s s', rel s s' → (x s).1 = (x s').1 ∧ rel (x s).2 (x s').2

namespace Lockstep

theorem still {rel : σ → σ → Prop} (a : α) : Lockstep rel (fun s => (a, s)) :=
  fun _ _ h => ⟨rfl, h⟩

theorem bind {rel : σ → σ → Prop} {x : StateM σ α} {f : α → StateM σ β} (hx : Lockstep rel x)
    (hf : ∀ a, Lockstep rel (f a)) : Lockstep rel (x >>= f) := by
  intro s s' h
  obtain ⟨hresult, hstate⟩ := hx s s' h
  rw [stateM_bind_run, stateM_bind_run, hresult]
  exact hf _ _ _ hstate

theorem modify {rel : σ → σ → Prop} {f : σ → σ} (h : ∀ s s', rel s s' → rel (f s) (f s')) :
    Lockstep rel (modify f : StateM σ PUnit) :=
  fun s s' hs => ⟨rfl, h s s' hs⟩

theorem get_bind {rel : σ → σ → Prop} {f : σ → StateM σ β}
    (h : ∀ s s', rel s s' → f s = f s' ∧ Lockstep rel (f s)) :
    Lockstep rel ((get : StateM σ σ) >>= f) := by
  intro s s' hs
  obtain ⟨hsame, hstep⟩ := h s s' hs
  rw [stateM_bind_run, stateM_bind_run, stateM_get_run, stateM_get_run]
  dsimp only
  rw [← hsame]
  exact hstep s s' hs

end Lockstep

/-- A storage that does the same for an import into a repository in related states. -/
structure Blind (repository : Int) (rel : ω → ω → Prop) (storage : Storage ω) : Prop where
  begin : Lockstep rel storage.begin
  recordExists : ∀ t ∈ standard.types, ∀ (id : Int) (owner : Option Int),
    owner = shownRepository t repository → Lockstep rel (storage.recordExists t id owner)
  insert : ∀ record : NewRecord, record.type ∈ standard.types →
    record.repository = shownRepository record.type repository →
    Lockstep rel (storage.insert record)
  commit : Lockstep rel storage.commit
  rollback : Lockstep rel storage.rollback

section Watching

structure Watched.Alike (rel : ω → ω → Prop) (w w' : Watched ω) : Prop where
  inner : rel w.inner w'.inner
  sessions : w.sessions = w'.sessions
  lookups : w.lookups = w'.lookups
  insertions : w.insertions = w'.insertions
  calls : w.calls = w'.calls

variable {rel : ω → ω → Prop}

theorem Watched.reach_lockstep {action : Action ω α} (h : Lockstep rel action) :
    Lockstep (Watched.Alike rel) (Watched.reach action) := by
  intro w w' hw
  obtain ⟨hresult, hinner⟩ := h _ _ hw.inner
  exact ⟨hresult, hinner, hw.sessions, hw.lookups, hw.insertions, hw.calls⟩

theorem Watched.log_lockstep (call : Call) :
    Lockstep (Watched.Alike rel) (Watched.log (ω := ω) call) := by
  intro w w' hw
  exact ⟨rfl, hw.inner, hw.sessions, hw.lookups, hw.insertions, congrArg (call :: ·) hw.calls⟩

theorem Watched.reachUnless_lockstep (fault : Option ImportError) {action : Action ω α}
    (h : Lockstep rel action) :
    Lockstep (Watched.Alike rel) (Watched.reachUnless fault action) := by
  cases fault with
  | none => exact Watched.reach_lockstep h
  | some e => exact .still _

theorem Watched.reachDespite_lockstep (fault : Option ImportError) {action : Action ω α}
    (h : Lockstep rel action) :
    Lockstep (Watched.Alike rel) (Watched.reachDespite fault action) :=
  (Watched.reach_lockstep h).bind (fun _ => by cases fault <;> exact .still _)

variable {repository : Int} {storage : Storage ω}

theorem Blind.watched (h : Blind repository rel storage) (plan : FaultPlan) :
    Blind repository (Watched.Alike rel) (storage.watched plan) := by
  have logged {α : Type} (result : α) (call : Call) : Lockstep (Watched.Alike rel)
      (do Watched.log (ω := ω) call; return result : StateM (Watched ω) α) :=
    (Watched.log_lockstep call).bind (fun _ => .still _)
  constructor
  · refine (Lockstep.modify ?_).bind (fun _ => .get_bind (fun w w' hw => ⟨?_, ?_⟩))
    · intro w w' hw
      exact ⟨hw.inner, congrArg (· + 1) hw.sessions, rfl, rfl, hw.calls⟩
    · rw [hw.sessions]
    · exact (Watched.reachUnless_lockstep _ h.begin).bind (fun _ => logged _ _)
  · intro t ht id owner howner
    refine (Lockstep.modify ?_).bind (fun _ => .get_bind (fun w w' hw => ⟨?_, ?_⟩))
    · intro w w' hw
      exact ⟨hw.inner, hw.sessions, congrArg (· + 1) hw.lookups, hw.insertions, hw.calls⟩
    · rw [hw.sessions, hw.lookups]
    · exact (Watched.reachUnless_lockstep _ (h.recordExists t ht id owner howner)).bind
        (fun _ => logged _ _)
  · intro record ht howner
    refine (Lockstep.modify ?_).bind (fun _ => .get_bind (fun w w' hw => ⟨?_, ?_⟩))
    · intro w w' hw
      exact ⟨hw.inner, hw.sessions, hw.lookups, congrArg (· + 1) hw.insertions, hw.calls⟩
    · rw [hw.sessions, hw.insertions]
    · exact (Watched.reachUnless_lockstep _ (h.insert record ht howner)).bind
        (fun _ => logged _ _)
  · refine Lockstep.get_bind (fun w w' hw => ⟨?_, ?_⟩)
    · rw [hw.sessions]
    · dsimp only
      split
      · exact (Watched.reachDespite_lockstep _ h.rollback).bind (fun _ => logged _ _)
      · exact (Watched.reach_lockstep h.commit).bind (fun _ => logged _ _)
  · refine Lockstep.get_bind (fun w w' hw => ⟨?_, ?_⟩)
    · rw [hw.sessions]
    · exact (Watched.reachDespite_lockstep _ h.rollback).bind (fun _ => logged _ _)

end Watching

section Importing

variable {repository : Int} {rel : ω → ω → Prop} {storage : Storage ω}
  (blind : Blind repository rel storage) (created : Created)

include blind

theorem persist_lockstep {record : Record} (registered : record.type ∈ standard.types) :
    Lockstep rel (persist ⟨standard, repository⟩ storage created record) := by
  refine persist_compares (Twin.compares rel) created ?_ record
    (fun _ => blind.insert _ registered rfl)
  intro site reference r t hparse own ht
  obtain ⟨hmem, howner⟩ := parse_scope hparse own t ht
  exact blind.recordExists t hmem r.id r.repository howner

omit blind

structure World.Alike (rel : ω → ω → Prop) (world world' : World ω) : Prop where
  storage : rel world.storage world'.storage
  trail : world.trail = world'.trail

theorem World.call_lockstep {action : Action ω α} (h : Lockstep rel action) :
    Lockstep (World.Alike rel) (World.call action) := by
  intro world world' hworld
  obtain ⟨hresult, hstorage⟩ := h _ _ hworld.storage
  exact ⟨hresult, hstorage, hworld.trail⟩

theorem World.step_lockstep (s : Step) : Lockstep (World.Alike rel) (World.step (ω := ω) s) :=
  .modify (fun _ _ hworld => ⟨hworld.storage, congrArg (s :: ·) hworld.trail⟩)

include blind

theorem persistAll_lockstep (ending : Option ImportError) {records : List Record}
    (registered : ∀ record ∈ records, record.type ∈ standard.types) :
    Lockstep (World.Alike rel)
      (persistAll ⟨standard, repository⟩ storage ending records created) := by
  rintro world world' ⟨hstorage, htrail⟩
  obtain ⟨hresult, hstorage', htrail'⟩ := persistAll_twin
    (fun record hrecord created => persist_lockstep blind created (registered record hrecord))
    ending created world world' ⟨hstorage, htrail⟩
  exact ⟨hresult, hstorage', htrail'⟩

theorem attempt_lockstep (body : List UInt8) :
    Lockstep (World.Alike rel) (attempt ⟨standard, repository⟩ storage body) := by
  rw [attempt]
  refine (World.call_lockstep blind.begin).bind (fun begun => ?_)
  cases begun with
  | error e => exact .still _
  | ok =>
    refine (persistAll_lockstep blind Created.empty _
      (fun record hrecord => (recordsOf_admitted hrecord).registered)).bind (fun processed => ?_)
    cases processed.error with
    | none =>
      refine (World.call_lockstep blind.commit).bind (fun committed => ?_)
      cases committed <;> exact .still _
    | some e => exact (World.call_lockstep blind.rollback).bind (fun _ => .still _)

theorem attempts_lockstep (policy : RetryPolicy) (body : List UInt8) (more number : Nat) :
    Lockstep (World.Alike rel)
      (attempts ⟨standard, repository⟩ storage policy body more number) := by
  induction more generalizing number with
  | zero =>
    rw [attempts]
    refine (World.step_lockstep _).bind (fun _ =>
      (attempt_lockstep blind body).bind (fun result => ?_))
    cases result <;> exact .still _
  | succ more ih =>
    rw [attempts]
    refine (World.step_lockstep _).bind (fun _ =>
      (attempt_lockstep blind body).bind (fun result => ?_))
    cases result with
    | retry e =>
      exact (World.step_lockstep _).bind
        (fun _ => (World.step_lockstep _).bind (fun _ => ih (number + 1)))
    | committed | fatal => exact .still _

end Importing

end Accession.Batch
