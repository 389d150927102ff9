import Accession.Proofs.Batch.Resolution
set_option autoImplicit false

/-!
# One batch on two storages

Storing a record reaches the storage by its calls only. So whatever way there is to compare actions
on two storages, if sequences of actions keep it and the calls of the storages compare, then what
storing a record does compares too (`persist_compares`). One such way is that related states give
the same result and related states again (`Twin`).
-/
namespace Accession.Batch

open Json (Value Members)
open Registry (Field RecordType)

variable {σ τ α β : Type}

/-- A comparison of actions that sequences of actions keep. -/
structure Compares (R : (α : Type) → Action σ α → Action τ α → Prop) : Prop where
  pure : ∀ {α : Type} (a : α), R α (pure a) (pure a)
  throw : ∀ {α : Type} (e : ImportError), R α (throw e) (throw e)
  bind : ∀ {α β : Type} {x : Action σ α} {y : Action τ α} {f : α → Action σ β}
    {g : α → Action τ β}, R α x y → (∀ a, R β (f a) (g a)) → R β (x >>= f) (y >>= g)

section

variable {R : (α : Type) → Action σ α → Action τ α → Prop} (compares : Compares R)
  (target : Target) (storage : Storage σ) (storage' : Storage τ) (created : Created)

/-- The look-ups that resolving a reference of a batch can lead to compare. -/
def LooksUp (R : (α : Type) → Action σ α → Action τ α → Prop) (target : Target)
    (storage : Storage σ) (storage' : Storage τ) : Prop :=
  ∀ (site : Site) (reference : String) (r : Reference) (t : RecordType),
    site.parse target.registry reference reference = .ok r →
    ¬r.repository.any (· != target.repository) = true →
    target.registry.get? r.typeName = some t →
    R Bool (storage.recordExists t r.id r.repository) (storage'.recordExists t r.id r.repository)

variable {target storage storage'} (lookups : LooksUp R target storage storage')

include compares lookups

theorem resolve_compares (site : Site) (reference : String) :
    R String (resolve target storage created site reference)
      (resolve target storage' created site reference) := by
  have lift {α : Type} (x : Except ImportError α) :
      R α (resolve.liftExcept x) (resolve.liftExcept x) := by
    cases x with
    | error e => exact compares.throw e
    | ok a => exact compares.pure a
  unfold resolve
  split
  · exact compares.bind (lift _) (fun _ => compares.pure _)
  · cases hparse : site.parse target.registry reference reference with
    | error e => exact compares.throw e
    | ok r =>
      rw [liftExcept_ok_bind, liftExcept_ok_bind]
      by_cases hother : r.repository.any (· != target.repository) = true
      · rw [if_pos hother, if_pos hother]
        exact compares.throw _
      · rw [if_neg hother, if_neg hother]
        split
        · exact compares.throw _
        · rename_i t ht
          refine compares.bind (lookups site reference r t hparse hother ht) (fun found => ?_)
          cases found with
          | true => exact compares.pure _
          | false => exact compares.throw _

theorem rewrite_compares (site : Site) (value : Value) :
    R Value (rewrite target storage created site value)
      (rewrite target storage' created site value) := by
  unfold rewrite
  split
  · exact compares.throw _
  · refine compares.bind (resolve_compares compares created lookups site _) (fun uri => ?_)
    split <;> exact compares.pure _

theorem rewriteAll_compares (site : Site) (items : List Value) :
    R (List Value) (rewriteAll target storage created site items)
      (rewriteAll target storage' created site items) := by
  induction items with
  | nil => exact compares.pure _
  | cons v rest ih =>
    exact compares.bind (rewrite_compares compares created lookups site v)
      (fun _ => compares.bind ih (fun _ => compares.pure _))

theorem rewriteField_compares (subject : String) (field : Field) (body : Members) :
    R Members (rewriteField target storage created subject field body)
      (rewriteField target storage' created subject field body) := by
  unfold rewriteField
  split
  · exact compares.pure _
  · exact compares.bind (rewriteAll_compares compares created lookups _ _)
      (fun _ => compares.pure _)
  · exact compares.bind (rewrite_compares compares created lookups _ _)
      (fun _ => compares.pure _)

theorem rewriteFields_compares (subject : String) (fields : List Field) (body : Members) :
    R Members (rewriteFields target storage created subject fields body)
      (rewriteFields target storage' created subject fields body) := by
  induction fields generalizing body with
  | nil => exact compares.pure _
  | cons field rest ih =>
    exact compares.bind (rewriteField_compares compares created lookups subject field body)
      (fun body => ih body)

theorem persist_compares (record : Record)
    (insert : ∀ body, R Int (storage.insert (newRecord target record body))
      (storage'.insert (newRecord target record body))) :
    R Persisted (persist target storage created record)
      (persist target storage' created record) :=
  compares.bind (rewriteFields_compares compares created lookups _ _ _)
    (fun body => compares.bind (insert body) (fun _ => compares.pure _))

end

/-- Two programs that give the same result in related states, and related states again. -/
def Twin (rel : σ → τ → Prop) (x : σ → α × σ) (y : τ → α × τ) : Prop :=
  ∀ s t, rel s t → (x s).1 = (y t).1 ∧ rel (x s).2 (y t).2

namespace Twin

variable {rel : σ → τ → Prop}

theorem action_bind {x : Action σ α} {y : Action τ α} {f : α → Action σ β} {g : α → Action τ β}
    (hx : Twin rel x y) (hf : ∀ a, Twin rel (f a) (g a)) : Twin rel (x >>= f) (y >>= g) := by
  intro s t h
  obtain ⟨hresult, hstate⟩ := hx s t h
  rw [Action.bind_run, Action.bind_run]
  rcases hr : x s with ⟨r, s₁⟩
  rcases hr' : y t with ⟨r', t₁⟩
  rw [hr, hr'] at hresult hstate
  obtain rfl : r = r' := hresult
  cases r with
  | error e => exact ⟨rfl, hstate⟩
  | ok a => exact hf a s₁ t₁ hstate

theorem compares (rel : σ → τ → Prop) : Compares (fun _ => Twin rel) where
  pure _ _ _ h := ⟨rfl, h⟩
  throw _ _ _ h := ⟨rfl, h⟩
  bind := action_bind

end Twin

theorem persistAll_twin {rel : σ → τ → Prop} {target : Target} {storage : Storage σ}
    {storage' : Storage τ} {records : List Record}
    (step : ∀ record ∈ records, ∀ created, Twin rel (persist target storage created record)
      (persist target storage' created record))
    (ending : Option ImportError) (created : Created) :
    Twin (fun world world' => rel world.storage world'.storage ∧ world.trail = world'.trail)
      (persistAll target storage ending records created)
      (persistAll target storage' ending records created) := by
  induction records generalizing created with
  | nil => exact fun _ _ h => ⟨rfl, h⟩
  | cons record rest ih =>
    rintro world world' ⟨hstorage, htrail⟩
    obtain ⟨hresult, hrel⟩ :=
      step record List.mem_cons_self created world.storage world'.storage hstorage
    rw [persistAll, persistAll, stateM_bind_run, stateM_bind_run, World.call_run, World.call_run]
    dsimp only
    rw [← hresult]
    rcases (persist target storage created record world.storage).1 with e | persisted
    · exact ⟨rfl, hrel, htrail⟩
    · exact ih (fun other hother => step other (List.mem_cons_of_mem _ hother)) _
        ⟨_, .activity .processed :: world.trail⟩ ⟨_, .activity .processed :: world'.trail⟩
        ⟨hrel, congrArg _ htrail⟩

end Accession.Batch
