import Accession.Proofs.Batch.CreatedMap
import Accession.Proofs.Batch.Parallel
import Accession.Proofs.Batch.Records
set_option autoImplicit false

namespace Accession.Batch

open Json (Value Members)
open Registry (Field RecordType)
open Store (Connection Database)

variable {ω α β : Type}

theorem Relays.map {plan : FaultPlan} {w : Watched ω} {x : Action (Watched ω) α} {y : Action ω α}
    (h : Relays plan w (x w) (y w.inner)) (f : α → β) :
    Relays plan w ((do return f (← x)) w) ((do return f (← y)) w.inner) := by
  rw [Action.bind_run, Action.bind_run]
  rcases hx : x w with ⟨r, v⟩
  rcases hy : y w.inner with ⟨r', v'⟩
  rw [hx, hy] at h
  obtain ⟨hs, ⟨rfl, rfl⟩ | ⟨op, call, e, hplan, rfl, hin⟩⟩ := h
  · cases r <;> exact ⟨hs, .inl ⟨rfl, rfl⟩⟩
  · exact ⟨hs, .inr ⟨op, call, e, hplan, rfl, hin⟩⟩

/-- The action `y` only reads, and `x` relays it on the watched state. -/
structure Relayed (plan : FaultPlan) (x : Action (Watched ω) α) (y : Action ω α) : Prop where
  reads : ∀ w, (y w).2 = w
  relays : ∀ w, Relays plan w (x w) (y w.inner)

namespace Relayed

variable {plan : FaultPlan}

theorem pure (a : α) : Relayed (ω := ω) plan (pure a) (pure a) :=
  ⟨fun _ => rfl, fun _ => ⟨rfl, .inl ⟨rfl, rfl⟩⟩⟩

theorem throw (e : ImportError) : Relayed (ω := ω) (α := α) plan (throw e) (throw e) :=
  ⟨fun _ => rfl, fun _ => ⟨rfl, .inl ⟨rfl, rfl⟩⟩⟩

theorem bind_relays {x : Action (Watched ω) α} {y : Action ω α} {f : α → Action (Watched ω) β}
    {g : α → Action ω β} (hx : Relayed plan x y)
    (hf : ∀ a w, Relays plan w (f a w) (g a w.inner)) (w : Watched ω) :
    Relays plan w ((x >>= f) w) ((y >>= g) w.inner) := by
  obtain ⟨hs, hsame | ⟨op, call, e, hplan, he, hin⟩⟩ := hx.relays w
  · have hread := hx.reads w.inner
    rw [Action.bind_run, Action.bind_run]
    rcases hxw : x w with ⟨r, v⟩
    rcases hyw : y w.inner with ⟨r', v'⟩
    rw [hxw, hyw] at hsame
    rw [hyw] at hread
    rw [hxw] at hs
    obtain ⟨rfl, rfl⟩ := hsame
    cases r with
    | error e => exact ⟨hs, .inl ⟨rfl, rfl⟩⟩
    | ok a =>
      obtain ⟨hs', h⟩ := hf a v
      refine ⟨hs'.trans hs, h.imp_right ?_⟩
      rintro ⟨op, call, e, hplan, he, hin⟩
      exact ⟨op, call, e, hs ▸ hplan, he, hin.trans hread⟩
  · rw [Action.bind_run]
    rcases hxw : x w with ⟨r, v⟩
    rw [hxw] at hs he hin
    obtain rfl : r = .error e := he
    exact ⟨hs, .inr ⟨op, call, e, hplan, rfl, hin⟩⟩

theorem bind {x : Action (Watched ω) α} {y : Action ω α} {f : α → Action (Watched ω) β}
    {g : α → Action ω β} (hx : Relayed plan x y) (hf : ∀ a, Relayed plan (f a) (g a)) :
    Relayed plan (x >>= f) (y >>= g) where
  reads w := by
    have h := hx.reads w
    rw [Action.bind_run]
    rcases hr : y w with ⟨_ | a, v⟩ <;> rw [hr] at h
    · exact h
    · exact ((hf a).reads v).trans h
  relays := hx.bind_relays (fun a => (hf a).relays)

theorem compares : Compares (fun _ => Relayed (ω := ω) plan) :=
  ⟨pure, throw, bind⟩

end Relayed

section Resolving

variable (target : Target) (storage : Storage ω) (created : Created) (plan : FaultPlan)
  (reads : ∀ t id repository w, (storage.recordExists t id repository w).2 = w)

include reads

theorem rewriteFields_relayed (subject : String) (fields : List Field) (body : Members) :
    Relayed plan (rewriteFields target (storage.watched plan) created subject fields body)
      (rewriteFields target storage created subject fields body) :=
  rewriteFields_compares Relayed.compares created
    (fun _ _ r t _ _ _ => ⟨reads t r.id r.repository,
      fun w => w.recordExists_relays plan storage t r.id r.repository⟩) subject fields body

theorem persist_relays (record : Record) (w : Watched ω) :
    Relays plan w (persist target (storage.watched plan) created record w)
      (persist target storage created record w.inner) :=
  (rewriteFields_relayed target storage created plan reads _ _ _).bind_relays
    (fun _ v => (v.insert_relays plan storage _).map _) w

end Resolving

/-- What storing a record comes to: its references were resolved, and one row went into the table
of its type. -/
def Stores (target : Target) (created : Created) (c : Connection) (record : Record)
    (persisted : Persisted) (db : Database) : Prop :=
  ∃ transactional body,
    rewriteFields target (Connection.storage transactional) created record.logicalId
      record.type.schema.referenceFields record.body c = (.ok body, c) ∧
    c.database.insert record.type.table (Store.NewRecord.columns (newRecord target record body))
      = .ok (persisted.id, db) ∧
    persisted.uri = Registry.uriFor record.type target.repository persisted.id

section Persisting

variable (target : Target) (created : Created) (transactional : Bool) (plan : FaultPlan)

theorem recordExists_reads (t : RecordType) (id : Int) (repository : Option Int) (c : Connection) :
    ((Connection.storage transactional).recordExists t id repository c).2 = c := by
  change (Connection.recordExists t id repository c).2 = c
  rw [Connection.recordExists_run]

theorem persist_cases (record : Record) (c : Connection) :
    (∃ e, persist target (Connection.storage transactional) created record c = (.error e, c)) ∨
      ∃ persisted database,
        persist target (Connection.storage transactional) created record c
          = (.ok persisted, { c with database }) ∧
        Stores target created c record persisted database := by
  have hreads := (rewriteFields_relayed target (Connection.storage transactional) created
    (fun _ _ _ => none) (recordExists_reads transactional) record.logicalId
    record.type.schema.referenceFields record.body).reads c
  unfold persist
  rw [Action.bind_run]
  rcases hr : rewriteFields target (Connection.storage transactional) created record.logicalId
    record.type.schema.referenceFields record.body c with ⟨_ | body, c'⟩ <;> rw [hr] at hreads <;>
    obtain rfl : c' = c := hreads
  · exact .inl ⟨_, rfl⟩
  · dsimp only
    rw [Action.bind_run, show (Connection.storage transactional).insert = Connection.insert from rfl,
      Connection.insert_run]
    rcases hi : c'.database.insert (newRecord target record body).type.table
      (Store.NewRecord.columns (newRecord target record body)) with e | ⟨id, database⟩
    · exact .inl ⟨_, rfl⟩
    · exact .inr ⟨_, database, rfl, transactional, body, hr, hi, rfl⟩

theorem persist_watched_cases (record : Record) (w : Watched Connection) :
    ∃ r w', persist target ((Connection.storage transactional).watched plan) created record w
        = (r, w') ∧
      w'.sessions = w.sessions ∧ w'.inner.saved = w.inner.saved ∧
      ((∃ e, r = .error e ∧ w'.inner.database = w.inner.database) ∨
        ∃ persisted, r = .ok persisted ∧
          Stores target created w.inner record persisted w'.inner.database) := by
  have hrelays := persist_relays target (Connection.storage transactional) created plan
    (recordExists_reads transactional) record w
  rcases hw : persist target ((Connection.storage transactional).watched plan) created record w
    with ⟨r, w'⟩
  rw [hw] at hrelays
  refine ⟨r, w', rfl, hrelays.1, ?_⟩
  obtain ⟨hr, hin⟩ | ⟨_, _, e, -, hr, hin⟩ := hrelays.2
  · obtain ⟨e, he⟩ | ⟨persisted, database, he, hstores⟩ :=
      persist_cases target created transactional record w.inner
    · rw [he] at hr hin
      exact ⟨congrArg Connection.saved hin, .inl ⟨e, hr, congrArg Connection.database hin⟩⟩
    · rw [he] at hr
      have hin : w'.inner = { w.inner with database } := by rw [he] at hin; exact hin
      rw [hin]
      exact ⟨rfl, .inr ⟨persisted, hr, hstores⟩⟩
  · dsimp only at hin
    exact ⟨congrArg Connection.saved hin, .inl ⟨e, hr, congrArg Connection.database hin⟩⟩

variable {target transactional plan}

/-- A property of the created records and the database that every stored record keeps holds, wherever
the batch ends. -/
theorem persistAll_keeps {P : Created → Database → Prop} {records : List Record}
    (step : ∀ record ∈ records, ∀ created c persisted db, created.get? record.logicalId = none →
      created.Indexed → P created c.database → Stores target created c record persisted db →
      P (created.insert record.logicalId persisted).1 db)
    (distinct : (records.map Record.logicalId).Nodup) (ending : Option ImportError)
    {created : Created} (indexed : created.Indexed)
    (fresh : ∀ record ∈ records, created.get? record.logicalId = none)
    (world : World (Watched Connection)) (holds : P created world.storage.inner.database) :
    ∃ processed world',
      persistAll target ((Connection.storage transactional).watched plan) ending records created
        world = (processed, world') ∧
      world'.storage.sessions = world.storage.sessions ∧
      world'.storage.inner.saved = world.storage.inner.saved ∧
      P processed.created world'.storage.inner.database := by
  induction records generalizing created world with
  | nil => exact ⟨_, _, rfl, rfl, rfl, holds⟩
  | cons record rest ih =>
    obtain ⟨r, w', hr, hsessions, hsaved, hcases⟩ :=
      persist_watched_cases target created transactional plan record world.storage
    rw [persistAll, stateM_bind_run, World.call_run, hr]
    have hnew := fresh record List.mem_cons_self
    obtain ⟨e, rfl, hdb⟩ | ⟨persisted, rfl, hstores⟩ := hcases
    · exact ⟨_, _, rfl, hsessions, hsaved, hdb ▸ holds⟩
    · have hfresh := Created.fresh_insert indexed fresh distinct persisted
      obtain ⟨processed, world', hrun, hs, hv, hP⟩ := ih
        (fun other hmem => step other (List.mem_cons_of_mem _ hmem)) (List.nodup_cons.1 distinct).2
        (Created.indexed_insert indexed hnew persisted) hfresh
        { storage := w', trail := .activity .processed :: world.trail }
        (step record List.mem_cons_self created world.storage.inner persisted _ hnew indexed holds
          hstores)
      exact ⟨processed, world', hrun, hs.trans hsessions, hv.trans hsaved, hP⟩

variable (target transactional plan)

theorem process_keeps {P : Created → Database → Prop} (body : List UInt8)
    (step : ∀ record ∈ (recordsOf target.registry body).1, ∀ created c persisted db,
      created.get? record.logicalId = none → created.Indexed → P created c.database →
      Stores target created c record persisted db →
      P (created.insert record.logicalId persisted).1 db)
    (world : World (Watched Connection)) (holds : P Created.empty world.storage.inner.database) :
    ∃ processed world',
      process target ((Connection.storage transactional).watched plan) body world
        = (processed, world') ∧
      world'.storage.sessions = world.storage.sessions ∧
      world'.storage.inner.saved = world.storage.inner.saved ∧
      P processed.created world'.storage.inner.database :=
  persistAll_keeps step (recordsOf_nodup target.registry body) _ Created.indexed_empty
    (fun _ _ => Created.get?_empty _) world holds

end Persisting

section Relaying

variable (target : Target) {storage : Storage ω} (plan : FaultPlan)
  (reads : ∀ t id repository w, (storage.recordExists t id repository w).2 = w)

include reads

/-- A batch on a watched storage ends with a planned failure, or as it ends on the storage itself. -/
theorem persistAll_relays (ending : Option ImportError) (records : List Record) (created : Created)
    (world : World (Watched ω)) (plain : World ω) (same : world.storage.inner = plain.storage) :
    ∃ processed world',
      persistAll target (storage.watched plan) ending records created world = (processed, world') ∧
      world'.storage.sessions = world.storage.sessions ∧
      ((processed = (persistAll target storage ending records created plain).1 ∧
          world'.storage.inner = (persistAll target storage ending records created plain).2.storage) ∨
        ∃ op call e, plan op world.storage.sessions call = some e ∧ processed.error = some e) := by
  induction records generalizing created world plain with
  | nil => exact ⟨_, _, rfl, rfl, .inl ⟨rfl, same⟩⟩
  | cons record rest ih =>
    have hrelays := persist_relays target storage created plan reads record world.storage
    rw [persistAll, persistAll, stateM_bind_run, stateM_bind_run, World.call_run, World.call_run]
    rw [same] at hrelays
    rcases hw : persist target (storage.watched plan) created record world.storage with ⟨r, w'⟩
    rcases hs : persist target storage created record plain.storage with ⟨r', s'⟩
    rw [hw, hs] at hrelays
    obtain ⟨hsessions, ⟨hr, hin⟩ | ⟨op, call, e, hplan, hr, -⟩⟩ := hrelays
    · obtain rfl : r = r' := hr
      cases r with
      | error e => exact ⟨_, _, rfl, hsessions, .inl ⟨rfl, hin⟩⟩
      | ok persisted =>
        obtain ⟨processed, world', hrun, hs, h⟩ :=
          ih (created.insert record.logicalId persisted).1
            { storage := w', trail := .activity .processed :: world.trail }
            { storage := s', trail := .activity .processed :: plain.trail } hin
        refine ⟨processed, world', hrun, hs.trans hsessions, h.imp_right ?_⟩
        rintro ⟨op, call, e, hplan, he⟩
        exact ⟨op, call, e, hsessions ▸ hplan, he⟩
    · obtain rfl : r = .error e := hr
      exact ⟨_, _, rfl, hsessions, .inr ⟨op, call, e, hplan, rfl⟩⟩

theorem process_relays (body : List UInt8) (world : World (Watched ω)) (plain : World ω)
    (same : world.storage.inner = plain.storage) :
    ∃ processed world',
      process target (storage.watched plan) body world = (processed, world') ∧
      world'.storage.sessions = world.storage.sessions ∧
      ((processed = (process target storage body plain).1 ∧
          world'.storage.inner = (process target storage body plain).2.storage) ∨
        ∃ op call e, plan op world.storage.sessions call = some e ∧ processed.error = some e) :=
  persistAll_relays target plan reads _ _ _ world plain same

end Relaying

end Accession.Batch
