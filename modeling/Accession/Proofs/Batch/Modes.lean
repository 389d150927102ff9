import Accession.Proofs.Batch.Parallel
import Accession.Proofs.Batch.Prefixes
import Accession.Proofs.Batch.Repetition
set_option autoImplicit false

/-!
# With transactions and without

What is looked up and inserted depends on the database only and not on an open transaction, so both
modes of the storage process a batch alike (`processedOnce_eq`). They differ in what becomes of a
batch that fails: a transaction is taken back, otherwise the records in front of the one that failed
stay. To be stored, these need nothing of what comes after them (`persistAll_append`), so they are
what a batch of them alone would have left.
-/
namespace Accession.Batch

open Registry (standard)
open Store (Connection Database)

section Storing

variable (target : Target)

theorem persistAll_append {ω : Type} (storage : Storage ω) (ending : Option ImportError)
    (front rest : List Record) (created : Created) (world : World ω) :
    persistAll target storage ending (front ++ rest) created world =
      match persistAll target storage none front created world with
      | (⟨created, none⟩, world) => persistAll target storage ending rest created world
      | (⟨created, some e⟩, world) => (⟨created, some e⟩, world) := by
  induction front generalizing created world with
  | nil => rfl
  | cons record front ih =>
    rw [List.cons_append, persistAll, persistAll, stateM_bind_run, stateM_bind_run, World.call_run]
    dsimp only
    rcases (persist target storage created record world.storage).1 with e | persisted
    · rfl
    · exact ih _ _

/-- A batch that fails: the records in front of the failure are stored, and then there are no more,
or the next one cannot be stored. -/
theorem persistAll_fails {ω : Type} {storage : Storage ω} {ending : Option ImportError}
    {records : List Record} {created kept : Created} {world world' : World ω} {e : ImportError}
    (h : persistAll target storage ending records created world = (⟨kept, some e⟩, world')) :
    ∃ front rest between, records = front ++ rest ∧
      persistAll target storage none front created world = (⟨kept, none⟩, between) ∧
      (rest = [] ∧ ending = some e ∧ world' = between ∨
        ∃ record more s, rest = record :: more ∧
          persist target storage kept record between.storage = (.error e, s) ∧
          world' = { between with storage := s }) := by
  induction records generalizing created world with
  | nil =>
    cases h
    exact ⟨[], [], _, rfl, rfl, .inl ⟨rfl, rfl, rfl⟩⟩
  | cons record rest ih =>
    rw [persistAll, stateM_bind_run, World.call_run] at h
    dsimp only at h
    rcases hstored : persist target storage created record world.storage with ⟨e' | persisted, s⟩
    · rw [hstored] at h
      cases h
      exact ⟨[], record :: rest, world, rfl, rfl, .inr ⟨record, rest, s, rfl, hstored, rfl⟩⟩
    · rw [hstored] at h
      obtain ⟨front, rest, between, rfl, hfront, hstop⟩ := ih h
      refine ⟨record :: front, rest, between, rfl, ?_, hstop⟩
      rw [persistAll, stateM_bind_run, World.call_run, hstored]
      exact hfront

variable (transactional : Bool)

theorem persistAll_stops {ending : Option ImportError} {records : List Record}
    {created kept : Created} {world world' : World Connection} {e : ImportError}
    (h : persistAll target (Connection.storage transactional) ending records created world
      = (⟨kept, some e⟩, world')) :
    ∃ front rest, records = front ++ rest ∧
      persistAll target (Connection.storage transactional) none front created world
        = (⟨kept, none⟩, world') ∧
      (rest = [] ∧ ending = some e ∨
        ∃ record more, rest = record :: more ∧
          persist target (Connection.storage transactional) kept record world'.storage
            = (.error e, world'.storage)) := by
  obtain ⟨front, rest, between, hrecords, hfront, hstop⟩ := persistAll_fails target h
  obtain ⟨rfl, hending, rfl⟩ | ⟨record, more, s, rfl, herror, rfl⟩ := hstop
  · exact ⟨front, [], hrecords, hfront, .inl ⟨rfl, hending⟩⟩
  · obtain ⟨e', hsame⟩ | ⟨persisted, database, hstored, -⟩ :=
      persist_cases target kept transactional record between.storage
    · rw [hsame] at herror
      cases herror
      exact ⟨front, _, hrecords, hfront, .inr ⟨record, more, rfl, hsame⟩⟩
    · rw [hstored] at herror
      cases herror

variable {transactional}

theorem persistAll_refused {ending : Option ImportError} {front more : List Record}
    {record : Record} {kept : Created} {world world' : World Connection} {e : ImportError}
    (hfront : persistAll target (Connection.storage transactional) none front Created.empty world
      = (⟨kept, none⟩, world'))
    (hrecord : persist target (Connection.storage transactional) kept record world'.storage
      = (.error e, world'.storage)) :
    persistAll target (Connection.storage transactional) ending (front ++ record :: more)
        Created.empty world = (⟨kept, some e⟩, world') := by
  rw [persistAll_append, hfront]
  dsimp only
  rw [persistAll, stateM_bind_run, World.call_run, hrecord]
  rfl

theorem persist_modes (transactional transactional' : Bool) (created : Created) (record : Record) :
    Twin (fun c c' : Connection => c.database = c'.database)
      (persist target (Connection.storage transactional) created record)
      (persist target (Connection.storage transactional') created record) := by
  refine persist_compares (Twin.compares _) created ?_ record ?_
  · intro _ _ r t _ _ _ c c' h
    change (Connection.recordExists t r.id r.repository c).1
        = (Connection.recordExists t r.id r.repository c').1 ∧
      (Connection.recordExists t r.id r.repository c).2.database
        = (Connection.recordExists t r.id r.repository c').2.database
    rw [Connection.recordExists_run, Connection.recordExists_run]
    exact ⟨by rw [h], h⟩
  · intro body c c' h
    change (Connection.insert (newRecord target record body) c).1
        = (Connection.insert (newRecord target record body) c').1 ∧
      (Connection.insert (newRecord target record body) c).2.database
        = (Connection.insert (newRecord target record body) c').2.database
    rw [Connection.insert_run, Connection.insert_run, h]
    split
    · exact ⟨rfl, rfl⟩
    · exact ⟨rfl, h⟩

end Storing

section Importing

variable (target : Target) (db : Database) (body : List UInt8)

/-- A batch processed without a transaction. -/
def stored : Processed × World Connection :=
  process target (Connection.storage false) body { storage := { database := db } }

theorem stored_eq :
    stored target db body
      = persistAll target (Connection.storage false) (recordsOf target.registry body).2
          (recordsOf target.registry body).1 Created.empty { storage := { database := db } } :=
  rfl

def Processed.outcome : Processed → Outcome
  | ⟨created, none⟩ => .success created
  | ⟨created, some e⟩ => .failure created e

theorem processedOnce_eq :
    (processedOnce target body db).1 = (stored target db body).1 ∧
      (processedOnce target body db).2.storage.database
        = (stored target db body).2.storage.database := by
  obtain ⟨hprocessed, hdatabase, -⟩ := persistAll_twin
    (fun record _ created => persist_modes target true false created record)
    (recordsOf target.registry body).2 Created.empty
    { storage := { database := db, saved := some db } } { storage := { database := db } }
    ⟨rfl, rfl⟩
  exact ⟨hprocessed, hdatabase⟩

variable {db}

theorem attempt_clean {ω : Type} {storage : Storage ω}
    (reads : ∀ t id repository w, (storage.recordExists t id repository w).2 = w)
    (world : World (Watched ω)) (plain : World ω) (same : world.storage.inner = plain.storage) :
    ∃ r world' plain',
      attempt target (storage.watched FaultPlan.empty) body world = (r, world') ∧
      attempt target storage body plain = (r, plain') ∧
      world'.storage.inner = plain'.storage := by
  rw [attempt_run, attempt_run]
  -- a call that fails as planned is no case here, since nothing is planned
  obtain ⟨r, s, hbegin, -, hin | ⟨_, hplan, -⟩⟩ :=
    watched_begin storage FaultPlan.empty world.storage
  · rw [same] at hin
    rw [hbegin, ← hin]
    cases r with
    | error e => exact ⟨_, _, _, rfl, rfl, rfl⟩
    | ok =>
      obtain ⟨processed, w₁, hprocess, -, ⟨hsame, hin₁⟩ | ⟨_, _, _, hplan, -⟩⟩ :=
        process_relays target FaultPlan.empty reads body { world with storage := s }
          { plain with storage := s.inner } rfl
      · rcases hplain : process target storage body { plain with storage := s.inner }
          with ⟨processed', p₁⟩
        rw [hplain] at hsame hin₁
        obtain rfl : processed = processed' := hsame
        dsimp only at hin₁ ⊢
        rw [hprocess, hplain]
        rcases processed with ⟨created, _ | e⟩
        · obtain ⟨r, s', hcommit, -, hin' | ⟨_, hplan, -⟩⟩ :=
            watched_commit storage FaultPlan.empty w₁.storage
          · rw [hin₁] at hin'
            dsimp only
            rw [hcommit, ← hin']
            cases r <;> exact ⟨_, _, _, rfl, rfl, rfl⟩
          · cases hplan
        · obtain ⟨r, s', hrollback, -, hin'⟩ :=
            watched_rollback storage FaultPlan.empty w₁.storage
          rw [hin₁] at hin'
          dsimp only
          rw [hrollback]
          exact ⟨_, _, _, rfl, rfl, hin'⟩
      · cases hplan
  · cases hplan

theorem attempt_direct (world : World (Watched Connection))
    (fresh : world.storage.inner = { database := db }) :
    ∃ r world',
      attempt target ((Connection.storage false).watched FaultPlan.empty) body world
        = (r, world') ∧
      (∀ e, r ≠ .retry e) ∧ r.outcome = (stored target db body).1.outcome ∧
      world'.storage.inner = (stored target db body).2.storage := by
  obtain ⟨r, world', plain', hrun, hplain, hin⟩ := attempt_clean target body
    (recordExists_reads false) world { storage := { database := db } } fresh
  refine ⟨r, world', hrun, ?_⟩
  rw [attempt_run, Connection.storage_begin] at hplain
  dsimp only at hplain
  rw [if_neg Bool.false_ne_true] at hplain
  rcases hstored : stored target db body with ⟨⟨created, _ | e⟩, w⟩
  all_goals
    rw [stored] at hstored
    rw [hstored] at hplain
    cases hplain
    exact ⟨nofun, rfl, hin⟩

end Importing

namespace Import

variable {i : Import} (registry : Registry) (db : Database) (clean : i.faults = FaultPlan.empty)

include clean

theorem direct_run (direct : i.transactional = false) :
    i.outcome registry db = (stored (i.target registry) db i.body).1.outcome ∧
      i.database registry db = (stored (i.target registry) db i.body).2.storage.database := by
  obtain ⟨r, world', hrun, hdecisive, houtcome, hin⟩ := attempt_direct (i.target registry) i.body
    { storage := { inner := { database := db } }, trail := [.activity (.beginAttempt 1)] } rfl
  have hworld : i.world registry db = (r.outcome, world') := by
    rw [Import.world, storage, direct, clean]
    exact attempts_settled i.policy _ hdecisive hrun
  rw [outcome, database_eq, hworld]
  exact ⟨houtcome, congrArg Connection.database hin⟩

theorem whole_run (whole : i.transactional = true) :
    i.outcome registry db = (undisturbed (i.target registry) i.body db).1.outcome ∧
      i.database registry db = (undisturbed (i.target registry) i.body db).2.database := by
  have quiet : ∀ op session call, i.faults op session call = none := by
    intro op session call
    rw [clean]
    rfl
  have passing : ∀ op session call e, i.faults op session call = some e →
      e.isRetryable = true := by
    intro op session call e h
    rw [quiet] at h
    cases h
  by_cases h : ∃ e, (undisturbed (i.target registry) i.body db).1 = .retry e
  · obtain ⟨e, unlucky⟩ := h
    obtain ⟨e', houtcome, hdatabase, rfl | ⟨op, call, hplan⟩⟩ :=
      exhausted whole passing unlucky
    · rw [houtcome, hdatabase, unlucky, (undisturbed_retry unlucky).1]
      exact ⟨rfl, rfl⟩
    · rw [quiet] at hplan
      cases hplan
  · exact decided whole passing (fun e he => h ⟨e, he⟩) [] (fun op session call _ =>
      quiet op session call) (Nat.zero_le _)

theorem run_of_stored {created : Created} {error : Option ImportError} {world : World Connection}
    (h : stored (i.target registry) db i.body = (⟨created, error⟩, world)) :
    match error with
    | none => i.outcome registry db = .success created ∧
        i.database registry db = world.storage.database
    | some e =>
      if i.transactional then
        i.outcome registry db = .failure Created.empty e ∧ i.database registry db = db
      else i.outcome registry db = .failure created e ∧
        i.database registry db = world.storage.database := by
  cases hmode : i.transactional with
  | false =>
    obtain ⟨houtcome, hdatabase⟩ := direct_run registry db clean hmode
    rw [h] at houtcome hdatabase
    cases error <;> exact ⟨houtcome, hdatabase⟩
  | true =>
    obtain ⟨houtcome, hdatabase⟩ := whole_run registry db clean hmode
    obtain ⟨hprocessed, hsame⟩ := processedOnce_eq (i.target registry) db i.body
    rw [h] at hprocessed hsame
    rw [undisturbed, hprocessed] at houtcome hdatabase
    cases error with
    | none => exact ⟨houtcome, hdatabase.trans hsame⟩
    | some e =>
      refine ⟨houtcome.trans ?_, hdatabase⟩
      change (if e.isRetryable then AttemptResult.retry e else .fatal e Created.empty).outcome = _
      split <;> rfl

theorem errors_of_stored {created : Created} {e : ImportError} {world : World Connection}
    (h : stored (i.target registry) db i.body = (⟨created, some e⟩, world)) :
    (i.outcome registry db).errors = some ["Server error: " ++ e.message] := by
  have hrun := run_of_stored registry db clean h
  dsimp only at hrun
  split at hrun <;> rw [hrun.1] <;> rfl

end Import

/-- A batch that fails after some records: it has no more of them and cannot be read on, or the next
one is refused, and so is every batch that goes on with it. -/
def FailsAfter (registry : Registry) (db : Database) (i : Import) (front : List Record) : Prop :=
  (∃ e, recordsOf registry i.body = (front, some e) ∧
      (i.outcome registry db).errors = some ["Server error: " ++ e.message]) ∨
    ∃ record more, (recordsOf registry i.body).1 = front ++ record :: more ∧
      ∀ j : Import, j.repository = i.repository → j.faults = FaultPlan.empty →
        (∃ others, (recordsOf registry j.body).1 = front ++ record :: others) →
        (j.outcome registry db).isSuccess = false ∧
          (j.outcome registry db).errors = (i.outcome registry db).errors

/-- The two modes agree: an import in a transaction and one without, of one body into one repository
and the same database, give the same verdict and the same errors. If they succeed, they save the same
records and leave the same database. If they fail, the transaction leaves everything as it was and
reports nothing as saved; the other import saves and leaves exactly what every import does, in either
mode, that has the records in front of the failure and no others. -/
theorem modes_agree (registry : Registry) (db : Database) (repository : Int) (body : List UInt8)
    (policy policy' : RetryPolicy) :
    let whole : Import := { repository, transactional := true, policy, body }
    let direct : Import := { repository, transactional := false, policy := policy', body }
    (whole.outcome registry db).isSuccess = (direct.outcome registry db).isSuccess ∧
    (whole.outcome registry db).errors = (direct.outcome registry db).errors ∧
    ((direct.outcome registry db).isSuccess = true →
      (whole.outcome registry db).saved = (direct.outcome registry db).saved ∧
        whole.database registry db = direct.database registry db) ∧
    ((direct.outcome registry db).isSuccess = false →
      (whole.outcome registry db).saved = Created.empty ∧ whole.database registry db = db ∧
      ∃ front, FailsAfter registry db direct front ∧
        (∃ alone, recordsOf registry alone = (front, none)) ∧
        ∀ alone : Import, alone.repository = repository → alone.faults = FaultPlan.empty →
          recordsOf registry alone.body = (front, none) →
          alone.outcome registry db = .success (direct.outcome registry db).saved ∧
            alone.database registry db = direct.database registry db) := by
  intro whole direct
  rcases hstored : stored ⟨registry, repository⟩ db body with ⟨⟨created, _ | e⟩, world⟩
  · obtain ⟨hwhole, hwhole'⟩ := Import.run_of_stored (i := whole) registry db rfl hstored
    obtain ⟨hdirect, hdirect'⟩ := Import.run_of_stored (i := direct) registry db rfl hstored
    rw [hwhole, hdirect, hwhole', hdirect']
    exact ⟨rfl, rfl, fun _ => ⟨rfl, rfl⟩, nofun⟩
  · obtain ⟨hwhole, hwhole'⟩ := Import.run_of_stored (i := whole) registry db rfl hstored
    obtain ⟨hdirect, hdirect'⟩ := Import.run_of_stored (i := direct) registry db rfl hstored
    -- the state that the failure is met in is the one after the records in front of it
    obtain ⟨front, rest, hrecords, hfront, hstop⟩ :=
      persistAll_stops ⟨registry, repository⟩ false hstored
    rw [hwhole, hdirect, hwhole', hdirect']
    refine ⟨rfl, rfl, nofun, fun _ => ⟨rfl, rfl, front, ?_, ?_, ?_⟩⟩
    · obtain ⟨rfl, hending⟩ | ⟨record, more, rfl, hrecord⟩ := hstop
      · rw [List.append_nil] at hrecords
        exact .inl ⟨e, Prod.ext hrecords hending, congrArg Outcome.errors hdirect⟩
      · refine .inr ⟨record, more, hrecords, ?_⟩
        rintro j rfl clean ⟨others, hothers⟩
        have hrefused : stored (j.target registry) db j.body = (⟨created, some e⟩, world) := by
          rw [stored_eq, Import.target, hothers]
          exact persistAll_refused _ hfront hrecord
        have herrors := Import.errors_of_stored registry db clean hrefused
        rw [Outcome.isSuccess, herrors, hdirect]
        exact ⟨rfl, rfl⟩
    · exact prefix_alone hrecords
    · rintro alone rfl clean halone
      have hstored' : stored (alone.target registry) db alone.body = (⟨created, none⟩, world) := by
        rw [stored_eq, Import.target, halone]
        exact hfront
      exact Import.run_of_stored registry db clean hstored'

def orphaned : List UInt8 :=
  Text.Utf8.encode ("\x7b\"id\":\"a\",\"title\":\"A\"\x7d"
    ++ "\x7b\"id\":\"b\",\"title\":\"B\",\"parent\":\x7b\"ref\":\"p\"\x7d\x7d")

theorem modes_agree_orphaned :
    let whole : Import := { repository := 1, transactional := true, body := orphaned }
    let direct : Import := { repository := 1, transactional := false, body := orphaned }
    (whole.outcome standard shelf).errors = (direct.outcome standard shelf).errors ∧
    (whole.outcome standard shelf).saved = Created.empty ∧
    whole.database standard shelf = shelf ∧
    (direct.outcome standard shelf).saved.toList
      = [("a", ⟨"/repositories/1/archival_objects/1", 1⟩)] ∧
    ∃ front, FailsAfter standard shelf direct front ∧
      ∃ alone, recordsOf standard alone = (front, none) := by
  intro whole direct
  obtain ⟨-, herrors, -, hfail⟩ := modes_agree standard shelf 1 orphaned {} {}
  have hfailed : (direct.outcome standard shelf).isSuccess = false := by decide +kernel
  obtain ⟨hsaved, hdatabase, front, hfront, halone, -⟩ := hfail hfailed
  exact ⟨herrors, hsaved, hdatabase, by decide +kernel, front, hfront, halone⟩

end Accession.Batch
