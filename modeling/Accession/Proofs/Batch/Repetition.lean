import Accession.Proofs.Batch.Imports
import Accession.Registry.Standard
set_option autoImplicit false

/-!
# Repeated attempts

An attempt that fails as planned, and passingly, leaves no trace: the next one meets the storage as
the first did, and the first attempt that no fault strikes ends as an undisturbed import ends. What
an attempt comes to without faults is the result of the attempt on the bare connection.
-/
namespace Accession.Batch

open Store (Connection Database)

def AttemptResult.outcome : AttemptResult → Outcome
  | .committed created => .success created
  | .retry error => .failure Created.empty error
  | .fatal error kept => .failure kept error

theorem attempts_settled {ω : Type} {target : Target} {storage : Storage ω} {body : List UInt8}
    (policy : RetryPolicy) (more : Nat) {number : Nat} {world world' : World ω} {r : AttemptResult}
    (decisive : ∀ e, r ≠ .retry e)
    (h : attempt target storage body
        { world with trail := .activity (.beginAttempt (UInt32.ofNat number)) :: world.trail }
      = (r, world')) :
    attempts target storage policy body more number world = (r.outcome, world') := by
  rw [attempts_run, h]
  cases r with
  | retry e => exact absurd rfl (decisive e)
  | committed created => rfl
  | fatal e kept => rfl

theorem struck_after_lt {struck : List Nat} {number : Nat} (h : number ∈ struck) :
    (struck.filter (fun n => decide (number + 1 ≤ n))).length
      < (struck.filter (fun n => decide (number ≤ n))).length := by
  have hsub : struck.filter (fun n => decide (number + 1 ≤ n))
      = (struck.filter (fun n => decide (number ≤ n))).filter
          (fun n => decide (number + 1 ≤ n)) := by
    rw [List.filter_filter]
    congr 1
    funext n
    rw [← Bool.decide_and, decide_eq_decide]
    omega
  rw [hsub, List.length_filter_lt_length_iff_exists]
  exact ⟨number, List.mem_filter.2 ⟨h, decide_eq_true (Nat.le_refl _)⟩, by simp⟩

def settled (db : Database) (storage : Connection) : Processed → AttemptResult × Connection
  | ⟨created, none⟩ => (.committed created, { storage with saved := none })
  | ⟨created, some e⟩ => (failed (Connection.storage true) created e, { database := db })

section

variable (target : Target) (plan : FaultPlan) (body : List UInt8) (db : Database)

theorem process_open (world : World (Watched Connection)) :
    (process target ((Connection.storage true).watched plan) body world).2.storage.inner.saved
      = world.storage.inner.saved := by
  obtain ⟨_, _, hrun, -, hsaved, -⟩ := process_keeps target true plan
    (P := fun _ _ => True) body (fun _ _ _ _ _ _ _ _ _ _ => trivial) world trivial
  rw [hrun]
  exact hsaved

/-- The batch processed on the connection itself, in a transaction. -/
def processedOnce : Processed × World Connection :=
  process target (Connection.storage true) body
    { storage := { database := db, saved := some db } }

/-- The result of an attempt on the connection itself, and the connection after it. -/
def undisturbed : AttemptResult × Connection :=
  settled db (processedOnce target body db).2.storage (processedOnce target body db).1

variable {target body db}

theorem undisturbed_retry {e : ImportError} (h : (undisturbed target body db).1 = .retry e) :
    (undisturbed target body db).2 = { database := db } ∧ e.isRetryable = true := by
  rw [undisturbed] at h ⊢
  generalize (processedOnce target body db).1 = processed at h ⊢
  rcases processed with ⟨created, _ | e'⟩
  · cases h
  · refine ⟨rfl, ?_⟩
    change (if e'.isRetryable then AttemptResult.retry e' else .fatal e' Created.empty)
      = .retry e at h
    split at h
    · rename_i he
      obtain rfl : e' = e := by injection h
      exact he
    · cases h

end

section

variable (target : Target) {plan : FaultPlan} (body : List UInt8) {db : Database}
  (passing : ∀ op session call e, plan op session call = some e → e.isRetryable = true)

include passing

/-- An attempt ends undisturbed, or it fails as planned and leaves the connection as it was. -/
theorem attempt_repeats (world : World (Watched Connection))
    (fresh : world.storage.inner = { database := db }) :
    ∃ r world',
      attempt target ((Connection.storage true).watched plan) body world = (r, world') ∧
      world'.storage.sessions = world.storage.sessions + 1 ∧
      ((r = (undisturbed target body db).1 ∧
          world'.storage.inner = (undisturbed target body db).2) ∨
        ∃ op call e, plan op (world.storage.sessions + 1) call = some e ∧ r = .retry e ∧
          world'.storage.inner = { database := db }) := by
  have hretry : ∀ created e, e.isRetryable = true →
      failed ((Connection.storage true).watched plan) created e = .retry e := by
    intro created e he
    change (if e.isRetryable then AttemptResult.retry e else _) = _
    rw [if_pos he]
  rw [attempt_run]
  obtain ⟨r, s, hbegin, hsession, hin | ⟨e, hplan, rfl, hin⟩⟩ :=
    watched_begin (Connection.storage true) plan world.storage
  · rw [Connection.storage_begin, Prod.mk.injEq, fresh] at hin
    obtain ⟨rfl, hin⟩ := hin
    have hundo := process_open target plan body { world with storage := s }
    obtain ⟨processed, w₁, hprocess, hsessions, h⟩ := process_relays target plan
      (recordExists_reads true) body { world with storage := s }
      { storage := { database := db, saved := some db } } hin
    rw [hprocess] at hundo
    -- the connection that a rollback at the end of the batch comes back to
    have hback : ((Connection.storage true).rollback w₁.storage.inner).2 = { database := db } := by
      rw [Connection.storage_rollback]
      dsimp only at hundo
      simp only [hundo, hin, if_true, Option.getD_some]
    have hcommit := watched_commit (Connection.storage true) plan w₁.storage
    have hrollback := watched_rollback (Connection.storage true) plan w₁.storage
    rw [Connection.storage_commit] at hcommit
    rw [hback] at hcommit hrollback
    rw [hbegin, undisturbed]
    dsimp only
    rw [hprocess]
    obtain ⟨hsame, hin₁⟩ | ⟨op, call, e, hplan, herror⟩ := h
    · rw [processedOnce, ← hsame, ← hin₁]
      rcases processed with ⟨created, _ | e⟩
      · dsimp only
        obtain ⟨r, s', hrun, hs', hin' | ⟨e, hplan, rfl, hin'⟩⟩ := hcommit
        · rw [Prod.mk.injEq] at hin'
          obtain ⟨rfl, hin'⟩ := hin'
          rw [hrun]
          exact ⟨_, _, rfl, hs'.trans (hsessions.trans hsession), .inl ⟨rfl, hin'⟩⟩
        · rw [hrun]
          rw [hsessions.trans hsession] at hplan
          exact ⟨_, _, rfl, hs'.trans (hsessions.trans hsession), .inr ⟨_, _, e, hplan,
            hretry _ _ (passing _ _ _ _ hplan), hin'⟩⟩
      · obtain ⟨r, s', hrun, hs', hin'⟩ := hrollback
        dsimp only
        rw [hrun]
        exact ⟨_, _, rfl, hs'.trans (hsessions.trans hsession), .inl ⟨rfl, hin'⟩⟩
    · obtain ⟨created, error⟩ := processed
      obtain rfl : error = some e := herror
      obtain ⟨r, s', hrun, hs', hin'⟩ := hrollback
      dsimp only
      rw [hrun]
      exact ⟨_, _, rfl, hs'.trans (hsessions.trans hsession), .inr ⟨op, call, e, hsession ▸ hplan,
        hretry _ _ (passing _ _ _ _ hplan), hin'⟩⟩
  · rw [hbegin]
    exact ⟨_, _, rfl, hsession, .inr ⟨_, _, e, hplan, hretry _ _ (passing _ _ _ _ hplan),
      hin.trans fresh⟩⟩

variable {target body} (policy : RetryPolicy)

/-- When an undisturbed attempt asks for another, none helps: the last attempt says why the import
failed, and nothing has changed. -/
theorem attempts_exhausted {e : ImportError} (unlucky : (undisturbed target body db).1 = .retry e)
    (more number : Nat) (world : World (Watched Connection))
    (fresh : world.storage.inner = { database := db })
    (counted : world.storage.sessions + 1 = number) :
    ∃ e' world', attempts target ((Connection.storage true).watched plan) policy body more number
        world = (.failure Created.empty e', world') ∧
      world'.storage.inner = { database := db } ∧
      (e' = e ∨ ∃ op call, plan op (number + more) call = some e') := by
  have hkept := (undisturbed_retry unlucky).1
  induction more generalizing number world with
  | zero =>
    rw [attempts_run]
    obtain ⟨r, world', hrun, -, ⟨rfl, hin⟩ | ⟨op, call, e', hplan, rfl, hin⟩⟩ :=
      attempt_repeats target body passing { world with
        trail := .activity (.beginAttempt (UInt32.ofNat number)) :: world.trail } fresh
    · rw [hrun, unlucky]
      exact ⟨e, _, rfl, hin.trans hkept, .inl rfl⟩
    · rw [hrun]
      dsimp only at hplan
      rw [counted] at hplan
      exact ⟨e', _, rfl, hin, .inr ⟨op, call, hplan⟩⟩
  | succ more ih =>
    rw [attempts_run]
    obtain ⟨r, world', hrun, hsessions, h⟩ :=
      attempt_repeats target body passing { world with
        trail := .activity (.beginAttempt (UInt32.ofNat number)) :: world.trail } fresh
    have hnext : world'.storage.sessions + 1 = number + 1 := by
      rw [hsessions, ← counted]
    have hagain : ∃ e', r = .retry e' ∧ world'.storage.inner = { database := db } := by
      obtain ⟨hr, hin⟩ | ⟨_, _, e', -, hr, hin⟩ := h
      · exact ⟨e, hr.trans unlucky, hin.trans hkept⟩
      · exact ⟨e', hr, hin⟩
    obtain ⟨e', rfl, hin⟩ := hagain
    rw [hrun, show number + (more + 1) = number + 1 + more by omega]
    exact ih (number + 1) { world' with
      trail := .sleep (policy.backoff number) :: .activity (.enter .retrying) :: world'.trail }
      hin hnext

theorem attempts_decided (decisive : ∀ e, (undisturbed target body db).1 ≠ .retry e)
    {struck : List Nat} (quiet : ∀ op session call, session ∉ struck → plan op session call = none)
    (more number : Nat) (few : (struck.filter (fun n => decide (number ≤ n))).length ≤ more)
    (world : World (Watched Connection)) (fresh : world.storage.inner = { database := db })
    (counted : world.storage.sessions + 1 = number) :
    ∃ world', attempts target ((Connection.storage true).watched plan) policy body more number
        world = ((undisturbed target body db).1.outcome, world') ∧
      world'.storage.inner = (undisturbed target body db).2 := by
  induction more generalizing number world with
  | zero =>
    obtain ⟨r, world', hrun, -, ⟨rfl, hin⟩ | ⟨op, call, e, hplan, -, -⟩⟩ :=
      attempt_repeats target body passing { world with
        trail := .activity (.beginAttempt (UInt32.ofNat number)) :: world.trail } fresh
    · exact ⟨_, attempts_settled policy 0 decisive hrun, hin⟩
    · dsimp only at hplan
      rw [counted] at hplan
      have hnot : number ∉ struck := by
        intro hmem
        have hless := struck_after_lt hmem
        omega
      rw [quiet op number call hnot] at hplan
      cases hplan
  | succ more ih =>
    obtain ⟨r, world', hrun, hsessions, ⟨rfl, hin⟩ | ⟨op, call, e, hplan, rfl, hin⟩⟩ :=
      attempt_repeats target body passing { world with
        trail := .activity (.beginAttempt (UInt32.ofNat number)) :: world.trail } fresh
    · exact ⟨_, attempts_settled policy (more + 1) decisive hrun, hin⟩
    · dsimp only at hplan
      rw [counted] at hplan
      have hmem : number ∈ struck := by
        apply Decidable.byContradiction
        intro hnot
        rw [quiet op number call hnot] at hplan
        cases hplan
      have hless := struck_after_lt hmem
      have hnext : world'.storage.sessions + 1 = number + 1 := by
        rw [hsessions, ← counted]
      rw [attempts_run, hrun]
      exact ih (number + 1) (by omega) { world' with
        trail := .sleep (policy.backoff number) :: .activity (.enter .retrying) :: world'.trail }
        hin hnext

end

namespace Import

def clean (i : Import) : Import := { i with faults := FaultPlan.empty }

section

variable {i : Import} {registry : Registry} {db : Database} (transactional : i.transactional = true)
  (passing : ∀ op session call e, i.faults op session call = some e → e.isRetryable = true)

include transactional passing

theorem exhausted {e : ImportError}
    (unlucky : (undisturbed (i.target registry) i.body db).1 = .retry e) :
    ∃ e', i.outcome registry db = .failure Created.empty e' ∧ i.database registry db = db ∧
      (e' = e ∨ ∃ op call, i.faults op i.policy.attempts call = some e') := by
  obtain ⟨e', world', hrun, hin, he⟩ := attempts_exhausted passing i.policy unlucky
    (i.policy.attempts - 1) 1 { storage := { inner := { database := db } } } rfl rfl
  have hworld : i.world registry db = (.failure Created.empty e', world') := by
    rw [Import.world, storage, transactional]
    exact hrun
  have hlast : 1 + (i.policy.attempts - 1) = i.policy.attempts := by
    have : 1 ≤ i.policy.attempts := Nat.le_max_left 1 _
    omega
  rw [outcome, database_eq, hworld]
  exact ⟨e', rfl, congrArg Connection.database hin, hlast ▸ he⟩

theorem decided (decisive : ∀ e, (undisturbed (i.target registry) i.body db).1 ≠ .retry e)
    (struck : List Nat)
    (quiet : ∀ op session call, session ∉ struck → i.faults op session call = none)
    (few : struck.length ≤ i.policy.maxAttempts - 1) :
    i.outcome registry db = (undisturbed (i.target registry) i.body db).1.outcome ∧
      i.database registry db = (undisturbed (i.target registry) i.body db).2.database := by
  have hfew : (struck.filter (fun n => decide (1 ≤ n))).length ≤ i.policy.attempts - 1 := by
    have hfilter : (struck.filter (fun n => decide (1 ≤ n))).length ≤ struck.length :=
      List.length_filter_le _ _
    have : i.policy.maxAttempts ≤ i.policy.attempts := Nat.le_max_right 1 _
    omega
  obtain ⟨world', hrun, hin⟩ := attempts_decided passing i.policy decisive quiet
    (i.policy.attempts - 1) 1 hfew { storage := { inner := { database := db } } } rfl rfl
  have hworld : i.world registry db
      = ((undisturbed (i.target registry) i.body db).1.outcome, world') := by
    rw [Import.world, storage, transactional]
    exact hrun
  rw [outcome, database_eq, hworld]
  exact ⟨rfl, congrArg Connection.database hin⟩

end

end Import

/-- Passing faults in fewer attempts than the policy allows do not show: the saved entries, the
tables and their counters are those of the clean import, and so are the errors, unless the
clean import itself gives up after a passing failure in every attempt and a fault strikes the last; then
both give up, each with the failure of its last attempt. -/
theorem faults_do_not_show (i : Import) (registry : Registry) (db : Database) (struck : List Nat)
    (transactional : i.transactional = true)
    (passing : ∀ op session call e, i.faults op session call = some e → e.isRetryable = true)
    (quiet : ∀ op session call, session ∉ struck → i.faults op session call = none)
    (few : struck.length ≤ i.policy.maxAttempts - 1) :
    i.database registry db = i.clean.database registry db ∧
      (i.outcome registry db).saved = (i.clean.outcome registry db).saved ∧
      (i.outcome registry db = i.clean.outcome registry db ∨
        ∃ op call e e', i.faults op i.policy.attempts call = some e ∧ e'.isRetryable = true ∧
          i.outcome registry db = .failure Created.empty e ∧
          i.clean.outcome registry db = .failure Created.empty e') := by
  have hclean : ∀ op session call e, i.clean.faults op session call = some e →
      e.isRetryable = true := by
    intro op session call e h
    cases h
  have hbody : undisturbed (i.clean.target registry) i.clean.body db
      = undisturbed (i.target registry) i.body db := rfl
  by_cases h : ∃ e, (undisturbed (i.target registry) i.body db).1 = .retry e
  · obtain ⟨e, unlucky⟩ := h
    obtain ⟨e₁, houtcome, hdatabase, he₁⟩ := Import.exhausted transactional passing unlucky
    obtain ⟨e₂, houtcome', hdatabase', he₂⟩ :=
      Import.exhausted (i := i.clean) transactional hclean (hbody ▸ unlucky)
    obtain rfl : e₂ = e := by
      obtain rfl | ⟨_, _, hnone⟩ := he₂
      · rfl
      · cases hnone
    rw [houtcome, houtcome', hdatabase, hdatabase']
    refine ⟨rfl, rfl, ?_⟩
    obtain rfl | ⟨op, call, hplan⟩ := he₁
    · exact .inl rfl
    · exact .inr ⟨op, call, e₁, e₂, hplan, (undisturbed_retry unlucky).2, rfl, rfl⟩
  · have decisive : ∀ e, (undisturbed (i.target registry) i.body db).1 ≠ .retry e :=
      fun e he => h ⟨e, he⟩
    obtain ⟨houtcome, hdatabase⟩ := Import.decided transactional passing decisive struck quiet
      few
    obtain ⟨houtcome', hdatabase'⟩ := Import.decided (i := i.clean) transactional hclean
      (hbody ▸ decisive) [] (fun _ _ _ _ => rfl) (Nat.zero_le _)
    rw [hbody] at houtcome' hdatabase'
    rw [houtcome, houtcome', hdatabase, hdatabase']
    exact ⟨rfl, rfl, .inl rfl⟩

/-- An import of one archival object in two attempts at most, where every call of one session meets
another writer. -/
def struckIn (session : Nat) : Import where
  repository := 1
  policy := { maxAttempts := 2 }
  faults := fun _ s _ => if s = session then some (.conflict "database is locked") else none
  body := Text.Utf8.encode "\x7b\"id\":\"a\",\"title\":\"A\"\x7d"

theorem struckIn_passing (n : Nat) (op : Operation) (session call : Nat) (e : ImportError)
    (h : (struckIn n).faults op session call = some e) : e.isRetryable = true := by
  simp only [struckIn] at h
  split at h
  · cases h
    rfl
  · cases h

theorem struckIn_quiet (n : Nat) (op : Operation) (session call : Nat) (h : session ∉ [n]) :
    (struckIn n).faults op session call = none := by
  rw [List.mem_singleton] at h
  exact if_neg h

def shelf : Database where
  repositories := some ⟨[⟨1, "main", "Main"⟩], 1⟩
  tables := [{ name := "archival_objects" }]

theorem faults_do_not_show_first :
    (struckIn 1).database Registry.standard shelf
        = (struckIn 1).clean.database Registry.standard shelf ∧
      ((struckIn 1).outcome Registry.standard shelf).saved
        = ((struckIn 1).clean.outcome Registry.standard shelf).saved ∧
      ((struckIn 1).outcome Registry.standard shelf).saved.toList
        = [("a", ⟨"/repositories/1/archival_objects/1", 1⟩)] := by
  obtain ⟨hdatabase, hsaved, -⟩ := faults_do_not_show (struckIn 1) Registry.standard shelf [1] rfl
    (struckIn_passing 1) (struckIn_quiet 1) (by decide)
  exact ⟨hdatabase, hsaved, by decide +kernel⟩

/-- Without the table the clean import fails for want of it in both attempts; where the second meets
another writer, that is what is reported. -/
theorem last_failure_reported :
    (struckIn 2).transactional = true ∧
      (∀ op session call e, (struckIn 2).faults op session call = some e →
        e.isRetryable = true) ∧
      (∀ op session call, session ∉ [2] → (struckIn 2).faults op session call = none) ∧
      [2].length ≤ (struckIn 2).policy.maxAttempts - 1 ∧
      ((struckIn 2).outcome Registry.standard {}).errors
        ≠ ((struckIn 2).clean.outcome Registry.standard {}).errors :=
  ⟨rfl, struckIn_passing 2, struckIn_quiet 2, by decide, by decide +kernel⟩

end Accession.Batch
