import Accession.Proofs.Batch.Cutting
import Accession.Proofs.Batch.Decoding
import Accession.Proofs.Batch.Integrity
import Accession.Proofs.Batch.Lifecycle
import Accession.Proofs.Batch.Repetition
set_option autoImplicit false

namespace Accession.Batch

section Monitors

namespace Monitor

structure Before (m later : Monitor) : Prop where
  octets : m.bytesSpooled ≤ later.bytesSpooled
  attempt : m.attempt ≤ later.attempt
  records : m.attempt = later.attempt → m.recordsProcessed ≤ later.recordsProcessed

theorem Before.refl (m : Monitor) : m.Before m :=
  ⟨UInt64.le_refl _, UInt32.le_refl _, fun _ => UInt64.le_refl _⟩

theorem Before.trans {a b c : Monitor} (h : a.Before b) (h' : b.Before c) : a.Before c where
  octets := UInt64.le_trans h.octets h'.octets
  attempt := UInt32.le_trans h.attempt h'.attempt
  records hsame := by
    -- the attempt between the two is the same
    have hfirst : a.attempt = b.attempt :=
      UInt32.le_antisymm h.attempt (hsame ▸ h'.attempt)
    exact UInt64.le_trans (h.records hfirst) (h'.records (hfirst ▸ hsame))

end Monitor

/-- What bounds the counters of a job: the octets of its body, its attempts, and the pieces that the
body is cut into. -/
structure Bounds where
  octets : Nat
  attempts : Nat
  pieces : Nat

structure Bounds.Admits (bounds : Bounds) (m : Monitor) : Prop where
  attempt : m.attempt.toNat ≤ bounds.attempts
  octets : m.attempt ≠ 0 → m.bytesSpooled.toNat = bounds.octets
  records : m.recordsProcessed.toNat ≤ bounds.pieces

/-- No step takes a counter back or out of its bounds. -/
def Rises (bounds : Bounds) : Monitor → List Step → Prop
  | _, [] => True
  | m, s :: rest =>
    m.Before (m.take s) ∧ bounds.Admits (m.take s) ∧ Rises bounds (m.take s) rest

section

variable {bounds : Bounds} {m : Monitor}

theorem rises_append {steps more : List Step} (h : Rises bounds m steps)
    (h' : Rises bounds (m.through steps) more) : Rises bounds m (steps ++ more) := by
  induction steps generalizing m with
  | nil => exact h'
  | cons s rest ih => exact ⟨h.1, h.2.1, ih h.2.2 h'⟩

theorem rises_still {steps : List Step} (admits : bounds.Admits m)
    (still : ∀ s ∈ steps, ∀ m : Monitor, ∃ phase, m.take s = { m with phase }) :
    Rises bounds m steps ∧ ∃ phase, m.through steps = { m with phase } := by
  induction steps generalizing m with
  | nil => exact ⟨trivial, m.phase, rfl⟩
  | cons s rest ih =>
    obtain ⟨phase, hphase⟩ := still s List.mem_cons_self m
    have hadmits : bounds.Admits { m with phase } := ⟨admits.1, admits.2, admits.3⟩
    obtain ⟨hrises, phase', hphase'⟩ := ih hadmits (fun s hs => still s (List.mem_cons_of_mem _ hs))
    rw [Rises, Monitor.through, List.foldl_cons, hphase]
    exact ⟨⟨⟨UInt64.le_refl _, UInt32.le_refl _, fun _ => UInt64.le_refl _⟩, hadmits, hrises⟩,
      phase', hphase'⟩

theorem Rises.through_take {steps : List Step} (h : Rises bounds m steps)
    (admits : bounds.Admits m) (k : Nat) :
    m.Before (m.through (steps.take k)) ∧ bounds.Admits (m.through (steps.take k)) := by
  induction steps generalizing m k with
  | nil =>
    rw [List.take_nil]
    exact ⟨.refl m, admits⟩
  | cons s rest ih =>
    cases k with
    | zero => exact ⟨.refl m, admits⟩
    | succ k =>
      obtain ⟨hbefore, hadmits⟩ := ih h.2.2 h.2.1 k
      exact ⟨h.1.trans hbefore, hadmits⟩

theorem Rises.before {steps : List Step} (h : Rises bounds m steps) {j k : Nat} (hjk : j ≤ k) :
    (m.through (steps.take j)).Before (m.through (steps.take k)) := by
  induction steps generalizing m j k with
  | nil =>
    rw [List.take_nil, List.take_nil]
    exact .refl m
  | cons s rest ih =>
    cases k with
    | zero =>
      obtain rfl := Nat.le_zero.1 hjk
      exact .refl _
    | succ k =>
      cases j with
      | zero => exact h.1.trans (h.2.2.through_take h.2.1 k).1
      | succ j => exact ih h.2.2 (Nat.le_of_succ_le_succ hjk)

end

end Monitors

section Copying

variable (bounds : Bounds) {m : Monitor} (waiting : m.attempt = 0) (idle : m.recordsProcessed = 0)

include waiting idle

theorem admits_waiting : bounds.Admits m where
  attempt := by
    rw [waiting]
    exact Nat.zero_le _
  octets h := absurd waiting h
  records := by
    rw [idle]
    exact Nat.zero_le _

theorem copyPieces_rises (file : Nat) (pieces : List (List UInt8))
    (room : m.bytesSpooled.toNat + pieces.flatten.length < UInt64.size) :
    Rises bounds m (pieces.flatMap (Spool.copyPiece file)) := by
  induction pieces generalizing m with
  | nil => trivial
  | cons s pieces ih =>
    rw [List.flatten_cons, List.length_append] at room
    have hbytes : (m.spooled s.length).bytesSpooled.toNat = m.bytesSpooled.toNat + s.length :=
      Monitor.toNat_spooled (by omega)
    have hbefore : m.Before (m.spooled s.length) := by
      refine ⟨?_, UInt32.le_refl _, fun _ => UInt64.le_refl _⟩
      rw [UInt64.le_iff_toNat_le, hbytes]
      omega
    exact ⟨.refl m, admits_waiting bounds waiting idle, hbefore,
      admits_waiting bounds (m := m.spooled s.length) waiting idle,
      ih (m := m.spooled s.length) waiting idle (by omega)⟩

theorem copy_rises (file copied : Nat) (body : List Chunk)
    (room : m.bytesSpooled.toNat + (arrived body).length < UInt64.size) :
    Rises bounds m (Spool.copy file copied body).1 := by
  induction body generalizing copied m with
  | nil => trivial
  | cons chunk rest ih =>
    cases chunk with
    | failure message => trivial
    | octets s =>
      rw [arrived, List.length_append] at room
      have hflatten := flatten_buffers (by decide : 0 < bufferCapacity) s
      have hpieces := copyPieces_rises bounds waiting idle file (buffers bufferCapacity s)
        (by rw [hflatten]; omega)
      have hbytes : (m.spooled s.length).bytesSpooled.toNat = m.bytesSpooled.toNat + s.length :=
        Monitor.toNat_spooled (by omega)
      have hrest := ih (m := m.spooled s.length) waiting idle (copied + s.length) (by omega)
      refine rises_append hpieces ?_
      rw [Spool.through_copyPieces, hflatten]
      exact hrest

end Copying

section Attempts

variable {ω : Type} {bounds : Bounds} {start : Monitor}

/-- The steps of a world after `start` keep the bounds, the whole body has been copied, and the
counters stand at an attempt and at a count of records. -/
structure Shows (bounds : Bounds) (start : Monitor) (number count : Nat) (world : World ω) :
    Prop where
  rises : Rises bounds start world.steps
  attempt : (start.through world.steps).attempt.toNat = number
  octets : (start.through world.steps).bytesSpooled.toNat = bounds.octets
  records : (start.through world.steps).recordsProcessed.toNat = count
  attempts : number ≤ bounds.attempts
  pieces : count ≤ bounds.pieces

section

variable {number count : Nat} {world world' : World ω}

theorem Shows.admits (h : Shows bounds start number count world) :
    bounds.Admits (start.through world.steps) :=
  ⟨h.attempt ▸ h.attempts, fun _ => h.octets, h.records ▸ h.pieces⟩

theorem Shows.of_trail (h : Shows bounds start number count world)
    (trail : world'.trail = world.trail) : Shows bounds start number count world' := by
  have hsteps : world'.steps = world.steps := congrArg List.reverse trail
  exact ⟨hsteps ▸ h.rises, hsteps ▸ h.attempt, hsteps ▸ h.octets, hsteps ▸ h.records, h.attempts,
    h.pieces⟩

theorem Shows.of_step {number' count' : Nat} {s : Step} (h : Shows bounds start number count world)
    (trail : world'.trail = s :: world.trail)
    (attempt : ((start.through world.steps).take s).attempt.toNat = number')
    (octets : ((start.through world.steps).take s).bytesSpooled
      = (start.through world.steps).bytesSpooled)
    (records : ((start.through world.steps).take s).recordsProcessed.toNat = count')
    (later : number < number' ∨ number = number' ∧ count ≤ count')
    (attempts : number' ≤ bounds.attempts) (pieces : count' ≤ bounds.pieces) :
    Shows bounds start number' count' world' := by
  have hsteps : world'.steps = world.steps ++ [s] := by
    rw [World.steps, trail, List.reverse_cons, World.steps]
  have hthrough : start.through world'.steps = (start.through world.steps).take s := by
    rw [hsteps, Monitor.through_append]
    rfl
  have hbefore : (start.through world.steps).Before ((start.through world.steps).take s) := by
    refine ⟨octets ▸ UInt64.le_refl _, ?_, ?_⟩
    · rw [UInt32.le_iff_toNat_le, h.attempt, attempt]
      omega
    · intro hsame
      have hnumber := congrArg UInt32.toNat hsame
      rw [h.attempt, attempt] at hnumber
      rw [UInt64.le_iff_toNat_le, h.records, records]
      omega
  refine ⟨?_, hthrough ▸ attempt, by rw [hthrough, octets, h.octets], hthrough ▸ records, attempts,
    pieces⟩
  rw [hsteps]
  exact rises_append h.rises ⟨hbefore, ⟨attempt ▸ attempts, fun _ => octets ▸ h.octets,
    records ▸ pieces⟩, trivial⟩

theorem Shows.still {s : Step} (h : Shows bounds start number count world)
    (trail : world'.trail = s :: world.trail)
    (still : ∀ m : Monitor, ∃ phase, m.take s = { m with phase }) :
    Shows bounds start number count world' := by
  obtain ⟨phase, hphase⟩ := still (start.through world.steps)
  exact h.of_step trail (hphase ▸ h.attempt) (hphase ▸ rfl) (hphase ▸ h.records)
    (.inr ⟨rfl, Nat.le_refl _⟩) h.attempts h.pieces

theorem Shows.processed (h : Shows bounds start number count world)
    (trail : world'.trail = .activity .processed :: world.trail) (room : count < bounds.pieces)
    (word : bounds.pieces < UInt64.size) : Shows bounds start number (count + 1) world' := by
  refine h.of_step trail h.attempt rfl ?_ (.inr ⟨rfl, Nat.le_succ _⟩) h.attempts room
  change ((start.through world.steps).recordsProcessed + 1).toNat = _
  rw [UInt64.toNat_add, h.records, UInt64.toNat_one]
  exact Nat.mod_eq_of_lt (Nat.lt_of_le_of_lt room word)

theorem Shows.begin {next : Nat} (h : Shows bounds start number count world)
    (trail : world'.trail = .activity (.beginAttempt (UInt32.ofNat next)) :: world.trail)
    (later : number < next) (room : next ≤ bounds.attempts) (word : bounds.attempts < UInt32.size) :
    Shows bounds start next 0 world' := by
  refine h.of_step trail ?_ rfl rfl (.inl later) room (Nat.zero_le _)
  exact UInt32.toNat_ofNat_of_lt' (Nat.lt_of_le_of_lt room word)

end

variable (target : Target) (storage : Storage ω)

theorem persistAll_shows (word : bounds.pieces < UInt64.size) (ending : Option ImportError)
    {number : Nat} (records : List Record) (created : Created) (world : World ω)
    (indexed : created.Indexed)
    (fresh : ∀ record ∈ records, created.get? record.logicalId = none)
    (apart : (records.map (·.logicalId)).Nodup)
    (room : created.toList.length + records.length ≤ bounds.pieces)
    (h : Shows bounds start number created.toList.length world) :
    Shows bounds start number
      (persistAll target storage ending records created world).1.created.toList.length
      (persistAll target storage ending records created world).2 := by
  induction records generalizing created world with
  | nil => exact h
  | cons record rest ih =>
    rw [persistAll, stateM_bind_run, World.call_run]
    rcases persist target storage created record world.storage with ⟨_ | persisted, s⟩
    · exact h.of_trail rfl
    · rw [List.length_cons] at room
      have hnew := fresh record List.mem_cons_self
      have hlist := Created.toList_insert indexed hnew persisted
      have hlength : (created.insert record.logicalId persisted).1.toList.length
          = created.toList.length + 1 := by
        rw [hlist, List.length_append, List.length_singleton]
      have hnote : Shows bounds start number (created.toList.length + 1)
          ⟨s, .activity .processed :: world.trail⟩ := h.processed rfl (by omega) word
      exact ih (created.insert record.logicalId persisted).1 ⟨s, .activity .processed :: world.trail⟩
        (Created.indexed_insert indexed hnew persisted)
        (Created.fresh_insert indexed fresh apart persisted) (List.nodup_cons.1 apart).2 (by omega)
        (hlength ▸ hnote)

section

variable {body : List UInt8} (pieces : (cut .start body).length ≤ bounds.pieces)
  (word : bounds.pieces < UInt64.size)

include pieces word

theorem process_shows {number : Nat} {world : World ω} (h : Shows bounds start number 0 world) :
    Shows bounds start number
      (process target storage body world).1.created.toList.length
      (process target storage body world).2 := by
  have hlength := recordsOf_length_le target.registry body
  refine persistAll_shows target storage word _ _ _ world Created.indexed_empty
    (fun _ _ => Created.get?_empty _) (recordsOf_nodup target.registry body) ?_ h
  rw [Created.toList_empty, List.length_nil, Nat.zero_add]
  exact Nat.le_trans hlength pieces

theorem attempt_shows {number : Nat} {world : World ω} (h : Shows bounds start number 0 world) :
    ∃ count, Shows bounds start number count (attempt target storage body world).2 ∧
      ∀ created, (attempt target storage body world).1 = .committed created →
        count = created.toList.length := by
  have hfailed : ∀ (created : Created) (e : ImportError) (other : Created),
      failed storage created e ≠ .committed other := by
    intro created e other
    rw [failed]
    split
    · split <;> exact nofun
    · exact nofun
  rw [attempt_run]
  rcases storage.begin world.storage with ⟨e | _, s⟩
  · exact ⟨0, h.of_trail rfl, fun created hr => (hfailed _ _ _ hr).elim⟩
  · have hbegun : Shows bounds start number 0 ⟨s, world.trail⟩ := h.of_trail rfl
    have hprocess := process_shows target storage pieces word hbegun
    dsimp only
    rcases hw : process target storage body { world with storage := s }
      with ⟨⟨created, _ | e⟩, w⟩ <;> rw [hw] at hprocess
    · dsimp only
      rcases storage.commit w.storage with ⟨e | _, s'⟩
      · exact ⟨_, hprocess.of_trail rfl, fun created hr => (hfailed _ _ _ hr).elim⟩
      · refine ⟨_, hprocess.of_trail rfl, ?_⟩
        intro other hr
        cases hr
        rfl
    · exact ⟨_, hprocess.of_trail rfl, fun created hr => (hfailed _ _ _ hr).elim⟩

theorem attempts_shows (attempts32 : bounds.attempts < UInt32.size) (policy : RetryPolicy)
    (more number : Nat) {last count : Nat} {world : World ω} (h : Shows bounds start last count world)
    (later : last < number) (room : number + more ≤ bounds.attempts) :
    ∃ last count,
      Shows bounds start last count (attempts target storage policy body more number world).2 ∧
      ((attempts target storage policy body more number world).1.errors = none →
        count = (attempts target storage policy body more number world).1.saved.toList.length) := by
  induction more generalizing number last count world with
  | zero =>
    have hbegin : Shows bounds start number 0
        { world with trail := .activity (.beginAttempt (UInt32.ofNat number)) :: world.trail } :=
      h.begin rfl later (by omega) attempts32
    obtain ⟨count, hattempt, hcommitted⟩ := attempt_shows target storage pieces word hbegin
    rw [attempts_run]
    rcases hr : attempt target storage body _ with ⟨created | e | ⟨e, kept⟩, w⟩ <;>
      rw [hr] at hattempt hcommitted
    · exact ⟨number, count, hattempt, fun _ => hcommitted created rfl⟩
    · exact ⟨number, count, hattempt, fun herrors => by cases herrors⟩
    · exact ⟨number, count, hattempt, fun herrors => by cases herrors⟩
  | succ more ih =>
    have hbegin : Shows bounds start number 0
        { world with trail := .activity (.beginAttempt (UInt32.ofNat number)) :: world.trail } :=
      h.begin rfl later (by omega) attempts32
    obtain ⟨count, hattempt, hcommitted⟩ := attempt_shows target storage pieces word hbegin
    rw [attempts_run]
    rcases hr : attempt target storage body _ with ⟨created | e | ⟨e, kept⟩, w⟩ <;>
      rw [hr] at hattempt hcommitted
    · exact ⟨number, count, hattempt, fun _ => hcommitted created rfl⟩
    · have hretry : Shows bounds start number count
          ⟨w.storage, .activity (.enter .retrying) :: w.trail⟩ :=
        hattempt.still rfl (fun _ => ⟨.retrying, rfl⟩)
      have hsleep : Shows bounds start number count { w with
          trail := .sleep (policy.backoff number) :: .activity (.enter .retrying) :: w.trail } :=
        hretry.still rfl (fun m => ⟨m.phase, rfl⟩)
      exact ih (number + 1) hsleep (Nat.lt_succ_self _) (by omega)
    · exact ⟨number, count, hattempt, fun herrors => by cases herrors⟩

end

end Attempts

section Jobs

variable {ω : Type}

namespace Spool

theorem ofChunks_rises (bounds : Bounds) {m : Monitor} (waiting : m.attempt = 0)
    (idle : m.recordsProcessed = 0) (folder : Folder) (body : List Chunk)
    (room : m.bytesSpooled.toNat + (arrived body).length < UInt64.size) :
    Rises bounds m (ofChunks (some folder) body).1 := by
  have hcopy := copy_rises bounds waiting idle folder.unused 0 body room
  have hadmits : bounds.Admits m := admits_waiting bounds waiting idle
  have hthrough := through_copy folder.unused body 0 m
  rw [ofChunks]
  rcases hrun : copy folder.unused 0 body with ⟨steps, message | length⟩ <;>
    rw [hrun] at hcopy hthrough
  · have hcreated : Rises bounds m (.file (.create folder.unused) :: steps) :=
      ⟨.refl m, hadmits, hcopy⟩
    have hafter : m.through (.file (.create folder.unused) :: steps)
        = m.spooled (arrived body).length := hthrough
    have hremoved : Rises bounds (m.spooled (arrived body).length)
        [.file (.remove folder.unused)] :=
      ⟨.refl _, admits_waiting bounds waiting idle, trivial⟩
    exact rises_append hcreated (hafter ▸ hremoved)
  · exact ⟨.refl m, hadmits, hcopy⟩

end Spool

/-- What the monitor shows once the worker has taken some of its steps. -/
def Worker.snapshot (worker : Worker) (taken : Nat) : Monitor :=
  (Workplace.after {} (worker.steps.take taken)).monitor

namespace Job

variable (job : Job) (storage : Storage ω)

/-- What bounds the counters of the job; over a body that fails there are no attempts. -/
def bounds (body : List Chunk) : Bounds where
  octets := (arrived body).length
  attempts :=
    match received body with
    | .ok _ => job.policy.attempts
    | .error _ => 0
  pieces := (cut .start (arrived body)).length

theorem report_still (outcome : Outcome) :
    ∀ s ∈ job.report outcome, ∀ m : Monitor, ∃ phase, m.take s = { m with phase } := by
  intro s hs m
  rw [report] at hs
  split at hs
  · split at hs
    · obtain rfl := List.mem_singleton.1 hs
      exact ⟨m.phase, rfl⟩
    · cases hs
  · cases hs

theorem work_rises (place : Workplace) (body : List Chunk) (state : ω)
    (short : (arrived body).length < UInt64.size) (word : job.policy.maxAttempts < UInt32.size) :
    Rises (job.bounds body) {} (job.work storage place body state).1.steps ∧
      ∀ outcome, (job.work storage place body state).1.outcome = some outcome →
        outcome.errors = none →
        (Monitor.through {} (job.work storage place body state).1.steps).recordsProcessed.toNat
          = outcome.saved.toList.length := by
  have hspool := Spool.ofChunks_run place body
  have room : Monitor.start.bytesSpooled.toNat + (arrived body).length < UInt64.size := by
    change 0 + _ < _
    omega
  have hrises := Spool.ofChunks_rises (job.bounds body) rfl rfl place.folder body room
  have hthrough := Spool.through_ofChunks place.folder body .start
  have hbytes := Monitor.toNat_spooled room
  rw [work]
  cases hreceived : received body with
  | error message =>
    rw [hreceived] at hspool
    obtain ⟨steps, hsteps, -⟩ := hspool
    rw [hsteps] at hrises hthrough ⊢
    -- no attempt was made, and a report moves no counter
    obtain ⟨hreported, -⟩ := rises_still (m := Monitor.start.spooled _)
      (admits_waiting (job.bounds body) rfl rfl)
      (job.report_still (.failure Created.empty (.spool message)))
    refine ⟨rises_append hrises (hthrough ▸ hreported), ?_⟩
    intro outcome houtcome herrors
    cases houtcome
    cases herrors
  | ok octets =>
    rw [hreceived] at hspool
    obtain ⟨steps, spool, hsteps, -, -, hholds⟩ := hspool
    have harrived : arrived body = octets := arrived_of_received hreceived
    have hattempts : (job.bounds body).attempts = max 1 job.policy.maxAttempts := by
      rw [bounds, hreceived]
      rfl
    have hpieces : (job.bounds body).pieces = (cut .start octets).length := by
      rw [bounds, harrived]
    have hcut := cut_length_le .start octets
    have hcopied : Shows (job.bounds body)
        (Monitor.start.spooled (arrived body).length) 0 0 (⟨state, []⟩ : World ω) :=
      ⟨trivial, rfl, hbytes.trans (Nat.zero_add _), rfl, Nat.zero_le _, Nat.zero_le _⟩
    obtain ⟨last, count, hshows, hsaved⟩ := attempts_shows job.target storage
      (Nat.le_of_eq hpieces.symm) (by rw [hpieces]; rw [harrived] at short; omega)
      (by rw [hattempts]; exact Nat.max_lt.2 ⟨by decide, word⟩) job.policy
      (job.policy.attempts - 1) 1 hcopied Nat.zero_lt_one
      (by rw [hattempts, RetryPolicy.attempts]; omega)
    rw [← run] at hshows hsaved
    rw [hsteps] at hrises hthrough ⊢
    dsimp only at hrises hthrough ⊢
    rw [show spool.contents (place.after steps).folder = octets from hholds.contents]
    rcases hrun : run job.target storage job.policy octets ⟨state, []⟩ with ⟨outcome, world⟩
    rw [hrun] at hshows hsaved
    -- what comes after the attempts moves no counter either
    have hclosing : ∀ s ∈ [.activity (.enter .finishing), spool.close] ++ job.report outcome,
        ∀ m : Monitor, ∃ phase, m.take s = { m with phase } := by
      intro s hs m
      obtain hs | hs := List.mem_append.1 hs
      · obtain rfl | rfl : s = .activity (.enter .finishing) ∨ s = spool.close := by simpa using hs
        · exact ⟨.finishing, rfl⟩
        · exact ⟨m.phase, rfl⟩
      · exact job.report_still outcome s hs m
    obtain ⟨hclosed, phase, hphase⟩ := rises_still hshows.admits hclosing
    have hworked := rises_append hrises (hthrough ▸ hshows.rises)
    have hmonitor : Monitor.through {} (steps ++ world.steps)
        = (Monitor.start.spooled (arrived body).length).through world.steps := by
      rw [Monitor.through_append]
      exact congrArg (Monitor.through · world.steps) hthrough
    refine ⟨rises_append hworked (hmonitor ▸ hclosed), ?_⟩
    intro other hother herrors
    cases hother
    rw [Monitor.through_append, hmonitor, hphase]
    exact hshows.records.trans (hsaved herrors)

end Job

/-- For every job over a body of less than 2⁶⁴ octets, whatever the storage answers, and any two
snapshots of its monitor: the later one shows no fewer octets, no lower attempt, and within an
attempt no fewer records. No snapshot shows an attempt that the policy does not allow, or more
records than the body is cut into; from the first attempt on the whole body has been copied. The
last snapshot of a job that succeeds shows as many records as it reports. -/
theorem snapshots_rise {ω : Type} (job : Job) (storage : Storage ω) (place : Workplace)
    (body : List Chunk) (state : ω) (short : (arrived body).length < UInt64.size)
    (word : job.policy.maxAttempts < UInt32.size) :
    let worker := (job.work storage place body state).1
    (∀ earlier later, earlier ≤ later →
      (worker.snapshot earlier).bytesSpooled ≤ (worker.snapshot later).bytesSpooled ∧
      (worker.snapshot earlier).attempt ≤ (worker.snapshot later).attempt ∧
      ((worker.snapshot earlier).attempt = (worker.snapshot later).attempt →
        (worker.snapshot earlier).recordsProcessed ≤ (worker.snapshot later).recordsProcessed)) ∧
    (∀ taken,
      (worker.snapshot taken).attempt.toNat ≤ max 1 job.policy.maxAttempts ∧
      (1 ≤ (worker.snapshot taken).attempt → received body = .ok (arrived body) ∧
        (worker.snapshot taken).bytesSpooled.toNat = (arrived body).length) ∧
      (worker.snapshot taken).recordsProcessed.toNat ≤ (cut .start (arrived body)).length) ∧
    ∀ outcome, worker.outcome = some outcome → outcome.errors = none →
      (worker.snapshot worker.steps.length).recordsProcessed.toNat = outcome.saved.size := by
  intro worker
  obtain ⟨hrises, hsaved⟩ := job.work_rises storage place body state short word
  have hsnapshot : ∀ taken, worker.snapshot taken = Monitor.through {} (worker.steps.take taken) :=
    fun taken => Workplace.monitor_after {} _
  refine ⟨?_, ?_, ?_⟩
  · intro earlier later hle
    rw [hsnapshot, hsnapshot]
    obtain ⟨hoctets, hattempt, hrecords⟩ := hrises.before hle
    exact ⟨hoctets, hattempt, hrecords⟩
  · intro taken
    obtain ⟨-, hattempt, hoctets, hrecords⟩ :=
      hrises.through_take (admits_waiting _ rfl rfl) taken
    rw [← hsnapshot] at hattempt hoctets hrecords
    rw [Job.bounds] at hattempt
    cases hreceived : received body with
    | ok octets =>
      rw [hreceived] at hattempt
      refine ⟨hattempt, ?_, hrecords⟩
      intro hone
      rw [UInt32.le_iff_toNat_le, UInt32.toNat_one] at hone
      refine ⟨by rw [arrived_of_received hreceived], hoctets ?_⟩
      intro hzero
      rw [hzero] at hone
      cases hone
    | error message =>
      rw [hreceived] at hattempt
      have hzero := Nat.le_zero.1 hattempt
      refine ⟨by omega, ?_, hrecords⟩
      intro hone
      rw [UInt32.le_iff_toNat_le, hzero] at hone
      cases hone
  · intro outcome houtcome herrors
    rw [hsnapshot, List.take_length]
    exact hsaved outcome houtcome herrors

def contested : Storage (Watched Store.Connection) :=
  (Store.Connection.storage true).watched (fun op session call =>
    if op = .insert ∧ session = 1 ∧ call = 2 then some (.conflict "database is locked") else none)

def contestedWorker : Worker :=
  (Job.work ⟨.zero, ⟨.standard, 1⟩, {}, true⟩ contested {} [.octets family.body]
    { inner := { database := shelf } }).1

theorem snapshots_rise_contested :
    (∀ taken, 1 ≤ (contestedWorker.snapshot taken).attempt →
      (contestedWorker.snapshot taken).bytesSpooled.toNat = family.body.length) ∧
    (∀ outcome, contestedWorker.outcome = some outcome → outcome.errors = none →
      (contestedWorker.snapshot contestedWorker.steps.length).recordsProcessed.toNat
        = outcome.saved.size) ∧
    (contestedWorker.outcome.map (fun outcome => (outcome.saved.size, outcome.errors)))
      = some (2, none) ∧
    ((List.range (contestedWorker.steps.length + 1)).map (fun taken =>
        ((contestedWorker.snapshot taken).attempt, (contestedWorker.snapshot taken).recordsProcessed)))
      = [(0, 0), (0, 0), (0, 0), (0, 0), (1, 0), (1, 1), (1, 1), (1, 1), (2, 0), (2, 1), (2, 2),
        (2, 2), (2, 2)] := by
  have short : (arrived [.octets family.body]).length < UInt64.size := by decide +kernel
  obtain ⟨-, hbounds, hsaved⟩ := snapshots_rise ⟨.zero, ⟨.standard, 1⟩, {}, true⟩ contested {}
    [.octets family.body] { inner := { database := shelf } } short (by decide)
  have hbody : arrived [.octets family.body] = family.body := List.append_nil _
  refine ⟨?_, hsaved, by decide +kernel, by decide +kernel⟩
  intro taken hone
  obtain ⟨-, hoctets, -⟩ := hbounds taken
  rw [← hbody]
  exact (hoctets hone).2

end Jobs

end Accession.Batch
