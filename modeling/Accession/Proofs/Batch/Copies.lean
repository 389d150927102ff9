import Accession.Proofs.Batch.Lifecycle
set_option autoImplicit false

namespace Accession.Batch

namespace Monitor

def growth (before after : Monitor) : Nat :=
  (after.bytesSpooled - before.bytesSpooled).toNat

theorem growth_spooled (m : Monitor) {octets : Nat} (h : octets < UInt64.size) :
    m.growth (m.spooled octets) = octets := by
  rw [growth, spooled, UInt64.add_comm, UInt64.add_sub_cancel, UInt64.toNat_ofNat_of_lt' h]

end Monitor

/-- A place and what its readers have been given, in the order in which they were opened. -/
structure Reading where
  place : Workplace
  given : List (List UInt8)

/-- What can happen to a copy: one more reader, a reader that asks for so many octets, or a step of
the worker. -/
inductive Use where
  | reopen
  | read (reader limit : Nat)
  | step (s : Step)

namespace Use

def Quiet : Use → Prop
  | .step s => s.Quiet
  | .reopen | .read _ _ => True

def limit (reader : Nat) : Use → Nat
  | .read other limit => if other = reader then limit else 0
  | .reopen | .step _ => 0

def asked (reader : Nat) : List Use → Nat
  | [] => 0
  | u :: us => u.limit reader + asked reader us

end Use

namespace Reading

def use (spool : Spool) (r : Reading) : Use → Reading
  | .reopen => { r with given := r.given ++ [[]] }
  | .read reader limit =>
    { r with given := r.given.modify reader fun s =>
        s ++ ((spool.contents r.place.folder).drop s.length).take limit }
  | .step s => { r with place := r.place.take s }

def uses (spool : Spool) (r : Reading) (uses : List Use) : Reading :=
  uses.foldl (use spool) r

variable {spool : Spool} {r : Reading} {octets : List UInt8}

theorem use_folder {u : Use} (quiet : u.Quiet) :
    (r.use spool u).place.folder = r.place.folder := by
  cases u with
  | reopen | read _ _ => rfl
  | step s =>
    have hs : ∀ s' ∈ [s], s'.Quiet := by
      intro s' hs'
      rw [List.eq_of_mem_singleton hs']
      exact quiet
    exact (Workplace.after_quiet hs r.place).1

theorem uses_cons (r : Reading) (u : Use) (us : List Use) :
    r.uses spool (u :: us) = (r.use spool u).uses spool us := rfl

theorem uses_append (r : Reading) (us vs : List Use) :
    r.uses spool (us ++ vs) = (r.uses spool us).uses spool vs :=
  List.foldl_append

theorem uses_folder {us : List Use} (quiet : ∀ u ∈ us, u.Quiet) :
    (r.uses spool us).place.folder = r.place.folder := by
  induction us generalizing r with
  | nil => rfl
  | cons u us ih =>
    rw [uses_cons, ih (fun v hv => quiet v (List.mem_cons_of_mem u hv)),
      use_folder (quiet u List.mem_cons_self)]

theorem take_append_next (octets : List UInt8) (n limit : Nat) :
    octets.take n ++ (octets.drop (octets.take n).length).take limit = octets.take (n + limit) := by
  rw [List.take_add, List.length_take]
  obtain hwithin | hbeyond := Nat.le_total n octets.length
  · rw [Nat.min_eq_left hwithin]
  · rw [Nat.min_eq_right hbeyond, List.drop_length, List.drop_eq_nil_of_le hbeyond]

variable {reader n : Nat}

theorem use_given (u : Use) (contents : spool.contents r.place.folder = octets)
    (h : r.given[reader]? = some (octets.take n)) :
    (r.use spool u).given[reader]? = some (octets.take (n + u.limit reader)) := by
  cases u with
  | reopen =>
    have hreader : reader < r.given.length := (List.getElem?_eq_some_iff.1 h).1
    exact (List.getElem?_append_left hreader).trans h
  | read other limit =>
    change (r.given.modify other _)[reader]? = _
    rw [List.getElem?_modify, h, contents, Use.limit]
    split
    · exact congrArg some (take_append_next octets n limit)
    · rfl
  | step s => exact h

theorem uses_given {us : List Use} (quiet : ∀ u ∈ us, u.Quiet)
    (contents : spool.contents r.place.folder = octets)
    (h : r.given[reader]? = some (octets.take n)) :
    (r.uses spool us).given[reader]? = some (octets.take (n + Use.asked reader us)) := by
  induction us generalizing r n with
  | nil => exact h
  | cons u us ih =>
    have hfolder : (r.use spool u).place.folder = r.place.folder :=
      use_folder (quiet u List.mem_cons_self)
    have hrest := ih (fun v hv => quiet v (List.mem_cons_of_mem u hv)) (hfolder ▸ contents)
      (use_given u contents h)
    rw [uses_cons, hrest, Use.asked, Nat.add_assoc]

theorem uses_reopen {before after : List Use} (quiet : ∀ u ∈ before ++ after, u.Quiet)
    (contents : spool.contents r.place.folder = octets) :
    (r.uses spool (before ++ .reopen :: after)).given[(r.uses spool before).given.length]? =
      some (octets.take (Use.asked (r.uses spool before).given.length after)) := by
  have hfolder : (r.uses spool before).place.folder = r.place.folder :=
    uses_folder fun u hu => quiet u (List.mem_append_left after hu)
  have hopened :
      ((r.uses spool before).use spool .reopen).given[(r.uses spool before).given.length]? =
        some (octets.take 0) := List.getElem?_concat_length
  have hgiven := uses_given (fun u hu => quiet u (List.mem_append_right before hu))
    (hfolder ▸ contents) hopened
  rw [uses_append, uses_cons, hgiven, Nat.zero_add]

end Reading

/-- The copy that some steps make has as many octets as the monitor has counted meanwhile, and every
reader is given them from the first on, as often as the copy is opened, however far others have read
and whatever the worker does as long as it leaves the folder alone. -/
structure Spool.Faithful (place : Workplace) (steps : List Step) (spool : Spool)
    (octets : List UInt8) : Prop where
  length : spool.length = octets.length
  counted : place.monitor.growth (place.after steps).monitor = octets.length
  reopened : ∀ before after, (∀ u ∈ before ++ after, u.Quiet) →
    let copied : Reading := ⟨place.after steps, []⟩
    let reader := (copied.uses spool before).given.length
    (copied.uses spool (before ++ .reopen :: after)).given[reader]? =
      some (octets.take (Use.asked reader after))

theorem Spool.ofChunks_faithful (place : Workplace) (chunks : List (List UInt8))
    (counted : chunks.flatten.length < UInt64.size) :
    ∃ steps spool, ofChunks (some place.folder) (chunks.map .octets) = (steps, .ok spool) ∧
      Faithful place steps spool chunks.flatten := by
  have hrun := ofChunks_run place (chunks.map .octets)
  have hmonitor := through_ofChunks place.folder (chunks.map .octets) place.monitor
  have harrived : arrived (chunks.map .octets) = chunks.flatten := by
    simpa [arrived] using arrived_octets chunks []
  rw [received_octets] at hrun
  obtain ⟨steps, spool, hsteps, hlength, -, hholds⟩ := hrun
  rw [hsteps, harrived, ← Workplace.monitor_after] at hmonitor
  refine ⟨steps, spool, hsteps, hlength, ?_, ?_⟩
  · rw [hmonitor, Monitor.growth_spooled _ counted]
  · intro before after quiet
    exact Reading.uses_reopen quiet hholds.contents

theorem Spool.ofChunks_failure (place : Workplace) (chunks : List (List UInt8))
    (counted : chunks.flatten.length < UInt64.size) (message : String) (rest : List Chunk) :
    ∃ steps, ofChunks (some place.folder) (chunks.map .octets ++ .failure message :: rest) =
        (steps, .error message) ∧
      place.monitor.growth (place.after steps).monitor = chunks.flatten.length ∧
      (place.after steps).folder = place.folder := by
  have hrun := ofChunks_run place (chunks.map .octets ++ .failure message :: rest)
  have hmonitor := through_ofChunks place.folder (chunks.map .octets ++ .failure message :: rest)
    place.monitor
  rw [received_failure] at hrun
  obtain ⟨steps, hsteps, hfolder, -⟩ := hrun
  rw [hsteps, arrived_octets, arrived, List.append_nil, ← Workplace.monitor_after] at hmonitor
  refine ⟨steps, hsteps, ?_, hfolder⟩
  rw [hmonitor, Monitor.growth_spooled _ counted]

theorem Job.work_received {ω : Type} (job : Job) (storage : Storage ω) (place : Workplace)
    {body body' : List Chunk} (h : received body' = received body) (state : ω) :
    (job.work storage place body' state).1.outcome = (job.work storage place body state).1.outcome ∧
      (job.work storage place body' state).2 = (job.work storage place body state).2 := by
  obtain ⟨steps, hwork, -⟩ := job.work_run storage place body state
  obtain ⟨steps', hwork', -⟩ := job.work_run storage place body' state
  have hresult : job.result storage body' state = job.result storage body state := by
    rw [result, result, h]
  rw [hwork, hwork', hresult]
  exact ⟨rfl, rfl⟩

/-- For all chunks of a body, of any sizes, as long as 64 bits can count the octets. If nothing
fails the copy is faithful. If the body fails after these chunks, whatever follows, then so does
the copy, which has counted these octets and leaves no file, and so does the import, which leaves
the storage as it is. Other chunks of the same octets come to the same import. -/
theorem copies_faithful (place : Workplace) (chunks : List (List UInt8))
    (counted : chunks.flatten.length < UInt64.size) :
    (∃ steps spool,
      Spool.ofChunks (some place.folder) (chunks.map .octets) = (steps, .ok spool) ∧
      Spool.Faithful place steps spool chunks.flatten) ∧
    (∀ message rest, ∃ steps,
      Spool.ofChunks (some place.folder) (chunks.map .octets ++ .failure message :: rest) =
        (steps, .error message) ∧
      place.monitor.growth (place.after steps).monitor = chunks.flatten.length ∧
      (place.after steps).folder = place.folder) ∧
    ∀ {ω : Type} (job : Job) (storage : Storage ω) (state : ω),
      (∀ message rest,
        let failed :=
          job.work storage place (chunks.map .octets ++ .failure message :: rest) state
        failed.1.outcome = some (.failure Created.empty (.spool message)) ∧ failed.2 = state) ∧
      ∀ chunks' : List (List UInt8), chunks'.flatten = chunks.flatten →
        let work := job.work storage place (chunks.map .octets) state
        let work' := job.work storage place (chunks'.map .octets) state
        work'.1.outcome = work.1.outcome ∧ work'.2 = work.2 := by
  refine ⟨Spool.ofChunks_faithful place chunks counted, Spool.ofChunks_failure place chunks counted,
    ?_⟩
  intro ω job storage state
  constructor
  · intro message rest
    obtain ⟨steps, hwork, -⟩ := job.work_run storage place
      (chunks.map .octets ++ .failure message :: rest) state
    rw [hwork, Job.result, received_failure]
    exact ⟨rfl, rfl⟩
  · intro chunks' hsame
    exact job.work_received storage place (by rw [received_octets, received_octets, hsame]) state

/-- A chunk without octets does not end the body, and a reader that stopped early takes nothing from
the one that is opened next. -/
theorem copies_faithful_split :
    ([[91], [], [32, 93]] : List (List UInt8)).flatten.length < UInt64.size ∧
    ∃ steps spool,
      Spool.ofChunks (some {}) [.octets [91], .octets [], .octets [32, 93]] = (steps, .ok spool) ∧
      spool.length = 3 ∧
      (Reading.uses spool ⟨Workplace.after {} steps, []⟩
        [.reopen, .read 0 2, .reopen, .read 1 5]).given[1]? = some [91, 32, 93] := by
  obtain ⟨⟨steps, spool, hsteps, hfaithful⟩, -⟩ :=
    copies_faithful {} [[91], [], [32, 93]] (by decide)
  have quiet : ∀ u ∈ [Use.reopen, .read 0 2] ++ [.read 1 5], u.Quiet := by
    simp [Use.Quiet]
  exact ⟨by decide, steps, spool, hsteps, hfaithful.length,
    hfaithful.reopened [.reopen, .read 0 2] [.read 1 5] quiet⟩

end Accession.Batch
