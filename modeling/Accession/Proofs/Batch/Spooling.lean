import Accession.Batch.Spool
set_option autoImplicit false

namespace Accession.Batch

/-- The octets of a body, unless it fails before its end. -/
def received : List Chunk → Except String (List UInt8)
  | [] => .ok []
  | .failure message :: _ => .error message
  | .octets s :: rest => (received rest).map (s ++ ·)

/-- What arrives of a body before its end or its first failure. -/
def arrived : List Chunk → List UInt8
  | [] => []
  | .failure _ :: _ => []
  | .octets s :: rest => s ++ arrived rest

theorem arrived_of_received {body : List Chunk} {octets : List UInt8}
    (h : received body = .ok octets) : arrived body = octets := by
  induction body generalizing octets with
  | nil =>
    cases h
    rfl
  | cons chunk rest ih =>
    cases chunk with
    | failure message => cases h
    | octets s =>
      rw [received] at h
      cases hrest : received rest with
      | error message =>
        rw [hrest] at h
        cases h
      | ok more =>
        rw [hrest] at h
        cases h
        rw [arrived, ih hrest]

theorem arrived_octets (chunks : List (List UInt8)) (tail : List Chunk) :
    arrived (chunks.map .octets ++ tail) = chunks.flatten ++ arrived tail := by
  induction chunks with
  | nil => rfl
  | cons s chunks ih =>
    rw [List.map_cons, List.cons_append, arrived, ih, List.flatten_cons, List.append_assoc]

theorem received_octets (chunks : List (List UInt8)) :
    received (chunks.map .octets) = .ok chunks.flatten := by
  induction chunks with
  | nil => rfl
  | cons s chunks ih =>
    rw [List.map_cons, received, ih, List.flatten_cons]
    rfl

theorem received_failure (chunks : List (List UInt8)) (message : String) (rest : List Chunk) :
    received (chunks.map .octets ++ .failure message :: rest) = .error message := by
  induction chunks with
  | nil => rfl
  | cons s chunks ih =>
    rw [List.map_cons, List.cons_append, received, ih]
    rfl

namespace Folder

variable {files : List (Nat × List (List UInt8))} {file : Nat}

theorem lt_unused (folder : Folder) : ∀ f ∈ folder.files, f.1 < folder.unused := by
  have hmax : ∀ (files : List (Nat × List (List UInt8))) (n : Nat),
      n ≤ files.foldl (fun n f => max n (f.1 + 1)) n ∧
        ∀ f ∈ files, f.1 < files.foldl (fun n f => max n (f.1 + 1)) n := by
    intro files
    induction files with
    | nil => simp
    | cons g files ih =>
      intro n
      obtain ⟨hle, hlt⟩ := ih (max n (g.1 + 1))
      rw [List.foldl_cons]
      refine ⟨by omega, ?_⟩
      intro f hf
      obtain rfl | hf := List.mem_cons.1 hf
      · omega
      · exact hlt f hf
  exact (hmax folder.files 0).2

theorem apply_append_head (fresh : ∀ f ∈ files, f.1 ≠ file) (pieces : List (List UInt8))
    (s : List UInt8) :
    Folder.apply ⟨(file, pieces) :: files⟩ (.append file s) = ⟨(file, s :: pieces) :: files⟩ := by
  have hrest : files.map (fun f => if f.1 == file then (f.1, s :: f.2) else f) = files := by
    rw [List.map_congr_left (g := id), List.map_id]
    intro f hf
    simp [fresh f hf]
  simpa [Folder.apply] using hrest

theorem apply_remove_head (fresh : ∀ f ∈ files, f.1 ≠ file) (pieces : List (List UInt8)) :
    Folder.apply ⟨(file, pieces) :: files⟩ (.remove file) = ⟨files⟩ := by
  have hrest : files.filter (fun f => f.1 != file) = files :=
    List.filter_eq_self.2 (by simpa using fresh)
  simp [Folder.apply, hrest]

end Folder

theorem Workplace.after_append (place : Workplace) (steps more : List Step) :
    place.after (steps ++ more) = (place.after steps).after more := by
  rw [Workplace.after, List.foldl_append]
  rfl

theorem Workplace.after_cons (place : Workplace) (s : Step) (steps : List Step) :
    place.after (s :: steps) = (place.take s).after steps := rfl

namespace Monitor

def take (m : Monitor) : Step → Monitor
  | .activity a => m.note a
  | .sleep _ | .file _ | .reportError _ => m

def through (m : Monitor) (steps : List Step) : Monitor :=
  steps.foldl take m

theorem through_append (m : Monitor) (steps more : List Step) :
    m.through (steps ++ more) = (m.through steps).through more :=
  List.foldl_append

def spooled (m : Monitor) (octets : Nat) : Monitor :=
  { m with bytesSpooled := m.bytesSpooled + UInt64.ofNat octets }

theorem spooled_zero (m : Monitor) : m.spooled 0 = m := by
  rw [spooled, show UInt64.ofNat 0 = 0 from rfl, UInt64.add_zero]

theorem spooled_spooled (m : Monitor) (n k : Nat) :
    (m.spooled n).spooled k = m.spooled (n + k) := by
  rw [spooled, spooled, spooled, UInt64.ofNat_add, UInt64.add_assoc]

theorem toNat_spooled {m : Monitor} {octets : Nat}
    (room : m.bytesSpooled.toNat + octets < UInt64.size) :
    (m.spooled octets).bytesSpooled.toNat = m.bytesSpooled.toNat + octets := by
  have hoctets : octets < UInt64.size := by omega
  rw [spooled, UInt64.toNat_add, UInt64.toNat_ofNat_of_lt' hoctets]
  exact Nat.mod_eq_of_lt room

end Monitor

theorem Workplace.monitor_after (place : Workplace) (steps : List Step) :
    (place.after steps).monitor = place.monitor.through steps := by
  induction steps generalizing place with
  | nil => rfl
  | cons s rest ih =>
    rw [Workplace.after_cons, ih]
    cases s <;> rfl

/-- A place as it was before, but that its folder has one more file, in which some octets are. -/
structure Holds (before : Workplace) (file : Nat) (octets : List UInt8) (place : Workplace) :
    Prop where
  folder : ∃ pieces, place.folder = ⟨(file, pieces) :: before.folder.files⟩ ∧
    pieces.reverse.flatten = octets
  lastError : place.lastError = before.lastError

namespace Holds

variable {before place : Workplace} {file : Nat} {octets : List UInt8}

theorem contents (h : Holds before file octets place) :
    (place.folder.contents? file).getD [] = octets := by
  obtain ⟨⟨pieces, hfolder, hpieces⟩, -⟩ := h
  rw [hfolder, Folder.contents?]
  simp [hpieces]

theorem removed (fresh : ∀ f ∈ before.folder.files, f.1 ≠ file)
    (h : Holds before file octets place) :
    (place.take (.file (.remove file))).folder = before.folder ∧
      (place.take (.file (.remove file))).lastError = before.lastError := by
  obtain ⟨⟨pieces, hfolder, -⟩, hlast⟩ := h
  refine ⟨?_, hlast⟩
  change place.folder.apply (.remove file) = _
  rw [hfolder]
  exact Folder.apply_remove_head fresh pieces

variable (fresh : ∀ f ∈ before.folder.files, f.1 ≠ file)

include fresh

theorem copyPiece (h : Holds before file octets place) (s : List UInt8) :
    Holds before file (octets ++ s) (place.after (Spool.copyPiece file s)) := by
  obtain ⟨⟨pieces, hfolder, hpieces⟩, hlast⟩ := h
  refine ⟨⟨s :: pieces, ?_, ?_⟩, hlast⟩
  · change place.folder.apply (.append file s) = _
    rw [hfolder]
    exact Folder.apply_append_head fresh pieces s
  · rw [List.reverse_cons, List.flatten_append, hpieces, List.flatten_singleton]

theorem copyPieces (h : Holds before file octets place) (pieces : List (List UInt8)) :
    Holds before file (octets ++ pieces.flatten)
      (place.after (pieces.flatMap (Spool.copyPiece file))) := by
  induction pieces generalizing octets place with
  | nil =>
    rw [List.flatten_nil, List.append_nil]
    exact h
  | cons s pieces ih =>
    rw [List.flatMap_cons, Workplace.after_append, List.flatten_cons, ← List.append_assoc]
    exact ih (h.copyPiece fresh s)

end Holds

namespace Spool

section

variable {before : Workplace} {file : Nat} (fresh : ∀ f ∈ before.folder.files, f.1 ≠ file)

include fresh

theorem copy_run (body : List Chunk) (copied : Nat) {octets : List UInt8} {place : Workplace}
    (h : Holds before file octets place) :
    match received body with
    | .ok s => (copy file copied body).2 = .ok (copied + s.length) ∧
        Holds before file (octets ++ s) (place.after (copy file copied body).1)
    | .error message => (copy file copied body).2 = .error message ∧
        ∃ s, Holds before file (octets ++ s) (place.after (copy file copied body).1) := by
  induction body generalizing copied octets place with
  | nil =>
    refine ⟨rfl, ?_⟩
    rw [List.append_nil]
    exact h
  | cons chunk rest ih =>
    cases chunk with
    | failure message =>
      refine ⟨rfl, [], ?_⟩
      rw [List.append_nil]
      exact h
    | octets s =>
      have hpiece := h.copyPieces fresh (buffers bufferCapacity s)
      rw [flatten_buffers (by decide)] at hpiece
      have hrest := ih (copied + s.length) hpiece
      have hsteps : place.after (copy file copied (.octets s :: rest)).1
          = (place.after ((buffers bufferCapacity s).flatMap (copyPiece file))).after
              (copy file (copied + s.length) rest).1 := Workplace.after_append _ _ _
      rw [received]
      cases hreceived : received rest with
      | ok more =>
        rw [hreceived] at hrest
        obtain ⟨hresult, hholds⟩ := hrest
        refine ⟨?_, ?_⟩
        · rw [List.length_append, ← Nat.add_assoc]
          exact hresult
        · rw [hsteps, ← List.append_assoc]
          exact hholds
      | error message =>
        rw [hreceived] at hrest
        obtain ⟨hresult, more, hholds⟩ := hrest
        refine ⟨hresult, s ++ more, ?_⟩
        rw [hsteps, ← List.append_assoc]
        exact hholds

end

/-- A body that arrives is in the one new file of the folder; a body that fails leaves no file. -/
theorem ofChunks_run (place : Workplace) (body : List Chunk) :
    match received body with
    | .ok s => ∃ steps spool, ofChunks (some place.folder) body = (steps, .ok spool) ∧
        spool.length = s.length ∧ (∀ f ∈ place.folder.files, f.1 ≠ spool.file) ∧
        Holds place spool.file s (place.after steps)
    | .error message => ∃ steps, ofChunks (some place.folder) body = (steps, .error message) ∧
        (place.after steps).folder = place.folder ∧
        (place.after steps).lastError = place.lastError := by
  have fresh : ∀ f ∈ place.folder.files, f.1 ≠ place.folder.unused := fun f hf =>
    Nat.ne_of_lt (place.folder.lt_unused f hf)
  have hcreated : Holds place place.folder.unused []
      (place.take (.file (.create place.folder.unused))) := ⟨⟨[], rfl, rfl⟩, rfl⟩
  have hrun := copy_run fresh body 0 hcreated
  rw [ofChunks]
  rcases hcopy : copy place.folder.unused 0 body with ⟨steps, result⟩
  rw [hcopy] at hrun
  cases hreceived : received body with
  | ok s =>
    rw [hreceived] at hrun
    obtain ⟨rfl, hholds⟩ := hrun
    exact ⟨_, _, rfl, Nat.zero_add _, fresh, hholds⟩
  | error message =>
    rw [hreceived] at hrun
    obtain ⟨rfl, s, hholds⟩ := hrun
    refine ⟨_, rfl, ?_⟩
    rw [List.cons_append, Workplace.after_cons, Workplace.after_append]
    exact hholds.removed fresh

theorem through_copyPieces (file : Nat) (pieces : List (List UInt8)) (m : Monitor) :
    m.through (pieces.flatMap (copyPiece file)) = m.spooled pieces.flatten.length := by
  induction pieces generalizing m with
  | nil => exact m.spooled_zero.symm
  | cons s pieces ih =>
    have hpiece : m.through (copyPiece file s) = m.spooled s.length := rfl
    rw [List.flatMap_cons, Monitor.through_append, hpiece, ih, Monitor.spooled_spooled,
      List.flatten_cons, List.length_append]

theorem through_copy (file : Nat) (body : List Chunk) (copied : Nat) (m : Monitor) :
    m.through (copy file copied body).1 = m.spooled (arrived body).length := by
  induction body generalizing copied m with
  | nil => exact m.spooled_zero.symm
  | cons chunk rest ih =>
    cases chunk with
    | failure message => exact m.spooled_zero.symm
    | octets s =>
      have hsteps : (copy file copied (.octets s :: rest)).1 =
          (buffers bufferCapacity s).flatMap (copyPiece file) ++
            (copy file (copied + s.length) rest).1 := rfl
      rw [hsteps, Monitor.through_append, ih, through_copyPieces, flatten_buffers (by decide),
        Monitor.spooled_spooled, arrived, List.length_append]

theorem through_ofChunks (folder : Folder) (body : List Chunk) (m : Monitor) :
    m.through (ofChunks (some folder) body).1 = m.spooled (arrived body).length := by
  have hcopy := through_copy folder.unused body 0 m
  rw [ofChunks]
  rcases hresult : copy folder.unused 0 body with ⟨steps, message | length⟩
  · rw [hresult] at hcopy
    dsimp only
    rw [Monitor.through_append]
    exact hcopy
  · rw [hresult] at hcopy
    exact hcopy

end Spool

end Accession.Batch
