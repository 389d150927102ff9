import Accession.Batch.Reader
import Accession.Proofs.Batch.Decoding
set_option autoImplicit false

namespace Accession.Batch

namespace Splitter

theorem feed_append (splitter : Splitter) (s t : List UInt8) :
    splitter.feed (s ++ t) =
      match splitter.feed s with
      | .taken splitter' => splitter'.feed t
      | .piece splitter' piece rest => .piece splitter' piece (rest ++ t)
      | .refused splitter' e => .refused splitter' e := by
  induction s generalizing splitter with
  | nil => rfl
  | cons b s ih =>
    rw [List.cons_append, feed, feed]
    rcases splitter.push b with e | ⟨splitter', _ | piece⟩
    · rfl
    · exact ih splitter'
    · rfl

end Splitter

theorem nextPiece_feed (splitter : Splitter) (buffers : List (List UInt8)) :
    match splitter.feed buffers.flatten with
    | .taken splitter' =>
      nextPiece splitter buffers = (splitter'.finish.map (fun _ => none), [], splitter')
    | .piece splitter' piece rest =>
      ∃ buffers', nextPiece splitter buffers = (.ok (some piece), buffers', splitter') ∧
        buffers'.flatten = rest
    | .refused splitter' e =>
      ∃ buffers', nextPiece splitter buffers = (.error e, buffers', splitter') := by
  induction buffers generalizing splitter with
  | nil =>
    rw [List.flatten_nil, nextPiece]
    change _ = (splitter.finish.map _, _, _)
    rcases splitter.finish with e | ⟨⟩ <;> rfl
  | cons buffer buffers ih =>
    rw [List.flatten_cons, Splitter.feed_append, nextPiece]
    cases splitter.feed buffer with
    | taken splitter' => exact ih splitter'
    | piece splitter' piece rest => exact ⟨_, rfl, List.flatten_cons⟩
    | refused splitter' e => exact ⟨_, rfl⟩

theorem nextPiece_rebuffered {splitter splitter' : Splitter}
    {buffers rest other : List (List UInt8)} {result : Except FramingError (Option (List UInt8))}
    (h : nextPiece splitter buffers = (result, rest, splitter'))
    (same : other.flatten = buffers.flatten) :
    ∃ rest', nextPiece splitter other = (result, rest', splitter') ∧
      ∀ piece, result = .ok (some piece) → rest'.flatten = rest.flatten := by
  have hfed := nextPiece_feed splitter buffers
  have hfed' := nextPiece_feed splitter other
  rw [same] at hfed'
  rw [h] at hfed
  cases hfeed : splitter.feed buffers.flatten with
  | taken state =>
    rw [hfeed] at hfed hfed'
    obtain ⟨rfl, rfl, rfl⟩ : result = _ ∧ rest = _ ∧ splitter' = _ := by simpa using hfed
    exact ⟨[], hfed', fun _ _ => rfl⟩
  | piece state piece octets =>
    rw [hfeed] at hfed hfed'
    obtain ⟨rest₁, heq, hflatten⟩ := hfed
    obtain ⟨rest₂, hnext, hflatten'⟩ := hfed'
    obtain ⟨rfl, rfl, rfl⟩ : result = _ ∧ rest = _ ∧ splitter' = _ := by simpa using heq
    exact ⟨rest₂, hnext, fun _ _ => hflatten'.trans hflatten.symm⟩
  | refused state e =>
    rw [hfeed] at hfed hfed'
    obtain ⟨rest₁, heq⟩ := hfed
    obtain ⟨rest₂, hnext⟩ := hfed'
    obtain ⟨rfl, rfl, rfl⟩ : result = _ ∧ rest = _ ∧ splitter' = _ := by simpa using heq
    exact ⟨rest₂, hnext, nofun⟩

namespace Reader

def cutsPiece (reader : Reader) : Bool :=
  !reader.ended &&
    match nextPiece reader.splitter reader.buffers with
    | (.ok (some _), _, _) => true
    | _ => false

/-- The results of calls one after another, `limit` calls at most. The last call is the first that
cuts no piece off: it finds the end of the stream or a broken framing. -/
def results (registry : Registry) :
    (limit : Nat) → Reader → List (Except ImportError (Option Record))
  | 0, _ => []
  | limit + 1, reader =>
    let (result, reader') := reader.next registry
    if reader.cutsPiece then result :: results registry limit reader' else [result]

section Calls

variable (registry : Registry) {reader : Reader} (reading : reader.ended = false)
  {rest : List (List UInt8)} {splitter : Splitter}

include reading

theorem next_of_piece {piece : List UInt8}
    (h : nextPiece reader.splitter reader.buffers = (.ok (some piece), rest, splitter)) :
    reader.cutsPiece = true ∧
      reader.next registry =
        ((decode registry (reader.position + 1) reader.seen piece).1.map some,
          { reader with
            buffers := rest, splitter, position := reader.position + 1
            seen := (decode registry (reader.position + 1) reader.seen piece).2 }) := by
  rw [cutsPiece, next, reading, if_neg Bool.false_ne_true, h]
  exact ⟨rfl, rfl⟩

theorem next_of_end (h : nextPiece reader.splitter reader.buffers = (.ok none, rest, splitter)) :
    reader.cutsPiece = false ∧
      reader.next registry
        = (.ok none, { reader with buffers := rest, splitter, ended := true }) := by
  rw [cutsPiece, next, reading, if_neg Bool.false_ne_true, h]
  exact ⟨rfl, rfl⟩

theorem next_of_error {e : FramingError}
    (h : nextPiece reader.splitter reader.buffers = (.error e, rest, splitter)) :
    reader.cutsPiece = false ∧
      reader.next registry
        = (.error (.decode (reader.position + 1) e.message),
          { reader with buffers := rest, splitter }) := by
  rw [cutsPiece, next, reading, if_neg Bool.false_ne_true, h]
  exact ⟨rfl, rfl⟩

end Calls

variable (registry : Registry)

theorem next_of_ended {reader : Reader} (ended : reader.ended = true) :
    reader.cutsPiece = false ∧ reader.next registry = (.ok none, reader) := by
  rw [cutsPiece, next, ended, if_pos rfl]
  exact ⟨rfl, rfl⟩

theorem next_rebuffered (reader : Reader) {buffers : List (List UInt8)}
    (same : buffers.flatten = reader.buffers.flatten) :
    let other := { reader with buffers }
    (other.next registry).1 = (reader.next registry).1 ∧ other.cutsPiece = reader.cutsPiece ∧
      (reader.cutsPiece = true → ∃ rest,
        (other.next registry).2 = { (reader.next registry).2 with buffers := rest } ∧
        rest.flatten = (reader.next registry).2.buffers.flatten) := by
  intro other
  cases hended : reader.ended with
  | true =>
    obtain ⟨hcuts, hnext⟩ := next_of_ended registry hended
    obtain ⟨hcuts', hnext'⟩ := next_of_ended registry (show other.ended = true from hended)
    rw [hnext, hnext', hcuts, hcuts']
    exact ⟨rfl, rfl, nofun⟩
  | false =>
    have hended' : other.ended = false := hended
    rcases hown : nextPiece reader.splitter reader.buffers with ⟨e | _ | piece, rest, splitter⟩
    all_goals obtain ⟨rest', hother, hflatten⟩ := nextPiece_rebuffered hown same
    · obtain ⟨hcuts, hnext⟩ := next_of_error registry hended hown
      obtain ⟨hcuts', hnext'⟩ := next_of_error registry hended' hother
      rw [hnext, hnext', hcuts, hcuts']
      exact ⟨rfl, rfl, nofun⟩
    · obtain ⟨hcuts, hnext⟩ := next_of_end registry hended hown
      obtain ⟨hcuts', hnext'⟩ := next_of_end registry hended' hother
      rw [hnext, hnext', hcuts, hcuts']
      exact ⟨rfl, rfl, nofun⟩
    · obtain ⟨hcuts, hnext⟩ := next_of_piece registry hended hown
      obtain ⟨hcuts', hnext'⟩ := next_of_piece registry hended' hother
      rw [hnext, hnext', hcuts, hcuts']
      exact ⟨rfl, rfl, fun _ => ⟨rest', rfl, hflatten piece rfl⟩⟩

theorem results_succ (limit : Nat) (reader : Reader) :
    results registry (limit + 1) reader =
      if reader.cutsPiece then
        (reader.next registry).1 :: results registry limit (reader.next registry).2
      else [(reader.next registry).1] :=
  rfl

theorem results_rebuffered (limit : Nat) (reader : Reader) {buffers : List (List UInt8)}
    (same : buffers.flatten = reader.buffers.flatten) :
    results registry limit { reader with buffers } = results registry limit reader := by
  induction limit generalizing reader buffers with
  | zero => rfl
  | succ limit ih =>
    obtain ⟨hresult, hcuts, hrest⟩ := next_rebuffered registry reader same
    rw [results_succ, results_succ, hresult, hcuts]
    cases hpiece : reader.cutsPiece with
    | false => rfl
    | true =>
      obtain ⟨rest, hnext, hflatten⟩ := hrest hpiece
      rw [hnext, ih _ hflatten]

theorem results_end (limit : Nat) (reader : Reader)
    (enough : reader.buffers.flatten.length < limit) :
    ∃ front last, results registry limit reader = front ++ [last] ∧
      (last = .ok none ∨
        ∃ position, ∃ e : FramingError, last = .error (.decode position e.message)) := by
  induction limit generalizing reader with
  | zero => omega
  | succ limit ih =>
    rw [results_succ]
    cases hended : reader.ended with
    | true =>
      obtain ⟨hcuts, hnext⟩ := next_of_ended registry hended
      rw [hcuts, hnext]
      exact ⟨[], _, rfl, .inl rfl⟩
    | false =>
      rcases hpiece : nextPiece reader.splitter reader.buffers with ⟨e | _ | piece, rest, splitter⟩
      · obtain ⟨hcuts, hnext⟩ := next_of_error registry hended hpiece
        rw [hcuts, hnext]
        exact ⟨[], _, rfl, .inr ⟨_, e, rfl⟩⟩
      · obtain ⟨hcuts, hnext⟩ := next_of_end registry hended hpiece
        rw [hcuts, hnext]
        exact ⟨[], _, rfl, .inl rfl⟩
      · obtain ⟨hcuts, hnext⟩ := next_of_piece registry hended hpiece
        have hshorter := nextPiece_length hpiece
        obtain ⟨front, last, hresults, hlast⟩ := ih (reader.next registry).2
          (by rw [hnext]; dsimp only; omega)
        rw [hcuts, if_pos rfl, hresults]
        exact ⟨_ :: front, last, rfl, hlast⟩

end Reader

/-- A stream is read alike in whatever buffers it is delivered, be they the full ones of any capacity
or of any other lengths: as many calls give the same results in the same order, which are records
with their positions, failures of single records, and at last the end of the stream or the error of
its framing. That comes after no more calls than the stream has octets, and one. -/
theorem buffering_immaterial (registry : Registry) (stream : List UInt8) (limit : Nat) :
    (∀ first second : List (List UInt8), first.flatten = stream → second.flatten = stream →
      (Reader.ofBuffers first).results registry limit
        = (Reader.ofBuffers second).results registry limit) ∧
    (∀ capacity capacity', 0 < capacity → 0 < capacity' →
      (Reader.ofStream capacity stream).results registry limit
        = (Reader.ofStream capacity' stream).results registry limit) ∧
    (stream.length < limit → ∀ buffers, buffers.flatten = stream →
      ∃ front last, (Reader.ofBuffers buffers).results registry limit = front ++ [last] ∧
        (last = .ok none ∨
          ∃ position, ∃ e : FramingError, last = .error (.decode position e.message))) := by
  have hsame : ∀ first second : List (List UInt8), first.flatten = stream →
      second.flatten = stream → (Reader.ofBuffers first).results registry limit
        = (Reader.ofBuffers second).results registry limit := by
    intro first second hfirst hsecond
    exact Reader.results_rebuffered registry limit (Reader.ofBuffers second)
      (hfirst.trans hsecond.symm)
  refine ⟨hsame, ?_, ?_⟩
  · intro capacity capacity' hcapacity hcapacity'
    exact hsame _ _ (flatten_buffers hcapacity stream) (flatten_buffers hcapacity' stream)
  · rintro enough buffers rfl
    exact Reader.results_end registry limit (Reader.ofBuffers buffers) enough

end Accession.Batch
