import Accession.Proofs.Batch.Buffering
import Accession.Registry.Standard
set_option autoImplicit false

namespace Accession.Batch

section Splitting

/-- The states that octets between records lead to before the next record begins. -/
def Splitter.onward : Splitter → List Splitter
  | .start => [.start, .arrayOpen, .arrayClosed]
  | .arrayOpen => [.arrayOpen, .arrayClosed]
  | .arrayComma => [.arrayComma]
  | .arrayAfterRecord => [.arrayAfterRecord, .arrayComma, .arrayClosed]
  | .arrayClosed => [.arrayClosed]
  | .betweenRecords => [.betweenRecords]
  | .record .. => []

variable {splitter splitter' : Splitter} {b : UInt8}

theorem mem_onward_self (outside : ¬InRecord splitter) : splitter ∈ splitter.onward := by
  cases splitter with
  | record => exact absurd trivial outside
  | _ => exact List.mem_cons_self

theorem outside_of_mem_onward (h : splitter' ∈ splitter.onward) : ¬InRecord splitter' := by
  cases splitter with
  | record => cases h
  | _ =>
    simp only [Splitter.onward, List.mem_cons, List.not_mem_nil, or_false] at h
    rcases h with rfl | rfl | rfl <;> exact not_false

theorem onward_mark (m : Marks splitter b splitter') {later : Splitter}
    (h : later ∈ splitter'.onward) : later ∈ splitter.onward := by
  cases m with
  | sequence | first | next | record => cases h
  | array => exact List.mem_cons_of_mem _ h
  | empty => exact List.mem_cons_of_mem _ h
  | close => exact List.mem_cons_of_mem _ (List.mem_cons_of_mem _ h)
  | comma =>
    rw [List.mem_singleton.1 h]
    exact List.mem_cons_of_mem _ List.mem_cons_self

theorem refuses_mark (m : Marks splitter b splitter') {later : Splitter}
    (h : later ∈ splitter'.onward) : ∃ e, later.push b = .error e := by
  cases m with
  | sequence | first | next | record => cases h
  | array =>
    obtain rfl | rfl : later = .arrayOpen ∨ later = .arrayClosed := by
      simpa [Splitter.onward] using h
    all_goals exact ⟨_, rfl⟩
  | empty | close =>
    rw [List.mem_singleton.1 h]
    exact ⟨_, rfl⟩
  | comma =>
    rw [List.mem_singleton.1 h]
    exact ⟨_, rfl⟩

theorem feed_in_record (inside : InRecord splitter) (octets : List UInt8) (e : FramingError) :
    splitter.feed octets ≠ .refused splitter' e := by
  induction octets generalizing splitter with
  | nil => rintro ⟨⟩
  | cons b octets ih =>
    cases splitter with
    | record framing depth quotation taken =>
      rw [Splitter.feed, Splitter.push]
      split
      · rename_i hpush
        split at hpush <;> cases hpush
      · rintro ⟨⟩
      · rename_i hpush
        split at hpush
        · cases hpush
        · cases hpush
          exact ih trivial
    | _ => cases inside

theorem mem_onward_of_feed {octets : List UInt8} {e : FramingError}
    (h : splitter.feed octets = .refused splitter' e) : splitter' ∈ splitter.onward := by
  induction octets generalizing splitter with
  | nil => cases h
  | cons b octets ih =>
    have outside : ¬InRecord splitter := fun inside => feed_in_record inside _ _ h
    rw [Splitter.feed] at h
    split at h
    · cases h
      exact mem_onward_self outside
    · cases h
    · rename_i next hpush
      by_cases hgap : isGap b = true
      · rw [push_gap hgap outside] at hpush
        cases hpush
        exact ih h
      · exact onward_mark (push_mark outside hgap hpush).2 (ih h)

theorem feed_refused_again {octets : List UInt8} {e : FramingError}
    (h : splitter.feed octets = .refused splitter' e) :
    ∃ e', splitter'.feed octets = .refused splitter' e' := by
  induction octets generalizing splitter with
  | nil => cases h
  | cons b octets ih =>
    have outside : ¬InRecord splitter := fun inside => feed_in_record inside _ _ h
    have outside' : ¬InRecord splitter' := outside_of_mem_onward (mem_onward_of_feed h)
    rw [Splitter.feed] at h
    split at h
    · rename_i e hpush
      cases h
      rw [Splitter.feed, hpush]
      exact ⟨_, rfl⟩
    · cases h
    · rename_i next hpush
      by_cases hgap : isGap b = true
      · rw [push_gap hgap outside] at hpush
        cases hpush
        rw [Splitter.feed, push_gap hgap outside']
        exact ih h
      · obtain ⟨e', hrefused⟩ :=
          refuses_mark (push_mark outside hgap hpush).2 (mem_onward_of_feed h)
        rw [Splitter.feed, hrefused]
        exact ⟨e', rfl⟩

/-- A search for the next piece that failed fails again, and leaves everything as it is. -/
theorem nextPiece_error_again {buffers rest : List (List UInt8)} {e : FramingError}
    (h : nextPiece splitter buffers = (.error e, rest, splitter')) :
    ∃ e', nextPiece splitter' rest = (.error e', rest, splitter') := by
  induction buffers generalizing splitter with
  | nil =>
    rw [nextPiece] at h
    split at h
    · rename_i hfinish
      cases h
      rw [nextPiece, hfinish]
      exact ⟨_, rfl⟩
    · cases h
  | cons buffer buffers ih =>
    rw [nextPiece] at h
    split at h
    · exact ih h
    · cases h
    · rename_i hfeed
      cases h
      obtain ⟨e', hagain⟩ := feed_refused_again hfeed
      rw [nextPiece, hagain]
      exact ⟨e', rfl⟩

end Splitting

namespace Reader

variable (registry : Registry)

/-- The reader after a number of calls. -/
def after (reader : Reader) : (calls : Nat) → Reader
  | 0 => reader
  | calls + 1 => ((reader.after calls).next registry).2

theorem after_add (reader : Reader) (calls more : Nat) :
    reader.after registry (calls + more) = (reader.after registry calls).after registry more := by
  induction more with
  | zero => rfl
  | succ more ih =>
    change ((reader.after registry (calls + more)).next registry).2 = _
    rw [ih]
    rfl

variable {registry}

theorem after_still {reader : Reader} {result : Except ImportError (Option Record)}
    (h : reader.next registry = (result, reader)) (calls : Nat) :
    reader.after registry calls = reader := by
  induction calls with
  | zero => rfl
  | succ calls ih => rw [after, ih, h]

theorem next_broken {reader : Reader} {e : ImportError} (cuts : reader.cutsPiece = false)
    (h : (reader.next registry).1 = .error e) :
    ∃ message message',
      e = .decode (reader.position + 1) message ∧
      (reader.next registry).2.position = reader.position ∧
      (reader.next registry).2.next registry
        = (.error (.decode (reader.position + 1) message'), (reader.next registry).2) := by
  cases hended : reader.ended with
  | true =>
    rw [(next_of_ended registry hended).2] at h
    cases h
  | false =>
    rcases hpiece : nextPiece reader.splitter reader.buffers with ⟨e₁ | _ | piece, rest, splitter⟩
    · obtain ⟨-, hnext⟩ := next_of_error registry hended hpiece
      obtain ⟨e₂, hagain⟩ := nextPiece_error_again hpiece
      rw [hnext] at h ⊢
      cases h
      have hended' : ({ reader with buffers := rest, splitter } : Reader).ended = false := hended
      obtain ⟨-, hnext'⟩ := next_of_error registry hended' hagain
      exact ⟨e₁.message, e₂.message, rfl, rfl, hnext'⟩
    · rw [(next_of_end registry hended hpiece).2] at h
      cases h
    · rw [(next_of_piece registry hended hpiece).1] at cuts
      cases cuts

theorem next_ended {reader : Reader} (h : (reader.next registry).1 = .ok none) :
    (reader.next registry).2.next registry = (.ok none, (reader.next registry).2) := by
  cases hended : reader.ended with
  | true =>
    rw [(next_of_ended registry hended).2]
    exact (next_of_ended registry hended).2
  | false =>
    rcases hpiece : nextPiece reader.splitter reader.buffers with ⟨e | _ | piece, rest, splitter⟩
    · rw [(next_of_error registry hended hpiece).2] at h
      cases h
    · rw [(next_of_end registry hended hpiece).2]
      exact (next_of_ended registry rfl).2
    · rw [(next_of_piece registry hended hpiece).2] at h
      dsimp only at h
      cases hdecode : (decode registry (reader.position + 1) reader.seen piece).1 <;>
        rw [hdecode] at h <;> cases h

end Reader

/-- Once a call finds the framing broken, be it at an octet or at the end of the stream, every later
call fails as a text that cannot be decoded at the same position, and the reader stays there; it
yields no record and no end of the stream any more. Once a call finds the end, every later call does.
So it is for every delivery of every stream, and after any number of calls. -/
theorem broken_stays_broken (registry : Registry) (buffers : List (List UInt8)) (calls : Nat) :
    let reader (n : Nat) := (Reader.ofBuffers buffers).after registry n
    let result (n : Nat) := ((reader n).next registry).1
    (∀ e, (reader calls).cutsPiece = false → result calls = .error e →
      ∃ message message', e = .decode ((reader calls).position + 1) message ∧
        ∀ n, calls < n →
          result n = .error (.decode ((reader calls).position + 1) message') ∧
          (reader n).position = (reader calls).position) ∧
    (result calls = .ok none → ∀ n, calls ≤ n → result n = .ok none) := by
  intro reader result
  have hlater : ∀ more, reader (calls + 1 + more)
      = ((reader calls).next registry).2.after registry more :=
    fun more => Reader.after_add registry (Reader.ofBuffers buffers) (calls + 1) more
  constructor
  · intro e hcuts herror
    obtain ⟨message, message', rfl, hposition, hstill⟩ := Reader.next_broken hcuts herror
    refine ⟨message, message', rfl, ?_⟩
    intro n hn
    obtain ⟨more, rfl⟩ := Nat.exists_eq_add_of_le (Nat.succ_le_of_lt hn)
    have hreader : reader (calls + 1 + more) = ((reader calls).next registry).2 := by
      rw [hlater, Reader.after_still hstill]
    refine ⟨?_, by rw [hreader, hposition]⟩
    change ((reader (calls + 1 + more)).next registry).1 = _
    rw [hreader, hstill]
  · intro hend n hn
    obtain rfl | hn := Nat.eq_or_lt_of_le hn
    · exact hend
    · obtain ⟨more, rfl⟩ := Nat.exists_eq_add_of_le (Nat.succ_le_of_lt hn)
      have hstill := Reader.next_ended hend
      change ((reader (calls + 1 + more)).next registry).1 = _
      rw [hlater, Reader.after_still hstill, hstill]

/-- An array that goes on with something else than an object. The comma in front of it is fed twice. -/
def strayed : List UInt8 :=
  Text.Utf8.encode "[\x7b\"id\":\"a\",\"title\":\"A\"\x7d, x"

theorem broken_stays_broken_strayed :
    let reader (n : Nat) := (Reader.ofBuffers (buffers 7 strayed)).after Registry.standard n
    (reader 1).buffers = [Text.Utf8.encode ", x"] ∧ (reader 1).cutsPiece = false ∧
    ∃ message, ∀ n, 1 < n →
      ((reader n).next Registry.standard).1 = .error (.decode 2 message) ∧
      (reader n).position = 1 := by
  intro reader
  have hcuts : (reader 1).cutsPiece = false := by decide +kernel
  have hposition : (reader 1).position = 1 := by decide +kernel
  have hfails : ((reader 1).next Registry.standard).1.isOk = false := by decide +kernel
  refine ⟨by decide +kernel, hcuts, ?_⟩
  cases hresult : ((reader 1).next Registry.standard).1 with
  | ok found =>
    rw [hresult] at hfails
    cases hfails
  | error e =>
    obtain ⟨-, message, -, hlater⟩ :=
      (broken_stays_broken Registry.standard (buffers 7 strayed) 1).1 e hcuts hresult
    refine ⟨message, fun n hn => ?_⟩
    have hn := hlater n hn
    change _ = Except.error (ImportError.decode ((reader 1).position + 1) message) ∧
      _ = (reader 1).position at hn
    rw [hposition] at hn
    exact hn

end Accession.Batch
