import Accession.Proofs.Batch.Decoding
set_option autoImplicit false

namespace Accession.Batch

section Cutting

theorem feed_begun {splitter splitter' : Splitter} {octets : List UInt8} (begun : Begun splitter)
    (h : splitter.feed octets = .taken splitter') : Begun splitter' := by
  induction octets generalizing splitter with
  | nil =>
    cases h
    exact begun
  | cons b octets ih =>
    rw [Splitter.feed] at h
    split at h
    · cases h
    · cases h
    · rename_i hpush
      exact ih (push_begun begun hpush).1 h

theorem feed_bracketed {splitter splitter' : Splitter} {octets rest piece : List UInt8}
    (begun : Begun splitter) (h : splitter.feed octets = .piece splitter' piece rest) :
    Begun splitter' ∧ Bracketed piece := by
  induction octets generalizing splitter with
  | nil => cases h
  | cons b octets ih =>
    rw [Splitter.feed] at h
    split at h
    · cases h
    · rename_i hpush
      cases h
      obtain ⟨hbegun, hpiece⟩ := push_begun begun hpush
      exact ⟨hbegun, hpiece piece rfl⟩
    · rename_i hpush
      exact ih (push_begun begun hpush).1 h

theorem nextPiece_bracketed {splitter splitter' : Splitter} {buffers rest : List (List UInt8)}
    {piece : List UInt8} (begun : Begun splitter)
    (h : nextPiece splitter buffers = (.ok (some piece), rest, splitter')) :
    Begun splitter' ∧ Bracketed piece := by
  induction buffers generalizing splitter with
  | nil =>
    rw [nextPiece] at h
    split at h <;> cases h
  | cons buffer buffers ih =>
    rw [nextPiece] at h
    split at h
    · rename_i hfeed
      exact ih (feed_begun begun hfeed) h
    · rename_i hfeed
      cases h
      exact feed_bracketed begun hfeed
    · cases h

end Cutting

section Reading

variable {registry : Registry}

theorem records_parsed (limit position : Nat) (seen : List String) {splitter : Splitter}
    (buffers : List (List UInt8)) (begun : Begun splitter) :
    ∃ pieces,
      Parsed position pieces
        (Reader.records registry limit { buffers, splitter, position, seen }).1 ∧
      Fresh registry seen
        (Reader.records registry limit { buffers, splitter, position, seen }).1 ∧
      ∀ piece ∈ pieces, Bracketed piece := by
  induction limit generalizing position seen splitter buffers with
  | zero => exact ⟨[], .nil, fresh_nil, nofun⟩
  | succ limit ih =>
    rw [Reader.records, Reader.next, if_neg Bool.false_ne_true]
    rcases hpiece : nextPiece splitter buffers with ⟨e | _ | piece, rest, splitter'⟩ <;> dsimp only
    · exact ⟨[], .nil, fresh_nil, nofun⟩
    · exact ⟨[], .nil, fresh_nil, nofun⟩
    · obtain ⟨hbegun, hbracketed⟩ := nextPiece_bracketed begun hpiece
      rcases hdecode : decode registry (position + 1) seen piece with ⟨e | record, seen'⟩ <;>
        simp only [Except.map]
      · exact ⟨[], .nil, fresh_nil, nofun⟩
      · obtain ⟨hparse, hcount, hsorted, rfl⟩ := decode_iff_sorted.1 hdecode
        obtain ⟨pieces, hparsed, hfresh, hpieces⟩ :=
          ih (position + 1) (record.logicalId :: seen) rest hbegun
        exact ⟨piece :: pieces, .cons hparse hcount hparsed, fresh_cons.2 ⟨hsorted, hfresh⟩,
          List.forall_mem_cons.2 ⟨hbracketed, hpieces⟩⟩

theorem Parsed.front {position : Nat} {pieces : List (List UInt8)} {front rest : List Record}
    (h : Parsed position pieces (front ++ rest)) :
    ∃ first later, pieces = first ++ later ∧ Parsed position first front := by
  induction front generalizing position pieces with
  | nil => exact ⟨[], pieces, rfl, .nil⟩
  | cons record front ih =>
    cases h with
    | @cons _ piece _ _ _ parsed counted more =>
      obtain ⟨first, later, rfl, hfirst⟩ := ih more
      exact ⟨piece :: first, later, rfl, .cons parsed counted hfirst⟩

theorem sequenceFraming_flatten (pieces : List (List UInt8)) :
    SequenceFraming pieces pieces.flatten := by
  induction pieces with
  | nil => exact .nil gap_nil
  | cons piece pieces ih => exact .cons gap_nil ih

theorem recordsOf_parsed (registry : Registry) (body : List UInt8) :
    ∃ pieces, Parsed 0 pieces (recordsOf registry body).1 ∧
      Fresh registry [] (recordsOf registry body).1 ∧ ∀ piece ∈ pieces, Bracketed piece :=
  records_parsed _ 0 [] _ (show Begun .start from trivial)

/-- The first records of a body are the records of another, with which nothing is wrong. -/
theorem prefix_alone {body : List UInt8} {front rest : List Record}
    (h : (recordsOf registry body).1 = front ++ rest) :
    ∃ alone, recordsOf registry alone = (front, none) := by
  obtain ⟨pieces, hparsed, hfresh, hbracketed⟩ := recordsOf_parsed registry body
  rw [h] at hparsed hfresh
  obtain ⟨first, later, rfl, hfirst⟩ := hparsed.front
  obtain ⟨hsorted, hdistinct⟩ := hfresh
  rw [List.map_append] at hdistinct
  refine ⟨first.flatten, (recordsOf_eq_iff registry _ _).2 ⟨⟨first, ?_, ?_, hfirst⟩, ?_, ?_⟩⟩
  · intro piece hpiece
    obtain ⟨ms, hms⟩ := hfirst.accepted piece hpiece
    exact isRecord_of_bracketed (hbracketed piece (List.mem_append_left _ hpiece)) hms
  · exact .inr (sequenceFraming_flatten first)
  · intro record hrecord
    exact (hsorted record (List.mem_append_left _ hrecord)).1
  · exact (List.nodup_append.1 hdistinct).1

end Reading

end Accession.Batch
