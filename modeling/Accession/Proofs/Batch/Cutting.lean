import Accession.Proofs.Batch.Framing
set_option autoImplicit false

namespace Accession.Batch

/-- The pieces that are cut off a stream, up to its end or an octet that is refused. -/
def cut : Splitter → List UInt8 → List (List UInt8)
  | _, [] => []
  | splitter, b :: s =>
    match splitter.push b with
    | .error _ => []
    | .ok (splitter, none) => cut splitter s
    | .ok (splitter, some piece) => piece :: cut splitter s

theorem cut_length_le (splitter : Splitter) (s : List UInt8) :
    (cut splitter s).length ≤ s.length := by
  induction s generalizing splitter with
  | nil => exact Nat.le_refl _
  | cons b s ih =>
    rw [cut]
    split
    · exact Nat.zero_le _
    · exact Nat.le_succ_of_le (ih _)
    · exact Nat.succ_le_succ (ih _)

theorem octetwise_cut : Octetwise cut [] [] List.cons where
  nil splitter := by
    rw [cut]
    cases splitter.finish <;> rfl
  cons _ _ _ := rfl

theorem cut_nextPiece (splitter : Splitter) (buffers : List (List UInt8)) :
    cut splitter buffers.flatten =
      match nextPiece splitter buffers with
      | (.ok none, _, _) => []
      | (.ok (some piece), rest, splitter') => piece :: cut splitter' rest.flatten
      | (.error _, _, _) => [] :=
  octetwise_cut.of_nextPiece splitter buffers

theorem records_length_le (registry : Registry) (limit position : Nat) (seen : List String)
    (splitter : Splitter) (buffers : List (List UInt8)) :
    (Reader.records registry limit { buffers, splitter, position, seen }).1.length
      ≤ (cut splitter buffers.flatten).length := by
  induction limit generalizing position seen splitter buffers with
  | zero => exact Nat.zero_le _
  | succ limit ih =>
    rw [Reader.records, Reader.next, if_neg Bool.false_ne_true, cut_nextPiece]
    rcases nextPiece splitter buffers with ⟨e | _ | piece, rest, splitter'⟩ <;> dsimp only
    · exact Nat.le_refl _
    · exact Nat.le_refl _
    · rcases decode registry (position + 1) seen piece with ⟨e | record, seen'⟩
      · exact Nat.zero_le _
      · exact Nat.succ_le_succ (ih (position + 1) seen' splitter' rest)

theorem recordsOf_length_le (registry : Registry) (body : List UInt8) :
    (recordsOf registry body).1.length ≤ (cut .start body).length := by
  have h := records_length_le registry (body.length + 1) 0 [] .start (buffers bufferCapacity body)
  rw [flatten_buffers (by decide)] at h
  exact h

end Accession.Batch
