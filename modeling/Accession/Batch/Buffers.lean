set_option autoImplicit false

namespace Accession.Batch

def firstBuffers (capacity : Nat) : (count : Nat) → (stream : List UInt8) → List (List UInt8)
  | 0, _ | _, [] => []
  | count + 1, stream =>
    stream.take capacity :: firstBuffers capacity count (stream.drop capacity)

def buffers (capacity : Nat) (stream : List UInt8) : List (List UInt8) :=
  firstBuffers capacity (stream.length / max 1 capacity + 1) stream

def bufferCapacity : Nat := 4096

theorem flatten_firstBuffers {capacity count : Nat} {stream : List UInt8}
    (h : stream.length ≤ capacity * count) :
    (firstBuffers capacity count stream).flatten = stream := by
  induction count generalizing stream with
  | zero =>
    have hnil : stream = [] := List.length_eq_zero_iff.1 (by simpa using h)
    rw [hnil]
    rfl
  | succ count ih =>
    cases stream with
    | nil => rfl
    | cons b s =>
      have hrest : ((b :: s).drop capacity).length ≤ capacity * count := by
        rw [List.length_drop, Nat.sub_le_iff_le_add]
        exact h
      change (b :: s).take capacity
        ++ (firstBuffers capacity count ((b :: s).drop capacity)).flatten = _
      rw [ih hrest, List.take_append_drop]

theorem flatten_buffers {capacity : Nat} (h : 0 < capacity) (stream : List UInt8) :
    (buffers capacity stream).flatten = stream := by
  apply flatten_firstBuffers
  rw [Nat.max_eq_right h]
  exact Nat.le_of_lt (Nat.lt_mul_div_succ stream.length h)

end Accession.Batch
