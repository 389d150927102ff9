import Accession.Text.Blank
import Accession.Text.Integer
set_option autoImplicit false

namespace Accession.Text.Integer

theorem toNat_of_isDigit {c : Char} (h : isDigit c = true) : 48 ≤ c.toNat ∧ c.toNat ≤ 57 := by
  simp only [isDigit, Bool.and_eq_true, decide_eq_true_eq, Char.le_def,
    UInt32.le_iff_toNat_le] at h
  exact h

theorem isDigit_of_mem_toDigits {n : Nat} {c : Char} (h : c ∈ Nat.toDigits 10 n) :
    isDigit c = true := by
  have hc := Nat.isDigit_of_mem_toDigits (by decide) (by decide) h
  simpa [Char.isDigit, isDigit, Char.le_def] using hc

theorem value_eq_ofDigitChars (cs : List Char) : value cs = Nat.ofDigitChars 10 cs 0 := by
  simp only [value, digit, Nat.ofDigitChars, Nat.mul_comm 10]

theorem digits?_toDigits (n : Nat) : digits? (Nat.toDigits 10 n) = some n := by
  have hall : (Nat.toDigits 10 n).all isDigit = true :=
    List.all_eq_true.2 (fun _ hc => isDigit_of_mem_toDigits hc)
  rw [digits?, hall, value_eq_ofDigitChars, Nat.ofDigitChars_ten_toDigits]
  simp

theorem head_toDigits {n : Nat} (h : 0 < n) : (Nat.toDigits 10 n).head? ≠ some '0' := by
  induction n using Nat.strongRecOn with
  | ind n ih =>
    by_cases hlt : n < 10
    · rw [Nat.toDigits_of_lt_base hlt]
      have hall : ∀ k, k < 10 → 0 < k → [Nat.digitChar k].head? ≠ some '0' := by decide
      exact hall n hlt h
    · have hrest := ih (n / 10) (by omega) (by omega)
      rw [Nat.toDigits_of_base_le (by decide) (by omega)]
      cases hdigits : Nat.toDigits 10 (n / 10) with
      | nil => exact absurd hdigits Nat.toDigits_ne_nil
      | cons c cs =>
        rw [hdigits] at hrest
        exact hrest

theorem read?_digits {s : String} (h : ∀ c ∈ s.toList, isDigit c = true) :
    read? s = (digits? s.toList).map Int.ofNat := by
  rw [read?]
  split
  · rename_i cs hs
    exact absurd (h '-' (hs ▸ List.mem_cons_self)) (by decide)
  · rename_i cs hs
    exact absurd (h '+' (hs ▸ List.mem_cons_self)) (by decide)
  · cases digits? s.toList <;> rfl

theorem read?_write (n : Int) : read? (write n) = some n := by
  cases n with
  | ofNat m =>
    have hlist : (write (.ofNat m)).toList = Nat.toDigits 10 m := String.toList_ofList
    have hdigits : ∀ c ∈ (write (.ofNat m)).toList, isDigit c = true := by
      rw [hlist]
      exact fun c => isDigit_of_mem_toDigits
    rw [read?_digits hdigits, hlist, digits?_toDigits]
    rfl
  | negSucc m =>
    rw [write, read?, String.toList_ofList]
    simp [digits?_toDigits, Int.negSucc_eq]

theorem slash_not_mem_write (n : Int) : '/' ∉ (write n).toList := by
  intro h
  cases n with
  | ofNat m =>
    rw [write, String.toList_ofList] at h
    exact absurd (isDigit_of_mem_toDigits h) (by decide)
  | negSucc m =>
    rw [write, String.toList_ofList, List.mem_cons] at h
    exact absurd (isDigit_of_mem_toDigits (h.resolve_left (by decide))) (by decide)

theorem isBlank_of_isDigit {c : Char} (h : isDigit c = true) : isBlank c = false := by
  have hc := toNat_of_isDigit h
  simp only [isBlank, Bool.or_eq_false_iff, Bool.and_eq_false_iff, decide_eq_false_iff_not,
    beq_eq_false_iff_ne]
  omega

theorem write_inked (n : Int) : ∃ c ∈ (write n).toList, isBlank c = false := by
  cases n with
  | ofNat m =>
    obtain ⟨c, hc⟩ := List.exists_mem_of_ne_nil _ (Nat.toDigits_ne_nil : Nat.toDigits 10 m ≠ [])
    rw [write, String.toList_ofList]
    exact ⟨c, hc, isBlank_of_isDigit (isDigit_of_mem_toDigits hc)⟩
  | negSucc m =>
    rw [write, String.toList_ofList]
    exact ⟨'-', List.mem_cons_self, by decide⟩

section Positive

theorem digitChar_digit {c : Char} (h : isDigit c = true) : Nat.digitChar (digit c) = c := by
  have hc := toNat_of_isDigit h
  apply Char.toNat_inj.1
  rw [Nat.toNat_digitChar_of_lt_ten (by change c.toNat - 48 < 10; omega)]
  change 48 + (c.toNat - 48) = c.toNat
  omega

theorem toDigits_append {n : Nat} (h : 0 < n) {cs : List Char} (hcs : ∀ c ∈ cs, isDigit c = true) :
    Nat.toDigits 10 n ++ cs = Nat.toDigits 10 (cs.foldl (fun n c => n * 10 + digit c) n) := by
  induction cs generalizing n with
  | nil => exact List.append_nil _
  | cons c cs ih =>
    obtain ⟨hc, hcs⟩ := List.forall_mem_cons.1 hcs
    have hdigit : digit c < 10 := by
      have := toNat_of_isDigit hc
      change c.toNat - 48 < 10
      omega
    have hgrown : Nat.toDigits 10 n ++ [c] = Nat.toDigits 10 (n * 10 + digit c) := by
      have happend := Nat.toDigits_append_toDigits (b := 10) (by decide) h hdigit
      rw [Nat.toDigits_of_lt_base hdigit, digitChar_digit hc, Nat.mul_comm] at happend
      exact happend
    rw [List.foldl_cons, ← ih (by omega) hcs, ← hgrown, List.append_assoc, List.singleton_append]

theorem eq_zeros_toDigits {cs : List Char} (hcs : ∀ c ∈ cs, isDigit c = true)
    (h : 0 < value cs) :
    ∃ zeros, cs = List.replicate zeros '0' ++ Nat.toDigits 10 (value cs) := by
  induction cs with
  | nil => cases h
  | cons c cs ih =>
    obtain ⟨hc, hrest⟩ := List.forall_mem_cons.1 hcs
    by_cases hzero : c = '0'
    · subst hzero
      obtain ⟨zeros, hdigits⟩ := ih hrest h
      refine ⟨zeros + 1, ?_⟩
      rw [List.replicate_succ, List.cons_append]
      exact congrArg ('0' :: ·) hdigits
    · have hdigit : 0 < digit c ∧ digit c < 10 := by
        have := toNat_of_isDigit hc
        have hne : c.toNat ≠ 48 := fun he => hzero (Char.toNat_inj.1 he)
        change 0 < c.toNat - 48 ∧ c.toNat - 48 < 10
        omega
      refine ⟨0, ?_⟩
      have happend := toDigits_append hdigit.1 hrest
      rw [Nat.toDigits_of_lt_base hdigit.2, digitChar_digit hc] at happend
      simpa [value] using happend

theorem digits?_eq_some_iff {cs : List Char} {n : Nat} :
    digits? cs = some n ↔ cs ≠ [] ∧ (∀ c ∈ cs, isDigit c = true) ∧ value cs = n := by
  simp [digits?, and_assoc]

theorem value_zeros (zeros : Nat) (cs : List Char) :
    value (List.replicate zeros '0' ++ cs) = value cs := by
  induction zeros with
  | zero => rfl
  | succ zeros ih => exact ih

theorem digits?_eq_some_iff_zeros {n : Nat} (h : 0 < n) {cs : List Char} :
    digits? cs = some n ↔ ∃ zeros, cs = List.replicate zeros '0' ++ Nat.toDigits 10 n := by
  rw [digits?_eq_some_iff]
  constructor
  · rintro ⟨-, hcs, rfl⟩
    exact eq_zeros_toDigits hcs h
  · rintro ⟨zeros, rfl⟩
    refine ⟨by simp [Nat.toDigits_ne_nil], ?_, ?_⟩
    · intro c hc
      obtain hzero | hdigit := List.mem_append.1 hc
      · rw [List.eq_of_mem_replicate hzero]
        rfl
      · exact isDigit_of_mem_toDigits hdigit
    · rw [value_zeros, value_eq_ofDigitChars, Nat.ofDigitChars_ten_toDigits]

theorem read?_plus {s : String} {cs : List Char} (hs : s.toList = '+' :: cs) :
    read? s = (digits? cs).map Int.ofNat := by
  rw [read?]
  split
  · rename_i hminus
    exact absurd (List.cons.inj (hs.symm.trans hminus)).1 (by decide)
  · rename_i cs' hplus
    obtain rfl : cs = cs' := (List.cons.inj (hs.symm.trans hplus)).2
    cases digits? cs <;> rfl
  · rename_i hplus
    exact absurd hs (hplus cs)

theorem read?_cases {s : String} {n : Int} (h : read? s = some n) :
    n ≤ 0 ∨ ∃ sign cs m, (sign = [] ∨ sign = ['+']) ∧ s.toList = sign ++ cs ∧
      digits? cs = some m ∧ n = Int.ofNat m := by
  rw [read?] at h
  split at h
  · rename_i cs hs
    cases hdigits : digits? cs with
    | none =>
      rw [hdigits] at h
      cases h
    | some m =>
      rw [hdigits] at h
      obtain rfl : -(m : Int) = n := Option.some.inj h
      exact .inl (by omega)
  · rename_i cs hs
    cases hdigits : digits? cs with
    | none =>
      rw [hdigits] at h
      cases h
    | some m =>
      rw [hdigits] at h
      exact .inr ⟨['+'], cs, m, .inr rfl, hs, hdigits, (Option.some.inj h).symm⟩
  · cases hdigits : digits? s.toList with
    | none =>
      rw [hdigits] at h
      cases h
    | some m =>
      rw [hdigits] at h
      exact .inr ⟨[], s.toList, m, .inl rfl, rfl, hdigits, (Option.some.inj h).symm⟩

/-- A number as it is written, but that a plus sign and zeros may stand in front. -/
def Decorated (n : Int) (part : List Char) : Prop :=
  ∃ sign zeros, (sign = [] ∨ sign = ['+']) ∧
    part = sign ++ (List.replicate zeros '0' ++ (write n).toList)

theorem read?_eq_some_iff {n : Int} (h : 0 < n) {s : String} :
    read? s = some n ↔ Decorated n s.toList := by
  obtain ⟨m, rfl⟩ := Int.eq_ofNat_of_zero_le (Int.le_of_lt h)
  have hm : 0 < m := Int.natCast_pos.1 h
  have hwrite : (write (m : Int)).toList = Nat.toDigits 10 m := String.toList_ofList
  rw [Decorated, hwrite]
  constructor
  · intro hread
    obtain hle | ⟨sign, cs, k, hsign, hs, hdigits, hk⟩ := read?_cases hread
    · omega
    · obtain rfl : m = k := Int.ofNat_inj.1 hk
      obtain ⟨zeros, rfl⟩ := (digits?_eq_some_iff_zeros hm).1 hdigits
      exact ⟨sign, zeros, hsign, hs⟩
  · rintro ⟨sign, zeros, rfl | rfl, hs⟩
    · have hdigits := (digits?_eq_some_iff_zeros hm).2 ⟨zeros, hs⟩
      rw [read?_digits (digits?_eq_some_iff.1 hdigits).2.1, hdigits]
      rfl
    · have hplus : s.toList = '+' :: (List.replicate zeros '0' ++ Nat.toDigits 10 m) := hs
      rw [read?_plus hplus, (digits?_eq_some_iff_zeros hm).2 ⟨zeros, rfl⟩]
      rfl

/-- Neither a plus sign nor a zero stands in front. -/
def Bare (part : List Char) : Prop :=
  part.head? ≠ some '+' ∧ part.head? ≠ some '0'

instance (part : List Char) : Decidable (Bare part) :=
  inferInstanceAs (Decidable (_ ∧ _))

theorem Decorated.eq_write_iff {n : Int} (h : 0 < n) {part : List Char} (hpart : Decorated n part) :
    part = (write n).toList ↔ Bare part := by
  obtain ⟨m, rfl⟩ := Int.eq_ofNat_of_zero_le (Int.le_of_lt h)
  have hm : 0 < m := Int.natCast_pos.1 h
  have hwrite : (write (m : Int)).toList = Nat.toDigits 10 m := String.toList_ofList
  have hplus : (Nat.toDigits 10 m).head? ≠ some '+' := fun hhead =>
    absurd (isDigit_of_mem_toDigits (List.mem_of_head? hhead)) (by decide)
  obtain ⟨sign, zeros, hsign, rfl⟩ := hpart
  rw [hwrite]
  constructor
  · intro heq
    rw [heq]
    exact ⟨hplus, head_toDigits hm⟩
  · rintro ⟨hnoplus, hnozero⟩
    obtain rfl | rfl := hsign
    · cases zeros with
      | zero => rfl
      | succ zeros => exact absurd rfl hnozero
    · exact absurd rfl hnoplus

theorem Decorated.slash_not_mem {n : Int} {part : List Char} (hpart : Decorated n part) :
    '/' ∉ part := by
  obtain ⟨sign, zeros, hsign, rfl⟩ := hpart
  intro h
  obtain hslash | h := List.mem_append.1 h
  · obtain rfl | rfl := hsign
    · cases hslash
    · exact absurd hslash (by decide)
  · obtain hslash | h := List.mem_append.1 h
    · exact absurd (List.eq_of_mem_replicate hslash) (by decide)
    · exact slash_not_mem_write n h

end Positive

end Accession.Text.Integer
