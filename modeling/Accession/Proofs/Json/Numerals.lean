import Accession.Json.Numeral
import Accession.Json.Number
import Accession.Proofs.Json.Literals
import Accession.Proofs.Text.Integer
set_option autoImplicit false

namespace Accession.Json.Numeral

open Binary64 (Magnitude)

/-- What may follow a value within a list or an object, or the end of the text. -/
def Marked : List UInt8 → Prop
  | [] => True
  | b :: _ => b = 0x2C ∨ b = 0x5D ∨ b = 0x7D

def Digits (ds : List UInt8) : Prop := ∀ b ∈ ds, isDigit b = true

inductive Exponent : List UInt8 → Prop where
  | none : Exponent []
  | some {sign : UInt8} {ds : List UInt8} (hsign : sign = 0x2B ∨ sign = 0x2D) (hds : Digits ds) :
      Exponent (0x65 :: sign :: ds)

inductive Fraction : List UInt8 → Prop where
  | none {e : List UInt8} (he : Exponent e) : Fraction e
  | some {ds e : List UInt8} (hds : Digits ds) (he : Exponent e) : Fraction (0x2E :: (ds ++ e))

inductive Unsigned : List UInt8 → Prop where
  | intro {d : UInt8} {ds f : List UInt8} (hd : isDigit d = true) (hds : Digits ds)
      (hf : Fraction f) : Unsigned (d :: (ds ++ f))

section Runs

variable {ds s : List UInt8}

theorem run_digits (hds : Digits ds) (hs : startsWithDigit s = false) (count : Nat) :
    (run count (ds ++ s)).2 = s := by
  induction ds generalizing count with
  | nil =>
    cases s with
    | nil => rfl
    | cons b s =>
      rw [List.nil_append, run, if_neg (by rw [show isDigit b = false from hs]; simp)]
  | cons b ds ih =>
    obtain ⟨hb, hds⟩ := List.forall_mem_cons.1 hds
    rw [List.cons_append, run, if_pos hb]
    exact ih hds (count + 1)

theorem fitting_digits (hds : Digits ds) (hs : startsWithDigit s = false) (n count : Nat) :
    ∃ n' count' ds', fitting n count (ds ++ s) = (n', count', ds' ++ s) ∧ Digits ds' := by
  induction ds generalizing n count with
  | nil =>
    refine ⟨n, count, [], ?_, hds⟩
    cases s with
    | nil => rfl
    | cons b s =>
      rw [List.nil_append, fitting, if_neg (by rw [show isDigit b = false from hs]; simp)]
  | cons b ds ih =>
    rw [List.cons_append, fitting]
    split
    · exact ih (List.forall_mem_cons.1 hds).2 _ _
    · exact ⟨n, count, b :: ds, rfl, hds⟩

theorem startsWithDigit_append {ds' : List UInt8} (hds' : Digits ds')
    (h : ¬startsWithDigit (ds' ++ s) = true) : ds' = [] := by
  cases ds' with
  | nil => rfl
  | cons b ds' => exact absurd (hds' b List.mem_cons_self) h

theorem exponentDigits_rest (hds : Digits ds) (hs : startsWithDigit s = false) {e : Nat}
    {s' : List UInt8} :
    (∀ e', exponentDigits e (ds ++ s) = .ok (e', s') → s' = s) ∧
      (exponentDigits e (ds ++ s) = .error s' → (run 0 s').2 = s) := by
  induction ds generalizing e with
  | nil =>
    have hread : exponentDigits e s = .ok (e, s) := by
      cases s with
      | nil => rfl
      | cons b s => rw [exponentDigits, if_pos (by rw [show isDigit b = false from hs]; rfl)]
    rw [List.nil_append, hread]
    refine ⟨?_, nofun⟩
    intro e' h
    cases h
    rfl
  | cons b ds ih =>
    obtain ⟨hb, hds⟩ := List.forall_mem_cons.1 hds
    rw [List.cons_append, exponentDigits, if_neg (by rw [hb]; simp)]
    split
    · refine ⟨nofun, ?_⟩
      intro h
      cases h
      exact run_digits hds hs 0
    · exact ih hds

end Runs

section Rest

variable {digits : Nat} {shift : Int} {negative : Bool} {m : Magnitude} {n : Number}
  {e f s s' : List UInt8} (hs : Marked s)

theorem finish_rest (h : finish digits shift s = .ok (m, s')) : s' = s := by
  unfold finish at h
  split at h
  · cases h
    rfl
  · cases h

theorem float_ok {r : Except Fault (Magnitude × List UInt8)}
    (h : float negative r = .ok (n, s')) : ∃ m, r = .ok (m, s') := by
  cases r with
  | error e => cases h
  | ok p =>
    cases h
    exact ⟨_, rfl⟩

theorem integer_rest {k : Nat} (h : integer negative k s = .ok (n, s')) : s' = s := by
  unfold integer at h
  split at h
  · cases h
    rfl
  · split at h
    · cases h
      rfl
    · obtain ⟨m, h⟩ := float_ok h
      exact finish_rest h

include hs

theorem marked_startsWithDigit : startsWithDigit s = false := by
  cases s with
  | nil => rfl
  | cons b s => obtain rfl | rfl | rfl := hs <;> rfl

theorem exponent_startsWithDigit (he : Exponent e) : startsWithDigit (e ++ s) = false := by
  cases he with
  | none => exact marked_startsWithDigit hs
  | some => rfl

theorem exponent_rest {sign : UInt8} {ds : List UInt8} (hsign : sign = 0x2B ∨ sign = 0x2D)
    (hds : Digits ds) (h : exponent digits shift (sign :: (ds ++ s)) = .ok (m, s')) : s' = s := by
  have hdigit := marked_startsWithDigit hs
  have hrest : (exponentSign (sign :: (ds ++ s))).2 = ds ++ s := by
    obtain rfl | rfl := hsign <;> rfl
  unfold exponent at h
  dsimp only at h
  rw [hrest] at h
  cases ds with
  | nil =>
    cases s with
    | nil => cases h
    | cons b s =>
      dsimp only [List.nil_append] at h
      rw [if_pos (by rw [show isDigit b = false from hdigit]; rfl)] at h
      cases h
  | cons b ds =>
    obtain ⟨hb, hds⟩ := List.forall_mem_cons.1 hds
    dsimp only [List.cons_append] at h
    rw [if_neg (by rw [hb]; simp)] at h
    split at h
    · rename_i hread
      obtain rfl := (exponentDigits_rest hds hdigit).1 _ hread
      exact finish_rest h
    · rename_i hread
      split at h
      · cases h
      · cases h
        exact (exponentDigits_rest hds hdigit).2 hread

theorem exponentOrEnd_rest (he : Exponent e)
    (h : exponentOrEnd digits shift (e ++ s) = .ok (m, s')) : s' = s := by
  cases he with
  | none =>
    cases s with
    | nil => exact finish_rest h
    | cons b s =>
      rw [List.nil_append, exponentOrEnd] at h
      rw [if_neg (by obtain rfl | rfl | rfl := hs <;> decide)] at h
      exact finish_rest h
  | some hsign hds => exact exponent_rest hs hsign hds h

theorem fraction_rest {ds : List UInt8} (hds : Digits ds) (he : Exponent e)
    (h : fraction digits shift (ds ++ (e ++ s)) = .ok (m, s')) : s' = s := by
  have hdigit := exponent_startsWithDigit hs he
  obtain ⟨digits', count, ds', hfitting, hds'⟩ := fitting_digits hds hdigit digits 0
  unfold fraction at h
  rw [hfitting] at h
  dsimp only at h
  split at h
  · rw [run_digits hds' hdigit] at h
    exact exponentOrEnd_rest hs he h
  · rename_i hnone
    obtain rfl := startsWithDigit_append hds' hnone
    split at h
    · split at h <;> cases h
    · exact exponentOrEnd_rest hs he h

theorem fractionOrEnd_rest (hf : Fraction f)
    (h : fractionOrEnd digits shift (f ++ s) = .ok (m, s')) : s' = s := by
  cases hf with
  | none he =>
    cases he with
    | none =>
      cases s with
      | nil => exact finish_rest h
      | cons b s =>
        rw [List.nil_append, fractionOrEnd, if_neg (by obtain rfl | rfl | rfl := hs <;> decide),
          if_neg (by obtain rfl | rfl | rfl := hs <;> decide)] at h
        exact finish_rest h
    | some hsign hds => exact exponent_rest hs hsign hds h
  | some hds he =>
    rw [List.cons_append, List.append_assoc] at h
    exact fraction_rest hs hds he h

theorem afterInteger_rest {k : Nat} (hf : Fraction f)
    (h : afterInteger negative k (f ++ s) = .ok (n, s')) : s' = s := by
  cases hf with
  | none he =>
    cases he with
    | none =>
      cases s with
      | nil => exact integer_rest h
      | cons b s =>
        rw [List.nil_append, afterInteger, if_neg (by obtain rfl | rfl | rfl := hs <;> decide),
          if_neg (by obtain rfl | rfl | rfl := hs <;> decide)] at h
        exact integer_rest h
    | some hsign hds =>
      obtain ⟨m, h⟩ := float_ok h
      exact exponent_rest hs hsign hds h
  | some hds he =>
    rw [List.cons_append, List.append_assoc] at h
    obtain ⟨m, h⟩ := float_ok h
    exact fraction_rest hs hds he h

theorem fraction_startsWithDigit (hf : Fraction f) : startsWithDigit (f ++ s) = false := by
  cases hf with
  | none he => exact exponent_startsWithDigit hs he
  | some => rfl

/-- A numeral that is accepted is read to its end. -/
theorem read_rest {u : List UInt8} (hu : Unsigned u)
    (h : Numeral.read negative (u ++ s) = .ok (n, s')) : s' = s := by
  obtain ⟨hd, hds, hf⟩ := hu
  rename_i d ds f
  have hdigit := fraction_startsWithDigit hs hf
  rw [List.cons_append, List.append_assoc, Numeral.read] at h
  split at h
  · split at h
    · cases h
    · rename_i hnone
      obtain rfl := startsWithDigit_append hds hnone
      exact afterInteger_rest hs hf h
  · rw [if_neg (by rw [hd]; simp)] at h
    obtain ⟨k, count, ds', hfitting, hds'⟩ := fitting_digits hds hdigit (digit d) 1
    rw [hfitting] at h
    dsimp only at h
    split at h
    · rw [run_digits hds' hdigit] at h
      obtain ⟨m, h⟩ := float_ok h
      exact fractionOrEnd_rest hs hf h
    · rename_i hnone
      obtain rfl := startsWithDigit_append hds' hnone
      exact afterInteger_rest hs hf h

end Rest

section Layout

open Text.Utf8 (encodeChar toNat_ofNat)

theorem isDigit_ofNat {c : Char} (h : Text.Integer.isDigit c = true) :
    isDigit (UInt8.ofNat c.toNat) = true ∧ encodeChar c = [UInt8.ofNat c.toNat] := by
  simp only [Text.Integer.isDigit, Bool.and_eq_true, decide_eq_true_eq, Char.le_def,
    UInt32.le_iff_toNat_le] at h
  have hlow : 0x30 ≤ c.toNat := h.1
  have hhigh : c.toNat ≤ 0x39 := h.2
  refine ⟨?_, Literal.encodeChar_ascii (by omega)⟩
  simp only [isDigit, Bool.and_eq_true, decide_eq_true_eq, UInt8.le_iff_toNat_le,
    toNat_ofNat (show c.toNat < 256 by omega), UInt8.reduceToNat]
  omega

theorem digits_flatMap {cs : List Char} (h : ∀ c ∈ cs, Text.Integer.isDigit c = true) :
    Digits (cs.flatMap encodeChar) := by
  intro b hb
  obtain ⟨c, hc, hb⟩ := List.mem_flatMap.1 hb
  obtain ⟨hdigit, hchar⟩ := isDigit_ofNat (h c hc)
  rw [hchar, List.mem_singleton] at hb
  exact hb ▸ hdigit

theorem unsigned_flatMap {c : Char} (cs : List Char) {fs : List Char}
    (hc : Text.Integer.isDigit c = true) (hcs : ∀ c ∈ cs, Text.Integer.isDigit c = true) 
    (hfs : Fraction (fs.flatMap encodeChar)) : Unsigned ((c :: (cs ++ fs)).flatMap encodeChar) := by
  obtain ⟨hdigit, hchar⟩ := isDigit_ofNat hc
  rw [List.flatMap_cons, hchar, List.flatMap_append]
  have h : Unsigned (UInt8.ofNat c.toNat :: (cs.flatMap encodeChar ++ fs.flatMap encodeChar)) :=
    .intro hdigit (digits_flatMap hcs) hfs
  exact h

theorem fraction_point (cs es : List Char) (hcs : ∀ c ∈ cs, Text.Integer.isDigit c = true)
    (hes : Exponent (es.flatMap encodeChar)) :
    Fraction (('.' :: (cs ++ es)).flatMap encodeChar) := by
  rw [List.flatMap_cons, List.flatMap_append]
  have h : Fraction (0x2E :: (cs.flatMap encodeChar ++ es.flatMap encodeChar)) :=
    .some (digits_flatMap hcs) hes
  exact h

theorem exponent_letter (negative : Bool) (n : Nat) :
    Exponent (('e' :: (if negative then '-' else '+') :: Nat.toDigits 10 n).flatMap encodeChar) := by
  rw [List.flatMap_cons, List.flatMap_cons]
  have hdigits : Digits ((Nat.toDigits 10 n).flatMap encodeChar) :=
    digits_flatMap (fun _ => Text.Integer.isDigit_of_mem_toDigits)
  cases negative
  · exact .some (.inl rfl) hdigits
  · exact .some (.inr rfl) hdigits

theorem unsigned_layout {c : Char} {cs : List Char} (hc : Text.Integer.isDigit c = true)
    (hcs : ∀ c ∈ cs, Text.Integer.isDigit c = true) (point : Int) :
    Unsigned ((layout (c :: cs) point).flatMap encodeChar) := by
  have hzeros : ∀ k, ∀ c ∈ List.replicate k '0', Text.Integer.isDigit c = true := by
    intro k c hc
    rw [List.eq_of_mem_replicate hc]
    rfl
  unfold layout
  dsimp only
  split
  · rename_i hpoint
    have hwhole : ∃ k, point.toNat = k + 1 := by
      simp only [Bool.and_eq_true, decide_eq_true_eq] at hpoint
      exact ⟨point.toNat - 1, by omega⟩
    obtain ⟨k, hk⟩ := hwhole
    split
    · rw [List.append_assoc, List.cons_append, ← List.append_assoc]
      refine unsigned_flatMap _ hc ?_ (fraction_point ['0'] [] ?_ .none)
      · intro a ha
        obtain ha | ha := List.mem_append.1 ha
        · exact hcs a ha
        · exact hzeros _ a ha
      · exact hzeros 1
    · rw [hk, List.take_succ_cons, List.drop_succ_cons, List.cons_append]
      have hfraction := fraction_point (cs.drop k) []
        (fun a ha => hcs a (List.mem_of_mem_drop ha)) .none
      rw [List.append_nil] at hfraction
      exact unsigned_flatMap _ hc (fun a ha => hcs a (List.mem_of_mem_take ha)) hfraction
  · split
    · refine unsigned_flatMap [] rfl nofun ?_
      have hfraction := fraction_point (List.replicate (-point).toNat '0' ++ c :: cs) []
        ?_ .none
      · rw [List.append_nil] at hfraction
        exact hfraction
      · intro a ha
        obtain ha | ha := List.mem_append.1 ha
        · exact hzeros _ a ha
        · obtain rfl | ha := List.mem_cons.1 ha
          · exact hc
          · exact hcs a ha
    · have hexponent := exponent_letter (decide (point - 1 < 0)) (point - 1).natAbs
      simp only [decide_eq_true_eq] at hexponent
      cases cs with
      | nil => exact unsigned_flatMap [] hc nofun (.none hexponent)
      | cons c' cs => exact unsigned_flatMap [] hc nofun (fraction_point _ _ hcs hexponent)

theorem unsigned_toDigits (n : Nat) : Unsigned ((Nat.toDigits 10 n).flatMap encodeChar) := by
  have hdigits : ∀ c ∈ Nat.toDigits 10 n, Text.Integer.isDigit c = true :=
    fun _ => Text.Integer.isDigit_of_mem_toDigits
  cases hn : Nat.toDigits 10 n with
  | nil => exact absurd hn Nat.toDigits_ne_nil
  | cons c cs =>
    rw [hn] at hdigits
    obtain ⟨hc, hcs⟩ := List.forall_mem_cons.1 hdigits
    have h := unsigned_flatMap cs (show Text.Integer.isDigit c = true from hc) hcs
      (show Fraction (([] : List Char).flatMap encodeChar) from .none .none)
    rw [List.append_nil] at h
    exact h

theorem minus_flatMap (cs : List Char) :
    ('-' :: cs).flatMap encodeChar = 0x2D :: cs.flatMap encodeChar := by
  rw [List.flatMap_cons]
  rfl

theorem unsigned_float (m : Magnitude) :
    Unsigned ((Number.float false m).render.flatMap encodeChar) := by
  change Unsigned ((if m.isZero then ['0', '.', '0'] else _).flatMap encodeChar)
  split
  · have hzero : ∀ c ∈ ['0'], Text.Integer.isDigit c = true := by
      intro c hc
      rw [List.mem_singleton.1 hc]
      rfl
    exact unsigned_flatMap [] rfl (fun _ hc => absurd hc List.not_mem_nil)
      (fraction_point ['0'] [] hzero .none)
  · have hdigits : ∀ c ∈ Nat.toDigits 10 m.shortest.digits, Text.Integer.isDigit c = true :=
      fun _ => Text.Integer.isDigit_of_mem_toDigits
    cases hn : Nat.toDigits 10 m.shortest.digits with
    | nil => exact absurd hn Nat.toDigits_ne_nil
    | cons c cs =>
      rw [hn] at hdigits
      obtain ⟨hc, hcs⟩ := List.forall_mem_cons.1 hdigits
      exact unsigned_layout hc hcs _

theorem number_unsigned (n : Number) :
    ∃ u, Unsigned u ∧
      (n.render.flatMap encodeChar = u ∨ n.render.flatMap encodeChar = 0x2D :: u) := by
  cases n with
  | int n =>
    cases n with
    | ofNat k =>
      refine ⟨_, unsigned_toDigits k, .inl ?_⟩
      rw [Number.render, Text.Integer.write, String.toList_ofList]
    | negSucc k =>
      refine ⟨_, unsigned_toDigits (k + 1), .inr ?_⟩
      rw [Number.render, Text.Integer.write, String.toList_ofList, minus_flatMap]
  | float negative m =>
    cases negative with
    | false => exact ⟨_, unsigned_float m, .inl rfl⟩
    | true => exact ⟨_, unsigned_float m, .inr (minus_flatMap _)⟩

end Layout

end Accession.Json.Numeral
