import Accession.Proofs.Binary64.Digits
import Accession.Proofs.Json.ReadBack
import Mathlib.Data.Nat.Digits.Defs
set_option autoImplicit false

namespace Accession.Json

open Binary64 (Decimal Magnitude)
open Numeral (Marked Digits)
open Text.Utf8 (encodeChar)

namespace Numeral

def accumulate (n : Nat) (b : UInt8) : Nat := n * 10 + digit b

section Runs

theorem le_foldl_accumulate (n : Nat) (ds : List UInt8) : n ≤ ds.foldl accumulate n := by
  induction ds generalizing n with
  | nil => exact Nat.le_refl n
  | cons b ds ih =>
    have hb : n ≤ accumulate n b := by
      rw [accumulate]
      omega
    exact Nat.le_trans hb (ih _)

theorem fitting_all {ds s : List UInt8} (hds : Digits ds) (hs : startsWithDigit s = false)
    {n : Nat} (count : Nat) (hle : ds.foldl accumulate n ≤ Text.Integer.maxUnsigned64) :
    fitting n count (ds ++ s) = (ds.foldl accumulate n, count + ds.length, s) := by
  induction ds generalizing n count with
  | nil =>
    cases s with
    | nil => rfl
    | cons b s =>
      rw [List.nil_append, fitting, if_neg (by rw [show isDigit b = false from hs]; simp)]
      rfl
  | cons b ds ih =>
    obtain ⟨hb, hds⟩ := List.forall_mem_cons.1 hds
    have hfit : n * 10 + digit b ≤ Text.Integer.maxUnsigned64 :=
      Nat.le_trans (le_foldl_accumulate (accumulate n b) ds) hle
    rw [List.cons_append, fitting, if_pos (by simp [hb, hfit]), ← accumulate, ih hds _ hle,
      List.length_cons, List.foldl_cons, Nat.add_right_comm, Nat.add_assoc]

theorem exponentDigits_all {ds s : List UInt8} (hds : Digits ds) (hs : startsWithDigit s = false)
    {e : Nat} (hle : ds.foldl accumulate e ≤ maxExponent) :
    exponentDigits e (ds ++ s) = .ok (ds.foldl accumulate e, s) := by
  induction ds generalizing e with
  | nil =>
    cases s with
    | nil => rfl
    | cons b s =>
      rw [List.nil_append, exponentDigits, if_pos (by rw [show isDigit b = false from hs]; rfl)]
      rfl
  | cons b ds ih =>
    obtain ⟨hb, hds⟩ := List.forall_mem_cons.1 hds
    have hfit : e * 10 + digit b ≤ maxExponent :=
      Nat.le_trans (le_foldl_accumulate (accumulate e b) ds) hle
    rw [List.cons_append, exponentDigits, if_neg (by rw [hb]; simp), if_neg (Nat.not_lt.2 hfit),
      ← accumulate, ih hds hle, List.foldl_cons]

end Runs

section Characters

def grow (n : Nat) (c : Char) : Nat := n * 10 + Text.Integer.digit c

theorem foldl_flatMap {cs : List Char} (h : ∀ c ∈ cs, Text.Integer.isDigit c = true) (n : Nat) :
    (cs.flatMap encodeChar).foldl accumulate n = cs.foldl grow n ∧
      (cs.flatMap encodeChar).length = cs.length := by
  induction cs generalizing n with
  | nil => exact ⟨rfl, rfl⟩
  | cons c cs ih =>
    obtain ⟨hc, hcs⟩ := List.forall_mem_cons.1 h
    obtain ⟨-, hchar⟩ := isDigit_ofNat hc
    have hlt : c.toNat < 256 := Nat.lt_of_le_of_lt (Text.Integer.toNat_of_isDigit hc).2 (by decide)
    have hdigit : digit (UInt8.ofNat c.toNat) = Text.Integer.digit c := by
      rw [digit, Text.Integer.digit, Text.Utf8.toNat_ofNat hlt]
      rfl
    rw [List.flatMap_cons, hchar, List.singleton_append, List.foldl_cons, List.foldl_cons,
      (ih hcs _).1, accumulate, hdigit, List.length_cons, List.length_cons, (ih hcs n).2]
    exact ⟨rfl, rfl⟩

theorem foldl_grow_toDigits (n : Nat) : (Nat.toDigits 10 n).foldl grow 0 = n := by
  change Text.Integer.value (Nat.toDigits 10 n) = n
  rw [Text.Integer.value_eq_ofDigitChars, Nat.ofDigitChars_ten_toDigits]

theorem foldl_grow_zeros (n k : Nat) : (List.replicate k '0').foldl grow n = n * 10 ^ k := by
  induction k generalizing n with
  | zero => rw [Nat.pow_zero, Nat.mul_one]; rfl
  | succ k ih =>
    rw [List.replicate_succ, List.foldl_cons, ih, show grow n '0' = n * 10 from rfl, Nat.pow_succ',
      Nat.mul_assoc]

theorem le_foldl_grow (n : Nat) (cs : List Char) : n ≤ cs.foldl grow n := by
  induction cs generalizing n with
  | nil => exact Nat.le_refl n
  | cons c cs ih =>
    have hc : n ≤ grow n c := by
      rw [grow]
      omega
    exact Nat.le_trans hc (ih _)

theorem foldl_grow_lt {cs : List Char} (h : ∀ c ∈ cs, Text.Integer.isDigit c = true) (n : Nat) :
    cs.foldl grow n < (n + 1) * 10 ^ cs.length := by
  induction cs generalizing n with
  | nil => simp
  | cons c cs ih =>
    obtain ⟨hc, hcs⟩ := List.forall_mem_cons.1 h
    have hdigit : Text.Integer.digit c < 10 := by
      have hlt := (Text.Integer.toNat_of_isDigit hc).2
      change c.toNat - 0x30 < 10
      omega
    rw [List.foldl_cons, List.length_cons, Nat.pow_succ', ← Nat.mul_assoc]
    refine Nat.lt_of_lt_of_le (ih hcs _) (Nat.mul_le_mul_right _ ?_)
    rw [grow]
    omega

theorem lt_pow_length_toDigits (n : Nat) : n < 10 ^ (Nat.toDigits 10 n).length := by
  have hall : ∀ c ∈ Nat.toDigits 10 n, Text.Integer.isDigit c = true :=
    fun _ => Text.Integer.isDigit_of_mem_toDigits
  have h := foldl_grow_lt hall 0
  rw [foldl_grow_toDigits, Nat.zero_add, Nat.one_mul] at h
  exact h

theorem toDigits_cons {n : Nat} (h : 0 < n) :
    ∃ c cs, Nat.toDigits 10 n = c :: cs ∧ c ≠ '0' ∧ Text.Integer.isDigit c = true ∧
      ∀ d ∈ cs, Text.Integer.isDigit d = true := by
  have hall : ∀ c ∈ Nat.toDigits 10 n, Text.Integer.isDigit c = true :=
    fun _ => Text.Integer.isDigit_of_mem_toDigits
  have hhead := Text.Integer.head_toDigits h
  cases hdigits : Nat.toDigits 10 n with
  | nil => exact absurd hdigits Nat.toDigits_ne_nil
  | cons c cs =>
    rw [hdigits] at hall hhead
    obtain ⟨hc, hcs⟩ := List.forall_mem_cons.1 hall
    exact ⟨c, cs, rfl, fun hzero => hhead (congrArg some hzero), hc, hcs⟩

end Characters

section Parts

variable {s : List UInt8} {cs : List Char} (hcs : ∀ c ∈ cs, Text.Integer.isDigit c = true)
  (hs : startsWithDigit s = false)

include hcs hs

theorem read_digits (negative : Bool) {c : Char} (hc : Text.Integer.isDigit c = true)
    (hzero : c ≠ '0') (hle : (c :: cs).foldl grow 0 ≤ Text.Integer.maxUnsigned64) :
    Numeral.read negative ((c :: cs).flatMap encodeChar ++ s)
      = afterInteger negative ((c :: cs).foldl grow 0) s := by
  obtain ⟨hdigit, hchar⟩ := isDigit_ofNat hc
  have hlt : c.toNat < 256 := Nat.lt_of_le_of_lt (Text.Integer.toNat_of_isDigit hc).2 (by decide)
  have hne : (UInt8.ofNat c.toNat == 0x30) = false := by
    refine beq_eq_false_iff_ne.2 (fun heq => hzero ?_)
    have htoNat := congrArg UInt8.toNat heq
    rw [Text.Utf8.toNat_ofNat hlt] at htoNat
    exact Char.toNat_inj.1 htoNat
  obtain ⟨hvalue, -⟩ := foldl_flatMap (List.forall_mem_cons.2 ⟨hc, hcs⟩) 0
  rw [← hvalue] at hle ⊢
  rw [List.flatMap_cons, hchar, List.singleton_append] at hle ⊢
  rw [List.foldl_cons, accumulate, Nat.zero_mul, Nat.zero_add] at hle ⊢
  rw [List.cons_append, Numeral.read, if_neg (by simp [hne]), if_neg (by simp [hdigit]),
    fitting_all (digits_flatMap hcs) hs 1 hle]
  dsimp only
  rw [hs, if_neg Bool.false_ne_true]

theorem fraction_digits {n : Nat} (shift : Int) (hsome : cs ≠ [])
    (hle : cs.foldl grow n ≤ Text.Integer.maxUnsigned64) :
    fraction n shift (cs.flatMap encodeChar ++ s)
      = exponentOrEnd (cs.foldl grow n) (shift - cs.length) s := by
  obtain ⟨hvalue, hlength⟩ := foldl_flatMap hcs n
  rw [← hvalue] at hle ⊢
  rw [fraction, fitting_all (digits_flatMap hcs) hs 0 hle, Nat.zero_add, hlength]
  dsimp only
  rw [hs, if_neg Bool.false_ne_true, if_neg (by simpa using hsome)]

end Parts

section Ends

variable {s : List UInt8} (hs : Marked s)

include hs

theorem afterInteger_marked (negative : Bool) (n : Nat) :
    afterInteger negative n s = integer negative n s := by
  cases s with
  | nil => rfl
  | cons b s =>
    rw [afterInteger, if_neg (by obtain rfl | rfl | rfl := hs <;> decide),
      if_neg (by obtain rfl | rfl | rfl := hs <;> decide)]

theorem exponentOrEnd_marked (digits : Nat) (shift : Int) :
    exponentOrEnd digits shift s = finish digits shift s := by
  cases s with
  | nil => rfl
  | cons b s => rw [exponentOrEnd, if_neg (by obtain rfl | rfl | rfl := hs <;> decide)]

theorem read_toDigits (negative : Bool) {n : Nat} (h : n ≤ Text.Integer.maxUnsigned64) :
    Numeral.read negative ((Nat.toDigits 10 n).flatMap encodeChar ++ s)
      = integer negative n s := by
  have hmarked := marked_startsWithDigit hs
  obtain rfl | hpos := Nat.eq_zero_or_pos n
  · have htext : (Nat.toDigits 10 0).flatMap encodeChar = [0x30] := by decide
    rw [htext, List.singleton_append, Numeral.read, if_pos (by rfl), hmarked,
      if_neg Bool.false_ne_true]
    exact afterInteger_marked hs negative 0
  · have hvalue := foldl_grow_toDigits n
    obtain ⟨c, cs, hdigits, hzero, hc, hcs⟩ := toDigits_cons hpos
    rw [hdigits] at hvalue ⊢
    rw [read_digits hcs hmarked negative hc hzero (hvalue.symm ▸ h), hvalue]
    exact afterInteger_marked hs negative n

theorem exponent_toDigits (digits : Nat) (shift : Int) (negative : Bool) {n : Nat}
    (h : n ≤ maxExponent) :
    exponent digits shift (((if negative then '-' else '+') :: Nat.toDigits 10 n).flatMap encodeChar
        ++ s) = finish digits (if negative then shift - n else shift + n) s := by
  have hmarked := marked_startsWithDigit hs
  have hvalue := foldl_grow_toDigits n
  have hall : ∀ c ∈ Nat.toDigits 10 n, Text.Integer.isDigit c = true :=
    fun _ => Text.Integer.isDigit_of_mem_toDigits
  cases hdigits : Nat.toDigits 10 n with
  | nil => exact absurd hdigits Nat.toDigits_ne_nil
  | cons c cs =>
    rw [hdigits] at hvalue hall
    obtain ⟨hc, hcs⟩ := List.forall_mem_cons.1 hall
    obtain ⟨hdigit, hchar⟩ := isDigit_ofNat hc
    obtain ⟨hoctets, -⟩ := foldl_flatMap hall 0
    rw [hvalue, List.flatMap_cons, hchar, List.singleton_append, List.foldl_cons, accumulate,
      Nat.zero_mul, Nat.zero_add] at hoctets
    have hsign : exponentSign (((if negative then '-' else '+') :: c :: cs).flatMap encodeChar ++ s)
        = (negative, UInt8.ofNat c.toNat :: (cs.flatMap encodeChar ++ s)) := by
      rw [List.flatMap_cons, List.flatMap_cons, hchar]
      cases negative <;> rfl
    rw [exponent, hsign]
    dsimp only
    rw [hdigit, exponentDigits_all (digits_flatMap hcs) hmarked (hoctets.symm ▸ h), hoctets]
    rfl

end Ends

section Layouts

variable {c : Char} {cs ds : List Char} {s : List UInt8} (hs : Marked s)

theorem foldl_grow_le {n : Nat} (h : n ≤ 10 ^ 18) : n ≤ Text.Integer.maxUnsigned64 :=
  Nat.le_trans h (by decide)

theorem exponent_sign (digits : Nat) (shift : Int) {e : Int} (h : e.natAbs ≤ maxExponent)
    (hs : Marked s) :
    exponent digits shift (((if e < 0 then '-' else '+') :: Nat.toDigits 10 e.natAbs).flatMap
      encodeChar ++ s) = finish digits (shift + e) s := by
  have hexponent := exponent_toDigits hs digits shift (decide (e < 0)) h
  simp only [decide_eq_true_eq] at hexponent
  rw [hexponent]
  split
  · rw [show shift - (e.natAbs : Int) = shift + e by omega]
  · rw [show shift + (e.natAbs : Int) = shift + e by omega]

include hs

section Points

variable (hds : ∀ d ∈ ds, Text.Integer.isDigit d = true)

include hds

theorem read_point (negative : Bool) (hc : Text.Integer.isDigit c = true) (hzero : c ≠ '0')
    (hcs : ∀ d ∈ cs, Text.Integer.isDigit d = true) (hsome : ds ≠ [])
    (hle : (c :: cs ++ ds).foldl grow 0 ≤ 10 ^ 18) :
    Numeral.read negative ((c :: cs ++ '.' :: ds).flatMap encodeChar ++ s)
      = float negative (finish ((c :: cs ++ ds).foldl grow 0) (-ds.length) s) := by
  rw [List.foldl_append] at hle ⊢
  have hwhole := Nat.le_trans (le_foldl_grow _ ds) hle
  rw [List.flatMap_append, List.append_assoc,
    read_digits hcs rfl negative hc hzero (foldl_grow_le hwhole)]
  change float negative (fraction _ 0 (ds.flatMap encodeChar ++ s)) = _
  rw [fraction_digits hds (marked_startsWithDigit hs) 0 hsome (foldl_grow_le hle),
    exponentOrEnd_marked hs, Int.zero_sub]

theorem read_small (negative : Bool) (hsome : ds ≠ []) (hle : ds.foldl grow 0 ≤ 10 ^ 18) :
    Numeral.read negative (('0' :: '.' :: ds).flatMap encodeChar ++ s)
      = float negative (finish (ds.foldl grow 0) (-ds.length) s) := by
  change float negative (fraction 0 0 (ds.flatMap encodeChar ++ s)) = _
  rw [fraction_digits hds (marked_startsWithDigit hs) 0 hsome (foldl_grow_le hle),
    exponentOrEnd_marked hs, Int.zero_sub]

end Points

theorem read_exponent (negative : Bool) (hc : Text.Integer.isDigit c = true) (hzero : c ≠ '0')
    (hcs : ∀ d ∈ cs, Text.Integer.isDigit d = true) {e : Int} (he : e.natAbs ≤ maxExponent)
    (hle : (c :: cs).foldl grow 0 ≤ 10 ^ 18) :
    Numeral.read negative
      (((match c :: cs with | [] => [] | [c] => [c] | c :: rest => c :: '.' :: rest)
        ++ 'e' :: (if e < 0 then '-' else '+') :: Nat.toDigits 10 e.natAbs).flatMap encodeChar ++ s)
      = float negative (finish ((c :: cs).foldl grow 0) (e - cs.length) s) := by
  have hexponent := fun n shift => exponent_sign (s := s) n shift he hs
  generalize ((if e < 0 then '-' else '+') :: Nat.toDigits 10 e.natAbs) = es at hexponent ⊢
  have hone := Nat.le_trans (le_foldl_grow (grow 0 c) cs) hle
  cases cs with
  | nil =>
    change Numeral.read negative (([c] ++ 'e' :: es).flatMap encodeChar ++ s) = _
    rw [List.flatMap_append, List.append_assoc,
      read_digits hcs rfl negative hc hzero (foldl_grow_le hle)]
    change float negative (exponent _ 0 (es.flatMap encodeChar ++ s)) = _
    rw [hexponent, Int.zero_add, List.length_nil, Int.natCast_zero, Int.sub_zero]
  | cons d rest =>
    change Numeral.read negative
      (([c] ++ '.' :: (d :: rest) ++ 'e' :: es).flatMap encodeChar ++ s) = _
    rw [List.flatMap_append, List.flatMap_append, List.append_assoc, List.append_assoc,
      read_digits (List.forall_mem_nil _) rfl negative hc hzero (foldl_grow_le hone)]
    change float negative (fraction _ 0 ((d :: rest).flatMap encodeChar
      ++ (('e' :: es).flatMap encodeChar ++ s))) = _
    rw [fraction_digits (n := [c].foldl grow 0) hcs rfl 0 (List.cons_ne_nil d rest)
      (foldl_grow_le hle)]
    change float negative (exponent _ _ (es.flatMap encodeChar ++ s)) = _
    rw [hexponent, Int.zero_sub, Int.add_comm]
    rfl

end Layouts

end Numeral

/-- A decimal as its text is read: a whole number gets a zero after its point. -/
def laid (d : Decimal) : Decimal :=
  if 0 ≤ d.exponent ∧ d.exponent + (Nat.toDigits 10 d.digits).length ≤ 16 then
    ⟨d.digits * 10 ^ (d.exponent.toNat + 1), -1⟩
  else d

theorem zero_digit : ∀ c ∈ ['0'], Text.Integer.isDigit c = true := by
  intro c hc
  obtain rfl := List.mem_singleton.1 hc
  rfl

section Reading

variable {d : Decimal} {s : List UInt8} (hs : Marked s)

include hs

/-- A decimal that is laid out is read as it was laid out. -/
theorem read_layout (negative : Bool) (hpos : 0 < d.digits) (hle : d.digits ≤ 10 ^ 18)
    (hexponent : d.exponent.natAbs ≤ 10000) :
    Numeral.read negative ((layout (Nat.toDigits 10 d.digits)
        (d.exponent + (Nat.toDigits 10 d.digits).length)).flatMap encodeChar ++ s)
      = Numeral.float negative (Numeral.finish (laid d).digits (laid d).exponent s) := by
  have hvalue := Numeral.foldl_grow_toDigits d.digits
  have hlength : (Nat.toDigits 10 d.digits).length ≤ 19 :=
    Nat.toDigits_length 10 d.digits 19 (by decide) (Nat.lt_of_le_of_lt hle (by decide))
  have hpow := Numeral.lt_pow_length_toDigits d.digits
  obtain ⟨c, cs, hdigits, hzero, hc, hcs⟩ := Numeral.toDigits_cons hpos
  have hall : ∀ d ∈ c :: cs, Text.Integer.isDigit d = true := List.forall_mem_cons.2 ⟨hc, hcs⟩
  rw [laid]
  rw [hdigits] at hvalue hlength hpow ⊢
  obtain ⟨digits, x⟩ := d
  dsimp only at hvalue hpow hexponent hle ⊢
  unfold layout
  dsimp only
  split
  · rename_i hpoint
    simp only [Bool.and_eq_true, decide_eq_true_eq] at hpoint
    split
    · rename_i hwhole
      have hnonneg : 0 ≤ x := by omega
      rw [if_pos ⟨hnonneg, hpoint.2⟩,
        show (x + (c :: cs).length).toNat - (c :: cs).length = x.toNat by omega]
      -- the zero after the point is one more digit
      have hzeros : c :: (cs ++ List.replicate x.toNat '0') ++ ['0']
          = c :: cs ++ List.replicate (x.toNat + 1) '0' := by
        rw [List.replicate_succ', ← List.append_assoc]
        rfl
      have hfold : (c :: (cs ++ List.replicate x.toNat '0') ++ ['0']).foldl Numeral.grow 0
          = digits * 10 ^ (x.toNat + 1) := by
        rw [hzeros, List.foldl_append, hvalue, Numeral.foldl_grow_zeros]
      have hfew : digits * 10 ^ (x.toNat + 1) ≤ 10 ^ 18 :=
        calc digits * 10 ^ (x.toNat + 1)
          _ ≤ 10 ^ (c :: cs).length * 10 ^ (x.toNat + 1) := Nat.mul_le_mul_right _ hpow.le
          _ = 10 ^ ((c :: cs).length + (x.toNat + 1)) := (Nat.pow_add _ _ _).symm
          _ ≤ 10 ^ 18 := Nat.pow_le_pow_right (by decide) (by omega)
      have hall : ∀ d ∈ cs ++ List.replicate x.toNat '0', Text.Integer.isDigit d = true := by
        intro d hd
        obtain hd | hd := List.mem_append.1 hd
        · exact hcs d hd
        · rw [List.eq_of_mem_replicate hd]
          rfl
      have hread := Numeral.read_point hs zero_digit negative hc hzero hall
        (List.cons_ne_nil _ _) (hfold.symm ▸ hfew)
      rw [hfold] at hread
      exact hread
    · rename_i hinside
      rw [if_neg (by omega)]
      obtain ⟨k, hk⟩ : ∃ k, (x + (c :: cs).length).toNat = k + 1 :=
        ⟨(x + (c :: cs).length).toNat - 1, by omega⟩
      rw [hk] at hinside ⊢
      rw [List.length_cons] at hinside hk
      rw [List.take_succ_cons, List.drop_succ_cons]
      have hsplit : c :: cs.take k ++ cs.drop k = c :: cs := by
        rw [List.cons_append, List.take_append_drop]
      have hsome : cs.drop k ≠ [] := by
        rw [ne_eq, List.drop_eq_nil_iff]
        omega
      rw [Numeral.read_point hs (fun d hd => hcs d (List.mem_of_mem_drop hd)) negative hc hzero
        (fun d hd => hcs d (List.mem_of_mem_take hd)) hsome (by rw [hsplit, hvalue]; exact hle),
        hsplit, hvalue, List.length_drop]
      rw [show -((cs.length - k : Nat) : Int) = x by omega]
  · rename_i hpoint
    simp only [Bool.and_eq_true, decide_eq_true_eq] at hpoint
    have hlaid : ¬(0 ≤ x ∧ x + (c :: cs).length ≤ 16) := by
      rw [List.length_cons] at hpoint ⊢
      omega
    rw [if_neg hlaid]
    split
    · rename_i hsmall
      simp only [Bool.and_eq_true, decide_eq_true_eq] at hsmall
      have hds : ∀ d ∈ List.replicate (-(x + (c :: cs).length)).toNat '0' ++ c :: cs,
          Text.Integer.isDigit d = true := by
        intro d hd
        obtain hd | hd := List.mem_append.1 hd
        · rw [List.eq_of_mem_replicate hd]
          rfl
        · exact hall d hd
      have hfold : (List.replicate (-(x + (c :: cs).length)).toNat '0' ++ c :: cs).foldl
          Numeral.grow 0 = digits := by
        rw [List.foldl_append, Numeral.foldl_grow_zeros, Nat.zero_mul, hvalue]
      rw [Numeral.read_small hs hds negative (by simp) (hfold.symm ▸ hle), hfold,
        List.length_append, List.length_replicate]
      rw [show -(((-(x + (c :: cs).length)).toNat + (c :: cs).length : Nat) : Int) = x by omega]
    · have hread := Numeral.read_exponent hs negative hc hzero hcs
        (e := x + (c :: cs).length - 1) (by rw [Numeral.maxExponent]; omega) (hvalue.symm ▸ hle)
      rw [hvalue, show x + ((c :: cs).length : Int) - 1 - cs.length = x by
        rw [List.length_cons]
        omega] at hread
      exact hread

end Reading

theorem ofDecimal_laid {m : Magnitude} (finite : m.Finite) (hpos : 0 < m.significand) :
    (Binary64.ofDecimal (laid m.shortest).digits (laid m.shortest).exponent).isSome = true := by
  rw [laid]
  split
  · rename_i hwhole
    have hfew : m.shortest.digits * 10 ^ (m.shortest.exponent.toNat + 1) ≤ 10 ^ 18 :=
      calc m.shortest.digits * 10 ^ (m.shortest.exponent.toNat + 1)
        _ ≤ 10 ^ (Nat.toDigits 10 m.shortest.digits).length
            * 10 ^ (m.shortest.exponent.toNat + 1) :=
          Nat.mul_le_mul_right _ (Numeral.lt_pow_length_toDigits _).le
        _ = 10 ^ ((Nat.toDigits 10 m.shortest.digits).length
            + (m.shortest.exponent.toNat + 1)) := (Nat.pow_add _ _ _).symm
        _ ≤ 10 ^ 18 := Nat.pow_le_pow_right (by decide) (by omega)
    exact Binary64.ofDecimal_neg hfew Nat.one_pos
  · exact Binary64.ofDecimal_shortest finite hpos

def rereadMagnitude (m : Magnitude) : Magnitude :=
  if m.isZero then .zero
  else (Binary64.ofDecimal (laid m.shortest).digits (laid m.shortest).exponent).getD .zero

namespace Number

/-- A number that the octets of a text can hold: an integer of 64 bits, with or without a sign, or
any other finite number. -/
def Legible : Number → Prop
  | .int n => Text.Integer.min64 ≤ n ∧ n ≤ Text.Integer.maxUnsigned64
  | .float _ m => m.Finite

def reread : Number → Number
  | .int n => .int n
  | .float negative m => .float negative (rereadMagnitude m)

end Number

section Values

variable {s : List UInt8}

theorem read_float (hs : Marked s) (negative : Bool) {m : Magnitude} (finite : m.Finite) :
    Numeral.read negative ((Number.float false m).render.flatMap encodeChar ++ s)
      = .ok (.float negative (rereadMagnitude m), s) := by
  change Numeral.read negative ((if m.isZero then ['0', '.', '0'] else _).flatMap encodeChar ++ s) = _
  rw [rereadMagnitude]
  split
  · have hread := Numeral.read_small hs zero_digit negative (by decide) (by decide)
    rw [hread, Numeral.finish, show Binary64.ofDecimal (['0'].foldl Numeral.grow 0)
      (-['0'].length) = some Magnitude.zero by decide +kernel]
    rfl
  · rename_i hzero
    have hpos : 0 < m.significand := by
      rw [Magnitude.isZero, beq_iff_eq] at hzero
      exact Nat.pos_of_ne_zero hzero
    obtain ⟨hdigits, hfew, hexponent, -⟩ := Binary64.shortest_spec finite hpos
    obtain ⟨y, hy⟩ := Option.isSome_iff_exists.1 (ofDecimal_laid finite hpos)
    have hread := read_layout hs negative hdigits hfew hexponent
    rw [Numeral.finish, hy] at hread
    rw [hy]
    exact hread

/-- The text of a number is read, whatever marked text comes after it. -/
theorem readValue_num (fuel depth : Nat) {n : Number} (h : n.Legible) (hs : Marked s) :
    readValue fuel depth (octets (.num n) ++ s) = .ok (.num n.reread, s) := by
  have hvalue : ∀ {u : List UInt8}, Numeral.Unsigned u → readValue fuel depth (u ++ s)
      = (Numeral.read false (u ++ s)).map (fun r => (.num r.1, r.2)) := by
    rintro u ⟨hd, -, -⟩
    exact readValue_digit fuel depth hd _
  rw [octets]
  cases n with
  | int n =>
    cases n with
    | ofNat k =>
      rw [Number.render, Text.Integer.write, String.toList_ofList,
        hvalue (Numeral.unsigned_toDigits k),
        Numeral.read_toDigits hs false (Int.ofNat_le.1 h.2)]
      rfl
    | negSucc k =>
      have hk : k + 1 ≤ 9223372036854775808 := by
        have hlow := h.1
        rw [Text.Integer.min64] at hlow
        omega
      rw [Number.render, Text.Integer.write, String.toList_ofList, Numeral.minus_flatMap,
        List.cons_append, readValue_minus,
        Numeral.read_toDigits hs true (Nat.le_trans hk (by decide)), Numeral.integer,
        if_neg (by decide), if_pos (by simp [hk])]
      rfl
  | float negative m =>
    have hread := fun negative => read_float hs negative (show m.Finite from h)
    cases negative with
    | false =>
      rw [hvalue (Numeral.unsigned_float m), hread]
      rfl
    | true =>
      have htext : (Number.float true m).render = '-' :: (Number.float false m).render := rfl
      rw [htext, Numeral.minus_flatMap, List.cons_append, readValue_minus, hread]
      rfl

end Values

section Readers

namespace Numeral

variable {digits : Nat} {shift : Int} {negative : Bool} {m : Magnitude} {n : Number}
  {s s' : List UInt8}

variable (s) in
theorem fitting_le {k : Nat} (count : Nat) (h : k ≤ Text.Integer.maxUnsigned64) :
    (fitting k count s).1 ≤ Text.Integer.maxUnsigned64 := by
  fun_induction fitting k count s with
  | case1 | case3 => exact h
  | case2 k count b s hfit ih =>
    simp only [Bool.and_eq_true, decide_eq_true_eq] at hfit
    exact ih hfit.2

theorem finish_finite (h : finish digits shift s = .ok (m, s')) : m.Finite := by
  unfold finish at h
  split at h
  · rename_i m hdecimal
    cases h
    exact Binary64.ofDecimal_finite hdecimal
  · cases h

theorem zero_finite : Magnitude.zero.Finite :=
  ⟨by decide, by decide, by decide⟩

theorem exponent_finite (h : exponent digits shift s = .ok (m, s')) : m.Finite := by
  unfold exponent at h
  dsimp only at h
  split at h
  · cases h
  · split at h
    · cases h
    · split at h
      · exact finish_finite h
      · split at h
        · cases h
        · cases h
          exact zero_finite

theorem exponentOrEnd_finite (h : exponentOrEnd digits shift s = .ok (m, s')) : m.Finite := by
  cases s with
  | nil => exact finish_finite h
  | cons b s =>
    rw [exponentOrEnd] at h
    split at h
    · exact exponent_finite h
    · exact finish_finite h

theorem fraction_finite (h : fraction digits shift s = .ok (m, s')) : m.Finite := by
  unfold fraction at h
  dsimp only at h
  split at h
  · exact exponentOrEnd_finite h
  · split at h
    · split at h <;> cases h
    · exact exponentOrEnd_finite h

theorem fractionOrEnd_finite (h : fractionOrEnd digits shift s = .ok (m, s')) : m.Finite := by
  cases s with
  | nil => exact finish_finite h
  | cons b s =>
    rw [fractionOrEnd] at h
    split at h
    · exact fraction_finite h
    · split at h
      · exact exponent_finite h
      · exact finish_finite h

theorem float_legible {r : Except Fault (Magnitude × List UInt8)}
    (hr : ∀ m s', r = .ok (m, s') → m.Finite) (h : float negative r = .ok (n, s')) :
    n.Legible := by
  cases r with
  | error e => cases h
  | ok r =>
    cases h
    exact hr r.1 r.2 rfl

theorem integer_legible {k : Nat} (hk : k ≤ Text.Integer.maxUnsigned64)
    (h : integer negative k s = .ok (n, s')) : n.Legible := by
  unfold integer at h
  split at h
  · cases h
    exact ⟨Int.le_trans (by decide) (Int.natCast_nonneg k), Int.ofNat_le.2 hk⟩
  · split at h
    · rename_i hneg
      simp only [Bool.and_eq_true, decide_eq_true_eq] at hneg
      cases h
      rw [Number.Legible, Text.Integer.min64]
      omega
    · exact float_legible (fun _ _ => finish_finite) h

theorem afterInteger_legible {k : Nat} (hk : k ≤ Text.Integer.maxUnsigned64)
    (h : afterInteger negative k s = .ok (n, s')) : n.Legible := by
  cases s with
  | nil => exact integer_legible hk h
  | cons b s =>
    rw [afterInteger] at h
    split at h
    · exact float_legible (fun _ _ => fraction_finite) h
    · split at h
      · exact float_legible (fun _ _ => exponent_finite) h
      · exact integer_legible hk h

theorem read_legible (h : Numeral.read negative s = .ok (n, s')) : n.Legible := by
  cases s with
  | nil => cases h
  | cons b s =>
    rw [Numeral.read] at h
    split at h
    · split at h
      · cases h
      · exact afterInteger_legible (Nat.zero_le _) h
    · split at h
      · cases h
      · have hdigit : digit b ≤ Text.Integer.maxUnsigned64 :=
          Nat.le_trans (Nat.sub_le _ _) (Nat.le_trans b.toNat_lt.le (by decide))
        have hle := fitting_le s 1 hdigit
        dsimp only at h
        split at h
        · exact float_legible (fun _ _ => fractionOrEnd_finite) h
        · exact afterInteger_legible hle h

end Numeral

end Readers

end Accession.Json
