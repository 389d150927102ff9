import Accession.Json.Literal
import Accession.Proofs.Json.Written
set_option autoImplicit false

namespace Accession.Json.Literal

open Text.Utf8 (encodeChar toNat_ofNat)

def isVerbatim (b : UInt8) : Bool :=
  b != 0x22 && 0x20 ≤ b && b != 0x5C

theorem octets_verbatim {bs : List UInt8} (h : ∀ b ∈ bs, isVerbatim b = true)
    (done s : List UInt8) : octets done (bs ++ s) = octets (bs.reverse ++ done) s := by
  induction bs generalizing done with
  | nil => rfl
  | cons b bs ih =>
    obtain ⟨hb, hbs⟩ := List.forall_mem_cons.1 h
    simp only [isVerbatim, Bool.and_eq_true, bne_iff_ne, decide_eq_true_eq] at hb
    obtain ⟨⟨hquote, hcontrol⟩, hescape⟩ := hb
    rw [List.cons_append, octets.eq_def]
    dsimp only
    rw [if_neg (by simpa using hquote), if_neg (UInt8.not_lt.2 hcontrol),
      if_pos (by simpa using hescape), ih hbs, List.reverse_cons, List.append_assoc]
    rfl

theorem isVerbatim_ofNat {n : Nat} (h : n < 256) (hcontrol : 0x20 ≤ n) (hquote : n ≠ 0x22)
    (hescape : n ≠ 0x5C) : isVerbatim (UInt8.ofNat n) = true := by
  simp only [isVerbatim, Bool.and_eq_true, bne_iff_ne, decide_eq_true_eq, ne_eq,
    ← UInt8.toNat_inj, UInt8.le_iff_toNat_le, toNat_ofNat h, UInt8.reduceToNat]
  omega

theorem isVerbatim_encodeChar {c : Char} (hcontrol : 0x20 ≤ c.toNat) (hquote : c.toNat ≠ 0x22)
    (hescape : c.toNat ≠ 0x5C) : ∀ b ∈ encodeChar c, isVerbatim b = true := by
  have hvalid : c.toNat < 0xD800 ∨ 0xDFFF < c.toNat ∧ c.toNat < 0x110000 := c.valid
  simp only [encodeChar]
  split
  · intro b hb
    rw [List.mem_singleton.1 hb]
    exact isVerbatim_ofNat (by omega) hcontrol hquote hescape
  · have htail : ∀ n, n < 64 → isVerbatim (UInt8.ofNat (0x80 + n)) = true := by
      intro n hn
      exact isVerbatim_ofNat (by omega) (by omega) (by omega) (by omega)
    have hmod : ∀ n, isVerbatim (UInt8.ofNat (0x80 + n % 64)) = true :=
      fun n => htail _ (Nat.mod_lt _ (by decide))
    split
    · intro b hb
      simp only [List.mem_cons, List.not_mem_nil, or_false] at hb
      obtain rfl | rfl := hb
      · exact isVerbatim_ofNat (by omega) (by omega) (by omega) (by omega)
      · exact hmod _
    · split
      · intro b hb
        simp only [List.mem_cons, List.not_mem_nil, or_false] at hb
        obtain rfl | rfl | rfl := hb
        · exact isVerbatim_ofNat (by omega) (by omega) (by omega) (by omega)
        · exact hmod _
        · exact hmod _
      · intro b hb
        simp only [List.mem_cons, List.not_mem_nil, or_false] at hb
        obtain rfl | rfl | rfl | rfl := hb
        · exact isVerbatim_ofNat (by omega) (by omega) (by omega) (by omega)
        · exact hmod _
        · exact hmod _
        · exact hmod _

theorem encodeChar_ascii {c : Char} (h : c.toNat < 0x80) :
    encodeChar c = [UInt8.ofNat c.toNat] := by
  simp only [encodeChar, h, if_true]

theorem unit_control : ∀ n, n < 0x20 →
    (Nat.digitChar (n % 16)).toNat < 0x80 ∧
      unit? 0x30 0x30 (if n < 0x10 then 0x30 else 0x31)
        (UInt8.ofNat (Nat.digitChar (n % 16)).toNat) = some n := by
  decide

theorem octets_unit {a b c d : UInt8} {n : Nat} (hunit : unit? a b c d = some n)
    (hlow : isLowSurrogate n = false) (hhigh : isHighSurrogate n = false) (done s : List UInt8) :
    octets done (0x5C :: 0x75 :: a :: b :: c :: d :: s) = octets (push (Char.ofNat n) done) s := by
  have hescape : simpleEscape? 0x75 = none := rfl
  rw [octets.eq_def]
  simp [hescape, hunit, hlow, hhigh]

theorem octets_simple {e o : UInt8} (h : simpleEscape? e = some o) (done s : List UInt8) :
    octets done (0x5C :: e :: s) = octets (o :: done) s := by
  rw [octets.eq_def]
  simp [h]

theorem octets_control {c : Char} (h : c.toNat < 0x20) (done s : List UInt8) :
    octets done (['\\', 'u', '0', '0', if c.toNat < 0x10 then '0' else '1',
        Nat.digitChar (c.toNat % 16)].flatMap encodeChar ++ s)
      = octets ((encodeChar c).reverse ++ done) s := by
  obtain ⟨hdigit, hunit⟩ := unit_control c.toNat h
  have htens : encodeChar (if c.toNat < 0x10 then '0' else '1')
      = [if c.toNat < 0x10 then 0x30 else 0x31] := by
    split <;> rfl
  have hlow : isLowSurrogate c.toNat = false := by
    simp only [isLowSurrogate, Bool.and_eq_false_iff, decide_eq_false_iff_not]
    omega
  have hhigh : isHighSurrogate c.toNat = false := by
    simp only [isHighSurrogate, Bool.and_eq_false_iff, decide_eq_false_iff_not]
    omega
  have hspelled : ['\\', 'u', '0', '0', if c.toNat < 0x10 then '0' else '1',
        Nat.digitChar (c.toNat % 16)].flatMap encodeChar
      = [0x5C, 0x75, 0x30, 0x30, if c.toNat < 0x10 then 0x30 else 0x31,
          UInt8.ofNat (Nat.digitChar (c.toNat % 16)).toNat] := by
    simp only [List.flatMap_cons, List.flatMap_nil, htens, encodeChar_ascii hdigit]
    rfl
  rw [hspelled]
  exact (octets_unit hunit hlow hhigh done s).trans (by rw [push, Char.ofNat_toNat])

theorem escapeChar_control {c : Char} (h : c.toNat < 0x20) (hb : c ≠ Char.ofNat 8)
    (hf : c ≠ Char.ofNat 12) (hn : c ≠ '\n') (hr : c ≠ '\r') (ht : c ≠ '\t') :
    escapeChar c = ['\\', 'u', '0', '0', if c.toNat < 0x10 then '0' else '1',
      Nat.digitChar (c.toNat % 16)] := by
  have hne : ∀ n, c ≠ Char.ofNat n → c.toNat ≠ n := by
    rintro n hc rfl
    exact hc (Char.ofNat_toNat c).symm
  have hquote : c ≠ '"' := by
    rintro rfl
    exact absurd h (by decide)
  have hescape : c ≠ '\\' := by
    rintro rfl
    exact absurd h (by decide)
  simp only [escapeChar, beq_iff_eq, hquote, hescape, hne 8 hb, hne 12 hf, hn, hr, ht, h, if_true,
    if_false]

theorem escapeChar_self {c : Char} (h : 0x20 ≤ c.toNat) (hquote : c ≠ '"') (hescape : c ≠ '\\') :
    escapeChar c = [c] := by
  have hne : ∀ d : Char, d.toNat < 0x20 → c ≠ d := by
    rintro d hd rfl
    omega
  have hcode : ∀ n, n < 0x20 → c.toNat ≠ n := by
    intro n hn
    omega
  simp only [escapeChar, beq_iff_eq, hquote, hescape, hcode 8 (by decide), hcode 12 (by decide),
    hne '\n' (by decide), hne '\r' (by decide), hne '\t' (by decide), Nat.not_lt.2 h, if_false]

theorem octets_escapeChar (c : Char) (done s : List UInt8) :
    octets done ((escapeChar c).flatMap encodeChar ++ s)
      = octets ((encodeChar c).reverse ++ done) s := by
  by_cases hquote : c = '"'
  · subst hquote
    exact octets_simple (e := 0x22) rfl done s
  by_cases hescape : c = '\\'
  · subst hescape
    exact octets_simple (e := 0x5C) rfl done s
  by_cases hcontrol : 0x20 ≤ c.toNat
  · have hne : ∀ d : Char, c ≠ d → c.toNat ≠ d.toNat := by
      intro d hd hn
      exact hd (Char.toNat_inj.1 hn)
    rw [escapeChar_self hcontrol hquote hescape, List.flatMap_singleton]
    exact octets_verbatim (isVerbatim_encodeChar hcontrol (hne '"' hquote) (hne '\\' hescape)) done s
  by_cases hb : c = Char.ofNat 8
  · subst hb
    exact octets_simple (e := 0x62) rfl done s
  by_cases hf : c = Char.ofNat 12
  · subst hf
    exact octets_simple (e := 0x66) rfl done s
  by_cases hn : c = '\n'
  · subst hn
    exact octets_simple (e := 0x6E) rfl done s
  by_cases hr : c = '\r'
  · subst hr
    exact octets_simple (e := 0x72) rfl done s
  by_cases ht : c = '\t'
  · subst ht
    exact octets_simple (e := 0x74) rfl done s
  rw [escapeChar_control (by omega) hb hf hn hr ht]
  exact octets_control (by omega) done s

theorem read_quoted (text : String) (s : List UInt8) :
    Literal.read ((text.toList.flatMap escapeChar).flatMap encodeChar ++ 0x22 :: s)
      = .ok (text, s) := by
  have hoctets : ∀ (cs : List Char) (done : List UInt8),
      octets done ((cs.flatMap escapeChar).flatMap encodeChar ++ 0x22 :: s)
        = .ok (done.reverse ++ cs.flatMap encodeChar, s) := by
    intro cs
    induction cs with
    | nil =>
      intro done
      rw [List.flatMap_nil, List.flatMap_nil, List.nil_append, List.append_nil, octets.eq_def]
      rfl
    | cons c cs ih =>
      intro done
      rw [List.flatMap_cons, List.flatMap_append, List.append_assoc, octets_escapeChar, ih,
        List.reverse_append, List.reverse_reverse, List.flatMap_cons, List.append_assoc]
  rw [Literal.read, hoctets, List.reverse_nil, List.nil_append]
  simp only [bind, Except.bind, Text.Utf8.decode_flatMap_encodeChar, String.ofList_toList]
  rfl

end Accession.Json.Literal
