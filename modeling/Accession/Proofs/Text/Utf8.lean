import Accession.Text.Utf8
set_option autoImplicit false

namespace Accession.Text.Utf8

theorem toNat_ofNat {n : Nat} (h : n < 256) : (UInt8.ofNat n).toNat = n := by
  rw [UInt8.toNat_ofNat', Nat.mod_eq_of_lt h]

theorem le_ofNat {a : UInt8} {n : Nat} (h : n < 256) : a ≤ UInt8.ofNat n ↔ a.toNat ≤ n := by
  rw [UInt8.le_iff_toNat_le, toNat_ofNat h]

theorem ofNat_le {a : UInt8} {n : Nat} (h : n < 256) : UInt8.ofNat n ≤ a ↔ n ≤ a.toNat := by
  rw [UInt8.le_iff_toNat_le, toNat_ofNat h]

theorem ofNat_lt {a : UInt8} {n : Nat} (h : n < 256) : UInt8.ofNat n < a ↔ n < a.toNat := by
  rw [UInt8.lt_iff_toNat_lt, toNat_ofNat h]

theorem isTail_ofNat {n : Nat} (h : n < 64) : isTail (UInt8.ofNat (0x80 + n)) = true := by
  have hn : 0x80 + n < 256 := by omega
  rw [isTail, Bool.and_eq_true, decide_eq_true_eq, decide_eq_true_eq, le_ofNat hn, ofNat_le hn]
  change 0x80 ≤ 0x80 + n ∧ 0x80 + n ≤ 0xBF
  omega

section Characters

variable (done : List Char) (s : List UInt8) {n : Nat}

theorem decodeOnto_single (h : n < 0x80) :
    decodeOnto done (UInt8.ofNat n :: s) = decodeOnto (Char.ofNat n :: done) s := by
  have hn : n < 256 := by omega
  have hlead : UInt8.ofNat n < 0x80 := (ofNat_lt hn).2 h
  rw [decodeOnto.eq_def]
  dsimp only
  rw [if_pos hlead, toNat_ofNat hn]

theorem decodeOnto_pair (h : 0x80 ≤ n) (h' : n < 0x800) :
    decodeOnto done (UInt8.ofNat (0xC0 + n / 64) :: UInt8.ofNat (0x80 + n % 64) :: s)
      = decodeOnto (Char.ofNat n :: done) s := by
  have ha : 0xC0 + n / 64 < 256 := by omega
  have hb : 0x80 + n % 64 < 256 := by omega
  have hlead : ¬UInt8.ofNat (0xC0 + n / 64) < 0x80 := by
    rw [ofNat_lt ha, show (0x80 : UInt8).toNat = 0x80 from rfl]
    omega
  have hpair : (0xC2 ≤ UInt8.ofNat (0xC0 + n / 64) && UInt8.ofNat (0xC0 + n / 64) ≤ 0xDF
      && isTail (UInt8.ofNat (0x80 + n % 64))) = true := by
    rw [isTail_ofNat (Nat.mod_lt _ (by decide)), Bool.and_true, Bool.and_eq_true,
      decide_eq_true_eq, decide_eq_true_eq, le_ofNat ha, ofNat_le ha]
    change 0xC2 ≤ 0xC0 + n / 64 ∧ 0xC0 + n / 64 ≤ 0xDF
    omega
  rw [decodeOnto.eq_def]
  dsimp only
  rw [if_neg hlead]
  rw [if_pos hpair, pair, toNat_ofNat ha, toNat_ofNat hb,
    show (0xC0 + n / 64 - 0xC0) * 64 + (0x80 + n % 64 - 0x80) = n by omega]

theorem decodeOnto_triple (h : 0x800 ≤ n) (h' : n < 0xD800 ∨ 0xDFFF < n ∧ n < 0x10000) :
    decodeOnto done (UInt8.ofNat (0xE0 + n / 4096) :: UInt8.ofNat (0x80 + n / 64 % 64)
        :: UInt8.ofNat (0x80 + n % 64) :: s)
      = decodeOnto (Char.ofNat n :: done) s := by
  have ha : 0xE0 + n / 4096 < 256 := by omega
  have hb : 0x80 + n / 64 % 64 < 256 := by omega
  have hc : 0x80 + n % 64 < 256 := by omega
  have hlead : ¬UInt8.ofNat (0xE0 + n / 4096) < 0x80 := by
    rw [ofNat_lt ha, show (0x80 : UInt8).toNat = 0x80 from rfl]
    omega
  have hpair : ¬(0xC2 ≤ UInt8.ofNat (0xE0 + n / 4096) && UInt8.ofNat (0xE0 + n / 4096) ≤ 0xDF
      && isTail (UInt8.ofNat (0x80 + n / 64 % 64))) = true := by
    rw [Bool.and_eq_true, Bool.and_eq_true, decide_eq_true_eq, decide_eq_true_eq, le_ofNat ha,
      ofNat_le ha]
    simp only [UInt8.reduceToNat]
    omega
  have htriple : startsTriple (UInt8.ofNat (0xE0 + n / 4096)) (UInt8.ofNat (0x80 + n / 64 % 64))
      = true := by
    simp only [startsTriple, isTail_ofNat (Nat.mod_lt _ (show 64 > 0 by decide)), Bool.and_true,
      Bool.or_eq_true, Bool.and_eq_true, decide_eq_true_eq, beq_iff_eq, ← UInt8.toNat_inj,
      le_ofNat ha, ofNat_le ha, le_ofNat hb, ofNat_le hb, toNat_ofNat ha, UInt8.reduceToNat]
    omega
  rw [decodeOnto.eq_def]
  dsimp only
  rw [if_neg hlead]
  rw [if_neg hpair]
  rw [htriple, isTail_ofNat (Nat.mod_lt _ (by decide)), Bool.and_self, if_pos rfl, triple,
    toNat_ofNat ha, toNat_ofNat hb, toNat_ofNat hc,
    show (0xE0 + n / 4096 - 0xE0) * 4096 + (0x80 + n / 64 % 64 - 0x80) * 64
      + (0x80 + n % 64 - 0x80) = n by omega]

theorem decodeOnto_quadruple (h : 0x10000 ≤ n) (h' : n < 0x110000) :
    decodeOnto done (UInt8.ofNat (0xF0 + n / 262144) :: UInt8.ofNat (0x80 + n / 4096 % 64)
        :: UInt8.ofNat (0x80 + n / 64 % 64) :: UInt8.ofNat (0x80 + n % 64) :: s)
      = decodeOnto (Char.ofNat n :: done) s := by
  have ha : 0xF0 + n / 262144 < 256 := by omega
  have hb : 0x80 + n / 4096 % 64 < 256 := by omega
  have hc : 0x80 + n / 64 % 64 < 256 := by omega
  have hd : 0x80 + n % 64 < 256 := by omega
  have hlead : ¬UInt8.ofNat (0xF0 + n / 262144) < 0x80 := by
    rw [ofNat_lt ha, show (0x80 : UInt8).toNat = 0x80 from rfl]
    omega
  have hpair : ¬(0xC2 ≤ UInt8.ofNat (0xF0 + n / 262144) && UInt8.ofNat (0xF0 + n / 262144) ≤ 0xDF
      && isTail (UInt8.ofNat (0x80 + n / 4096 % 64))) = true := by
    rw [Bool.and_eq_true, Bool.and_eq_true, decide_eq_true_eq, decide_eq_true_eq, le_ofNat ha,
      ofNat_le ha]
    simp only [UInt8.reduceToNat]
    omega
  have htriple : startsTriple (UInt8.ofNat (0xF0 + n / 262144))
      (UInt8.ofNat (0x80 + n / 4096 % 64)) = false := by
    simp only [startsTriple, isTail_ofNat (Nat.mod_lt _ (show 64 > 0 by decide)), Bool.and_true,
      Bool.or_eq_false_iff, Bool.and_eq_false_iff, decide_eq_false_iff_not, beq_eq_false_iff_ne,
      ne_eq, ← UInt8.toNat_inj, le_ofNat ha, ofNat_le ha, le_ofNat hb, ofNat_le hb,
      toNat_ofNat ha, UInt8.reduceToNat]
    omega
  have hquadruple : startsQuadruple (UInt8.ofNat (0xF0 + n / 262144))
      (UInt8.ofNat (0x80 + n / 4096 % 64)) = true := by
    simp only [startsQuadruple, isTail_ofNat (Nat.mod_lt _ (show 64 > 0 by decide)),
      Bool.and_true, Bool.or_eq_true, Bool.and_eq_true, decide_eq_true_eq, beq_iff_eq,
      ← UInt8.toNat_inj, le_ofNat ha, ofNat_le ha, le_ofNat hb, ofNat_le hb, toNat_ofNat ha,
      UInt8.reduceToNat]
    omega
  -- the first two octets rule out every shorter form
  rw [decodeOnto.eq_def]
  dsimp only
  rw [if_neg hlead]
  rw [if_neg hpair]
  rw [htriple, Bool.false_and, if_neg Bool.false_ne_true]
  rw [hquadruple, isTail_ofNat (Nat.mod_lt _ (by decide)), isTail_ofNat (Nat.mod_lt _ (by decide)),
    Bool.and_self, Bool.and_self, if_pos rfl, quadruple, toNat_ofNat ha, toNat_ofNat hb,
    toNat_ofNat hc, toNat_ofNat hd,
    show (0xF0 + n / 262144 - 0xF0) * 262144 + (0x80 + n / 4096 % 64 - 0x80) * 4096
      + (0x80 + n / 64 % 64 - 0x80) * 64 + (0x80 + n % 64 - 0x80) = n by omega]

end Characters

theorem decodeOnto_encodeChar (done : List Char) (c : Char) (s : List UInt8) :
    decodeOnto done (encodeChar c ++ s) = decodeOnto (c :: done) s := by
  -- the code points of characters leave out the surrogates
  have hvalid : c.toNat < 0xD800 ∨ 0xDFFF < c.toNat ∧ c.toNat < 0x110000 := c.valid
  conv => rhs; rw [← Char.ofNat_toNat c]
  simp only [encodeChar]
  split
  · exact decodeOnto_single done s (by assumption)
  · split
    · exact decodeOnto_pair done s (by omega) (by assumption)
    · split
      · exact decodeOnto_triple done s (by omega) (by omega)
      · exact decodeOnto_quadruple done s (by omega) (by omega)

theorem decode_flatMap_encodeChar (cs : List Char) : decode (cs.flatMap encodeChar) = (cs, []) := by
  have h : ∀ done, decodeOnto done (cs.flatMap encodeChar) = (done.reverse ++ cs, []) := by
    induction cs with
    | nil =>
      intro done
      rw [List.flatMap_nil, decodeOnto, List.append_nil]
    | cons c cs ih =>
      intro done
      rw [List.flatMap_cons, decodeOnto_encodeChar, ih, List.reverse_cons, List.append_assoc]
      rfl
  exact h []

theorem encode_append (s t : String) : encode (s ++ t) = encode s ++ encode t := by
  rw [encode, String.toList_append, List.flatMap_append]
  rfl

end Accession.Text.Utf8
