import Accession.Proofs.Json.Numerals
set_option autoImplicit false

namespace Accession.Json

open Text.Utf8 (encodeChar)

def Printable (s : List UInt8) : Prop := ∀ b ∈ s, 0x20 ≤ b

theorem Printable.append {s t : List UInt8} (hs : Printable s) (ht : Printable t) :
    Printable (s ++ t) :=
  List.forall_mem_append.2 ⟨hs, ht⟩

theorem Printable.cons {b : UInt8} {s : List UInt8} (hb : 0x20 ≤ b) (hs : Printable s) :
    Printable (b :: s) :=
  List.forall_mem_cons.2 ⟨hb, hs⟩

theorem Printable.no_line_feed {s : List UInt8} (h : Printable s) : 0x0A ∉ s := by
  intro hmem
  exact absurd (h _ hmem) (by decide)

section Strings

theorem printable_encodeChar {c : Char} (h : 0x20 ≤ c.toNat) : Printable (encodeChar c) := by
  by_cases hquote : c.toNat = 0x22
  · obtain rfl : c = '"' := Char.toNat_inj.1 hquote
    exact .cons (by decide) nofun
  by_cases hescape : c.toNat = 0x5C
  · obtain rfl : c = '\\' := Char.toNat_inj.1 hescape
    exact .cons (by decide) nofun
  intro b hb
  have hverbatim := Literal.isVerbatim_encodeChar h hquote hescape b hb
  simp only [Literal.isVerbatim, Bool.and_eq_true, decide_eq_true_eq] at hverbatim
  exact hverbatim.1.2

theorem escaped_ge {d : Char} (h : 0x20 ≤ d.toNat) : ∀ c ∈ ['\\', d], 0x20 ≤ c.toNat :=
  List.forall_mem_cons.2 ⟨by decide, List.forall_mem_singleton.2 h⟩

theorem escapeChar_ge (c : Char) : ∀ d ∈ escapeChar c, 0x20 ≤ d.toNat := by
  have hdigit : ∀ n, n < 16 → 0x20 ≤ (Nat.digitChar n).toNat := by decide
  unfold escapeChar
  split
  · exact escaped_ge (by decide)
  split
  · exact escaped_ge (by decide)
  split
  · exact escaped_ge (by decide)
  split
  · exact escaped_ge (by decide)
  split
  · exact escaped_ge (by decide)
  split
  · exact escaped_ge (by decide)
  split
  · exact escaped_ge (by decide)
  split
  · simp only [List.forall_mem_cons]
    refine ⟨by decide, by decide, by decide, by decide, ?_, hdigit _ (Nat.mod_lt _ (by decide)),
      nofun⟩
    split <;> decide
  · rename_i hcontrol
    intro d hd
    rw [List.mem_singleton.1 hd]
    omega

theorem printable_quoted (s : String) : Printable (quoted s) := by
  refine .cons (by decide) (.append ?_ (.cons (by decide) nofun))
  intro b hb
  obtain ⟨d, hd, hb⟩ := List.mem_flatMap.1 hb
  obtain ⟨c, -, hd⟩ := List.mem_flatMap.1 hd
  exact printable_encodeChar (escapeChar_ge c d hd) b hb

end Strings

section Numbers

namespace Numeral

theorem Digits.printable {ds : List UInt8} (h : Digits ds) : Printable ds := by
  intro b hb
  have hdigit := h b hb
  simp only [isDigit, Bool.and_eq_true, decide_eq_true_eq] at hdigit
  exact UInt8.le_trans (by decide) hdigit.1

theorem Exponent.printable {e : List UInt8} (h : Exponent e) : Printable e := by
  cases h with
  | none => exact nofun
  | some hsign hds =>
    refine .cons (by decide) (.cons ?_ hds.printable)
    obtain rfl | rfl := hsign <;> decide

theorem Unsigned.printable {u : List UInt8} (h : Unsigned u) : Printable u := by
  obtain ⟨hd, hds, hf⟩ := h
  rename_i d ds f
  have hfraction : Printable f := by
    cases hf with
    | none he => exact he.printable
    | some hds he => exact .cons (by decide) (.append hds.printable he.printable)
  exact .append (s := [d]) (Digits.printable (List.forall_mem_singleton.2 hd))
    (.append hds.printable hfraction)

end Numeral

theorem printable_number (n : Number) : Printable (n.render.flatMap encodeChar) := by
  obtain ⟨u, hu, h | h⟩ := Numeral.number_unsigned n
  · rw [h]
    exact hu.printable
  · rw [h]
    exact .cons (by decide) hu.printable

end Numbers

theorem printable_separator (first : Bool) : Printable (separator first) := by
  cases first with
  | true => exact nofun
  | false => exact .cons (by decide) nofun

mutual

theorem printable_octets : (v : Value) → Printable (octets v)
  | .null => by
    rw [octets]
    exact .cons (by decide) (.cons (by decide) (.cons (by decide) (.cons (by decide) nofun)))
  | .bool true => by
    rw [octets]
    exact .cons (by decide) (.cons (by decide) (.cons (by decide) (.cons (by decide) nofun)))
  | .bool false => by
    rw [octets]
    exact .cons (by decide)
      (.cons (by decide) (.cons (by decide) (.cons (by decide) (.cons (by decide) nofun))))
  | .num n => by
    rw [octets]
    exact printable_number n
  | .str s => by
    rw [octets]
    exact printable_quoted s
  | .arr items => by
    rw [octets]
    exact .cons (by decide) ((printable_itemOctets true items).append (.cons (by decide) nofun))
  | .obj members => by
    rw [octets]
    exact .cons (by decide)
      ((printable_memberOctets true members).append (.cons (by decide) nofun))

theorem printable_itemOctets (first : Bool) : (items : List Value) →
    Printable (itemOctets first items)
  | [] => nofun
  | v :: rest => by
    rw [itemOctets]
    exact (printable_separator first).append
      ((printable_octets v).append (printable_itemOctets false rest))

theorem printable_memberOctets (first : Bool) : (members : List (String × Value)) →
    Printable (memberOctets first members)
  | [] => nofun
  | (key, v) :: rest => by
    rw [memberOctets]
    exact (printable_separator first).append ((printable_quoted key).append
      (.cons (by decide) ((printable_octets v).append (printable_memberOctets false rest))))

end

end Accession.Json
