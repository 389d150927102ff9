import Accession.Proofs.Json.Rereading
set_option autoImplicit false

namespace Accession.Json

open Numeral (Marked)
open Text.Utf8 (encode)

/-- An integer of 64 bits, with or without a sign. Minus zero reads as a number of its own. -/
def Number.Whole : Number → Prop
  | .int n => Text.Integer.min64 ≤ n ∧ n ≤ Text.Integer.maxUnsigned64
  | .float negative m => negative = true ∧ m = Binary64.Magnitude.zero

mutual

def Value.Whole : Value → Prop
  | .num n => n.Whole
  | .arr items => WholeItems items
  | .obj members => WholeMembers members
  | _ => True

def WholeItems : List Value → Prop
  | [] => True
  | v :: rest => v.Whole ∧ WholeItems rest

def WholeMembers : List (String × Value) → Prop
  | [] => True
  | (_, v) :: rest => v.Whole ∧ WholeMembers rest

end

theorem wholeItems_iff (items : List Value) : WholeItems items ↔ ∀ v ∈ items, v.Whole := by
  induction items with
  | nil => simp [WholeItems]
  | cons v rest ih => simp [WholeItems, ih]

theorem wholeMembers_iff (members : Members) :
    WholeMembers members ↔ ∀ m ∈ members, m.2.Whole := by
  induction members with
  | nil => simp [WholeMembers]
  | cons m rest ih => simp [WholeMembers, ih]

theorem Number.Whole.legible {n : Number} (h : n.Whole) : n.Legible ∧ n.reread = n := by
  cases n with
  | int n => exact ⟨h, rfl⟩
  | float negative m =>
    obtain ⟨rfl, rfl⟩ := h
    exact ⟨Numeral.zero_finite, rfl⟩

mutual

theorem Value.Whole.legible : {v : Value} → v.Whole → v.Legible ∧ v.reread = v
  | .null, _ | .bool _, _ | .str _, _ => ⟨trivial, rfl⟩
  | .num _, h => (Number.Whole.legible h).imp_right (congrArg Value.num)
  | .arr _, h => (wholeItems_legible h).imp_right (congrArg Value.arr)
  | .obj _, h => (wholeMembers_legible h).imp_right (congrArg Value.obj)

theorem wholeItems_legible : {items : List Value} → WholeItems items →
    LegibleItems items ∧ rereadItems items = items
  | [], _ => ⟨trivial, rfl⟩
  | _ :: _, ⟨hv, hrest⟩ => by
    obtain ⟨hlegible, hsame⟩ := hv.legible
    obtain ⟨hlegible', hsame'⟩ := wholeItems_legible hrest
    exact ⟨⟨hlegible, hlegible'⟩, by rw [rereadItems, hsame, hsame']⟩

theorem wholeMembers_legible : {members : List (String × Value)} → WholeMembers members →
    LegibleMembers members ∧ rereadMembers members = members
  | [], _ => ⟨trivial, rfl⟩
  | (_, _) :: _, ⟨hv, hrest⟩ => by
    obtain ⟨hlegible, hsame⟩ := hv.legible
    obtain ⟨hlegible', hsame'⟩ := wholeMembers_legible hrest
    exact ⟨⟨hlegible, hlegible'⟩, by rw [rereadMembers, hsame, hsame']⟩

end

theorem readValue_exact (fuel : Nat) (v : Value) (depth : Nat) (hdistinct : v.Distinct)
    (hwhole : v.Whole) (hheight : v.height ≤ depth) (hfuel : (octets v).length ≤ fuel)
    (s : List UInt8) (hs : Marked s) : readValue fuel depth (octets v ++ s) = .ok (v, s) := by
  obtain ⟨hlegible, hsame⟩ := hwhole.legible
  have hread := readValue_reread fuel v depth hdistinct hlegible hheight hfuel s hs
  rwa [hsame] at hread

/-- An object that can be written and read back as it is. -/
structure Members.Readable (ms : Members) : Prop where
  distinct : ms.Distinct
  whole : ∀ m ∈ ms, m.2.Whole
  height : ∀ m ∈ ms, m.2.height < maxDepth

theorem hereditary_whole : Hereditary Value.Whole :=
  ⟨fun _ => trivial, wholeItems_iff, wholeMembers_iff⟩

namespace Members

variable {ms : Members}

theorem readable_iff : ms.Readable ↔ ms.Bounded Value.Whole :=
  ⟨fun h => ⟨h.distinct, h.whole, h.height⟩, fun h => ⟨h.distinct, h.values, h.height⟩⟩

namespace Readable

theorem of_parseObject {text : List UInt8} (h : parseObject text = .ok ms)
    (whole : ∀ m ∈ ms, m.2.Whole) : ms.Readable where
  distinct := parseObject_distinct h
  whole := whole
  height := (Bounded.of_parseObject h).height

theorem insert (h : ms.Readable) {v : Value} (distinct : v.Distinct) (whole : v.Whole)
    (height : v.height < maxDepth) (key : String) : (ms.insert key v).Readable :=
  readable_iff.2 ((readable_iff.1 h).insert distinct whole height key)

theorem parseObject_render (h : ms.Readable) : parseObject (encode ms.render) = .ok ms := by
  obtain ⟨hlegible, hsame⟩ := wholeMembers_legible ((wholeMembers_iff ms).2 h.whole)
  have hread := Bounded.parseObject_render
    ⟨h.distinct, (legibleMembers_iff ms).1 hlegible, h.height⟩
  rwa [hsame] at hread

end Readable

end Members

end Accession.Json
