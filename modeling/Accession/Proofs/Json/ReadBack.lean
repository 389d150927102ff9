import Accession.Proofs.Json.Numerals
import Accession.Proofs.Json.Values
set_option autoImplicit false

namespace Accession.Json

open Numeral (Marked Unsigned)
open Text.Utf8 (encode encodeChar)

section Heads

theorem skipSpace_of_not_space {b : UInt8} (h : isSpace b = false) (t : List UInt8) :
    skipSpace (b :: t) = b :: t := by
  rw [skipSpace, List.dropWhile_cons, if_neg (by simp [h])]

theorem isDigit_not_space {b : UInt8} (h : Numeral.isDigit b = true) : isSpace b = false := by
  simp only [Numeral.isDigit, Bool.and_eq_true, decide_eq_true_eq, UInt8.le_iff_toNat_le,
    UInt8.reduceToNat] at h
  simp only [isSpace, Bool.or_eq_false_iff, beq_eq_false_iff_ne, ne_eq, ← UInt8.toNat_inj,
    UInt8.reduceToNat]
  omega

theorem octets_head (v : Value) :
    ∃ b t, octets v = b :: t ∧ isSpace b = false ∧ (b == 0x5D) = false := by
  cases v with
  | null => exact ⟨_, _, rfl, rfl, rfl⟩
  | bool b => cases b <;> exact ⟨_, _, rfl, rfl, rfl⟩
  | str s => exact ⟨_, _, rfl, rfl, rfl⟩
  | arr items => exact ⟨_, _, rfl, rfl, rfl⟩
  | obj members => exact ⟨_, _, rfl, rfl, rfl⟩
  | num n =>
    rw [octets]
    obtain ⟨u, hu, h | h⟩ := Numeral.number_unsigned n
    · obtain ⟨hd, -, -⟩ := hu
      refine ⟨_, _, h, isDigit_not_space hd, ?_⟩
      rw [beq_eq_false_iff_ne]
      rintro rfl
      cases hd
    · exact ⟨_, _, h, rfl, rfl⟩

end Heads

section Scalars

variable {fuel depth : Nat} {v' : Value} {s s' : List UInt8}

theorem readValue_null (fuel depth : Nat) (t : List UInt8) :
    readValue fuel depth (octets .null ++ t) = .ok (.null, t) := by
  rw [readValue]
  rfl

theorem readValue_bool (fuel depth : Nat) (b : Bool) (t : List UInt8) :
    readValue fuel depth (octets (.bool b) ++ t) = .ok (.bool b, t) := by
  rw [readValue]
  cases b <;> rfl

theorem readValue_str (fuel depth : Nat) (t : List UInt8) :
    readValue fuel depth (0x22 :: t) = (Literal.read t).map (fun (x, s) => (.str x, s)) := by
  rw [readValue]
  rfl

theorem readValue_minus (fuel depth : Nat) (t : List UInt8) :
    readValue fuel depth (0x2D :: t) = (Numeral.read true t).map (fun (n, s) => (.num n, s)) := by
  rw [readValue]
  rfl

theorem readValue_digit (fuel depth : Nat) {b : UInt8} (h : Numeral.isDigit b = true)
    (t : List UInt8) :
    readValue fuel depth (b :: t)
      = (Numeral.read false (b :: t)).map (fun (n, s) => (.num n, s)) := by
  have hne : ∀ c : UInt8, Numeral.isDigit c = false → (b == c) = false := by
    intro c hc
    rw [beq_eq_false_iff_ne]
    rintro rfl
    rw [h] at hc
    cases hc
  rw [readValue, skipSpace_of_not_space (isDigit_not_space h)]
  simp only [hne 0x6E rfl, hne 0x74 rfl, hne 0x66 rfl, hne 0x2D rfl, h, if_true, if_false,
    Bool.false_eq_true]

theorem readValue_arr (fuel depth : Nat) (t : List UInt8) :
    readValue fuel (depth + 1) (0x5B :: t)
      = (items (fun acc s => (readValue fuel depth s).map (fun (v, s) => (v :: acc, s)))
          fuel true [] t).map (fun (vs, s) => (.arr vs.reverse, s)) := by
  rw [readValue]
  rfl

theorem readValue_number {n : Number} (hs : Marked s)
    (h : readValue fuel depth (octets (.num n) ++ s) = .ok (v', s')) :
    s' = s ∧ v'.skeleton = (Value.num n).skeleton := by
  rw [octets] at h
  obtain ⟨u, hu, hnum | hnum⟩ := Numeral.number_unsigned n
  · rw [hnum] at h
    have hrest : readValue fuel depth (u ++ s)
        = (Numeral.read false (u ++ s)).map (fun (n, s) => (.num n, s)) := by
      obtain ⟨hd, -, -⟩ := hu
      exact readValue_digit fuel depth hd _
    rw [hrest] at h
    obtain ⟨n', hread, rfl⟩ := map_ok h
    exact ⟨Numeral.read_rest hs hu hread, rfl⟩
  · rw [hnum, List.cons_append, readValue_minus] at h
    obtain ⟨n', hread, rfl⟩ := map_ok h
    exact ⟨Numeral.read_rest hs hu hread, rfl⟩

end Scalars

theorem marked_itemOctets (vs : List Value) (s : List UInt8) :
    Marked (itemOctets false vs ++ 0x5D :: s) := by
  cases vs with
  | nil => exact .inr (.inl rfl)
  | cons v rest => exact .inl rfl

theorem marked_memberOctets (ms : Members) (s : List UInt8) :
    Marked (memberOctets false ms ++ 0x7D :: s) := by
  cases ms with
  | nil => exact .inr (.inr rfl)
  | cons m rest => exact .inl rfl

theorem quoted_append (text : String) (s : List UInt8) :
    quoted text ++ s
      = 0x22 :: ((text.toList.flatMap escapeChar).flatMap encodeChar ++ 0x22 :: s) := by
  rw [quoted, List.cons_append, List.append_assoc]
  rfl

section Walks

variable {σ : Type} {walk : Nat} {acc acc' : σ} {s s' : List UInt8}

theorem front_separator {first : Bool} {b : UInt8} {t u : List UInt8} (hspace : isSpace b = false)
    (h : Front first (separator first ++ b :: t) u) : u = b :: t := by
  cases first with
  | true => exact h.symm.trans (skipSpace_of_not_space hspace t)
  | false =>
    obtain ⟨v, hcomma, hu⟩ := h
    have hskip : skipSpace (0x2C :: b :: t) = 0x2C :: b :: t := skipSpace_of_not_space rfl _
    obtain rfl : b :: t = v := (List.cons.inj (hskip.symm.trans hcomma)).2
    exact hu.symm.trans (skipSpace_of_not_space hspace t)

theorem not_closed {first : Bool} {b c : UInt8} {t u : List UInt8} (hspace : isSpace b = false)
    (hb : b ≠ c) (hc : 0x2C ≠ c) : skipSpace (separator first ++ b :: t) ≠ c :: u := by
  intro h
  cases first with
  | true => exact hb (List.cons.inj ((skipSpace_of_not_space hspace t).symm.trans h)).1
  | false =>
    have hskip : skipSpace (0x2C :: b :: t) = 0x2C :: b :: t := skipSpace_of_not_space rfl _
    exact hc (List.cons.inj (hskip.symm.trans h)).1

theorem items_written {item : σ → List UInt8 → Except Fault (σ × List UInt8)} {first : Bool}
    {vs : List Value}
    (h : items item walk first acc (itemOctets first vs ++ 0x5D :: s) = .ok (acc', s')) :
    (vs = [] ∧ acc' = acc ∧ s' = s) ∨
      ∃ v rest walk' acc₁ s₁, vs = v :: rest ∧
        item acc (octets v ++ (itemOctets false rest ++ 0x5D :: s)) = .ok (acc₁, s₁) ∧
        items item walk' false acc₁ s₁ = .ok (acc', s') := by
  cases walk with
  | zero => cases h
  | succ walk =>
    cases vs with
    | nil =>
      rw [itemOctets, List.nil_append, items] at h
      cases h
      exact .inl ⟨rfl, rfl, rfl⟩
    | cons v rest =>
      obtain ⟨b, t, hv, hspace, hclose⟩ := octets_head v
      have htext : itemOctets first (v :: rest) ++ 0x5D :: s
          = separator first ++ b :: (t ++ (itemOctets false rest ++ 0x5D :: s)) := by
        rw [itemOctets, hv, List.append_assoc, List.append_assoc, List.cons_append]
      rw [htext] at h
      obtain ⟨hclosed, -⟩ | ⟨u, acc₁, s₁, hfront, hitem, hrest⟩ := items_ok h
      · exact absurd hclosed (not_closed hspace (by simpa using hclose) (by decide))
      · rw [front_separator hspace hfront] at hitem
        refine .inr ⟨v, rest, walk, acc₁, s₁, rfl, ?_, hrest⟩
        rw [hv]
        exact hitem

theorem members_written {member : String → σ → List UInt8 → Except Fault (σ × List UInt8)}
    {first : Bool} {ms : Members}
    (h : members member walk first acc (memberOctets first ms ++ 0x7D :: s) = .ok (acc', s')) :
    (ms = [] ∧ acc' = acc ∧ s' = s) ∨
      ∃ key v rest walk' acc₁ s₁, ms = (key, v) :: rest ∧
        member key acc (0x3A :: (octets v ++ (memberOctets false rest ++ 0x7D :: s)))
          = .ok (acc₁, s₁) ∧
        members member walk' false acc₁ s₁ = .ok (acc', s') := by
  cases walk with
  | zero => cases h
  | succ walk =>
    cases ms with
    | nil =>
      rw [memberOctets, List.nil_append, members] at h
      cases h
      exact .inl ⟨rfl, rfl, rfl⟩
    | cons m rest =>
      obtain ⟨key, v⟩ := m
      have htext : memberOctets first ((key, v) :: rest) ++ 0x7D :: s
          = separator first ++ 0x22 :: ((key.toList.flatMap escapeChar).flatMap encodeChar
            ++ 0x22 :: 0x3A :: (octets v ++ (memberOctets false rest ++ 0x7D :: s))) := by
        rw [memberOctets, List.append_assoc, List.append_assoc, quoted_append, List.cons_append,
          List.append_assoc]
      rw [htext] at h
      obtain ⟨hclosed, -⟩ | ⟨t, key', u, acc₁, s₁, hfront, hkey, hmember, hrest⟩ := members_ok h
      · exact absurd hclosed (not_closed rfl (by decide) (by decide))
      · obtain rfl := (List.cons.inj (front_separator rfl hfront)).2
        rw [Literal.read_quoted] at hkey
        cases hkey
        exact .inr ⟨key, v, rest, walk, acc₁, s₁, rfl, hmember, hrest⟩

end Walks

mutual

theorem readValue_octets (fuel : Nat) : (v : Value) → (depth : Nat) → v.Distinct →
    ∀ (s s' : List UInt8) (v' : Value), Marked s →
      readValue fuel depth (octets v ++ s) = .ok (v', s') → s' = s ∧ v'.skeleton = v.skeleton
  | .null, _, _ => by
    intro s s' v' _ h
    rw [readValue_null] at h
    cases h
    exact ⟨rfl, rfl⟩
  | .bool b, _, _ => by
    intro s s' v' _ h
    rw [readValue_bool] at h
    cases h
    exact ⟨rfl, rfl⟩
  | .num n, _, _ => by
    intro s s' v' hs h
    exact readValue_number hs h
  | .str text, _, _ => by
    intro s s' v' _ h
    rw [octets, quoted_append, readValue_str, Literal.read_quoted] at h
    cases h
    exact ⟨rfl, rfl⟩
  | .arr vs, 0, _ => by
    intro s s' v' _ h
    cases h
  | .arr vs, depth + 1, hdistinct => by
    intro s s' v' _ h
    rw [octets, List.cons_append, List.append_assoc, readValue_arr] at h
    obtain ⟨acc', hitems, rfl⟩ := map_ok (f := fun vs : List Value => Value.arr vs.reverse) h
    obtain ⟨rfl, hacc⟩ := items_octets fuel vs depth hdistinct _ _ _ _ _ _ hitems
    refine ⟨rfl, ?_⟩
    rw [Value.skeleton, Value.skeleton, skeletonItems_eq_map, skeletonItems_eq_map, hacc]
    rfl
  | .obj ms, 0, _ => by
    intro s s' v' _ h
    cases h
  | .obj ms, depth + 1, hdistinct => by
    intro s s' v' _ h
    rw [octets, List.cons_append, List.append_assoc, readValue_obj] at h
    obtain ⟨acc', hmembers, rfl⟩ := map_ok h
    obtain ⟨rfl, hacc⟩ := members_octets fuel ms depth hdistinct.2 _ _ _ _ _ _
      (by rw [List.nil_append]; exact hdistinct.1) hmembers
    refine ⟨rfl, ?_⟩
    rw [Value.skeleton, Value.skeleton, skeletonMembers_eq_map, skeletonMembers_eq_map, hacc]
    rfl

theorem items_octets (fuel : Nat) : (vs : List Value) → (depth : Nat) → DistinctItems vs →
    ∀ (walk : Nat) (first : Bool) (acc acc' : List Value) (s s' : List UInt8),
      items (fun acc s => (readValue fuel depth s).map (fun (v, s) => (v :: acc, s))) walk first acc
        (itemOctets first vs ++ 0x5D :: s) = .ok (acc', s') →
      s' = s ∧ acc'.reverse.map Value.skeleton
        = acc.reverse.map Value.skeleton ++ vs.map Value.skeleton
  | [], depth, _ => by
    intro walk first acc acc' s s' h
    obtain ⟨-, rfl, rfl⟩ | ⟨_, _, _, _, _, hvs, -⟩ := items_written h
    · exact ⟨rfl, (List.append_nil _).symm⟩
    · cases hvs
  | v :: rest, depth, hdistinct => by
    intro walk first acc acc' s s' h
    obtain ⟨hvs, -⟩ | ⟨_, _, walk', acc₁, s₁, hvs, hitem, hrest⟩ := items_written h
    · cases hvs
    · cases hvs
      obtain ⟨v', hv, rfl⟩ := item_ok hitem
      obtain ⟨rfl, hv'⟩ :=
        readValue_octets fuel v depth hdistinct.1 _ _ _ (marked_itemOctets rest s) hv
      obtain ⟨rfl, hacc⟩ := items_octets fuel rest depth hdistinct.2 _ _ _ _ _ _ hrest
      refine ⟨rfl, ?_⟩
      rw [hacc, List.reverse_cons, List.map_append, List.map_singleton, hv', List.map_cons,
        List.append_assoc]
      rfl

theorem members_octets (fuel : Nat) : (ms : List (String × Value)) → (depth : Nat) →
    DistinctMembers ms →
    ∀ (walk : Nat) (first : Bool) (acc acc' : Members) (s s' : List UInt8),
      (Members.keys (acc ++ ms)).Nodup →
      members (fun key acc s => do
          let s ← readColon s
          let (v, s) ← readValue fuel depth s
          return (Members.insert key v acc, s)) walk first acc
        (memberOctets first ms ++ 0x7D :: s) = .ok (acc', s') →
      s' = s ∧ acc'.map (fun m => (m.1, m.2.skeleton))
        = acc.map (fun m => (m.1, m.2.skeleton)) ++ ms.map (fun m => (m.1, m.2.skeleton))
  | [], depth, _ => by
    intro walk first acc acc' s s' _ h
    obtain ⟨-, rfl, rfl⟩ | ⟨_, _, _, _, _, _, hms, -⟩ := members_written h
    · exact ⟨rfl, (List.append_nil _).symm⟩
    · cases hms
  | (key, v) :: rest, depth, hdistinct => by
    intro walk first acc acc' s s' hkeys h
    obtain ⟨hms, -⟩ | ⟨_, _, _, walk', acc₁, s₁, hms, hmember, hrest⟩ := members_written h
    · cases hms
    · cases hms
      obtain ⟨t, v', hcolon, hv, rfl⟩ := member_ok hmember
      cases hcolon
      obtain ⟨rfl, hv'⟩ :=
        readValue_octets fuel v depth hdistinct.1 _ _ _ (marked_memberOctets rest s) hv
      -- the key is new, so the member goes to the end
      have hnew : key ∉ Members.keys acc := by
        rw [Members.keys, List.map_append, List.map_cons, List.nodup_append] at hkeys
        intro hmem
        exact hkeys.2.2 key hmem key List.mem_cons_self rfl
      rw [Members.insert_of_not_mem hnew] at hrest
      obtain ⟨rfl, hacc⟩ := members_octets fuel rest depth hdistinct.2 _ _ _ _ _ _
        (by simpa only [Members.keys, List.map_append, List.map_cons, List.map_nil,
              List.append_assoc, List.singleton_append] using hkeys) hrest
      refine ⟨rfl, ?_⟩
      rw [hacc, List.map_append, List.map_singleton, hv', List.map_cons, List.append_assoc]
      rfl

end

/-- Whatever object the text of an object reads as, it is the object itself but for its numbers. -/
theorem parseObject_render {ms ms' : Members} (h : ms.Distinct)
    (hparse : parseObject (encode ms.render) = .ok ms') :
    skeletonMembers ms' = skeletonMembers ms := by
  obtain ⟨t, s', hskip, hread, -⟩ := parseObject_ok hparse
  have htext : encode ms.render = octets (.obj ms) ++ [] := by
    rw [Members.render, encode_render, List.append_nil]
  have hsame : skipSpace (octets (.obj ms) ++ []) = octets (.obj ms) ++ [] := by
    rw [octets, List.cons_append]
    exact skipSpace_of_not_space rfl _
  rw [htext, hsame] at hskip
  rw [← hskip] at hread
  have hend : Marked [] := trivial
  obtain ⟨-, hskeleton⟩ := readValue_octets _ (.obj ms) maxDepth h _ _ _ hend hread
  rw [Value.skeleton, Value.skeleton] at hskeleton
  exact Value.obj.inj hskeleton

end Accession.Json
