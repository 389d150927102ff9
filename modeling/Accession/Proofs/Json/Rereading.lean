import Accession.Proofs.Json.Decimals
set_option autoImplicit false

namespace Accession.Json

open Numeral (Marked)
open Text.Utf8 (encode)

mutual

def Value.Legible : Value → Prop
  | .num n => n.Legible
  | .arr items => LegibleItems items
  | .obj members => LegibleMembers members
  | _ => True

def LegibleItems : List Value → Prop
  | [] => True
  | v :: rest => v.Legible ∧ LegibleItems rest

def LegibleMembers : List (String × Value) → Prop
  | [] => True
  | (_, v) :: rest => v.Legible ∧ LegibleMembers rest

end

mutual

/-- The value with every number as its text is read. -/
def Value.reread : Value → Value
  | .num n => .num n.reread
  | .arr items => .arr (rereadItems items)
  | .obj members => .obj (rereadMembers members)
  | v => v

def rereadItems : List Value → List Value
  | [] => []
  | v :: rest => v.reread :: rereadItems rest

def rereadMembers : List (String × Value) → List (String × Value)
  | [] => []
  | (key, v) :: rest => (key, v.reread) :: rereadMembers rest

end

mutual

def Value.height : Value → Nat
  | .arr items => itemsHeight items + 1
  | .obj members => membersHeight members + 1
  | _ => 0

def itemsHeight : List Value → Nat
  | [] => 0
  | v :: rest => max v.height (itemsHeight rest)

def membersHeight : List (String × Value) → Nat
  | [] => 0
  | (_, v) :: rest => max v.height (membersHeight rest)

end

theorem legibleItems_iff (items : List Value) :
    LegibleItems items ↔ ∀ v ∈ items, v.Legible := by
  induction items with
  | nil => simp [LegibleItems]
  | cons v rest ih => simp [LegibleItems, ih]

theorem legibleMembers_iff (members : Members) :
    LegibleMembers members ↔ ∀ m ∈ members, m.2.Legible := by
  induction members with
  | nil => simp [LegibleMembers]
  | cons m rest ih => simp [LegibleMembers, ih]

theorem rereadItems_eq_map (items : List Value) : rereadItems items = items.map Value.reread := by
  induction items with
  | nil => rfl
  | cons v rest ih => rw [rereadItems, ih, List.map_cons]

theorem itemsHeight_le (items : List Value) (depth : Nat) :
    itemsHeight items ≤ depth ↔ ∀ v ∈ items, v.height ≤ depth := by
  induction items with
  | nil => simp [itemsHeight]
  | cons v rest ih => rw [itemsHeight, Nat.max_le, ih, List.forall_mem_cons]

theorem membersHeight_le (members : Members) (depth : Nat) :
    membersHeight members ≤ depth ↔ ∀ m ∈ members, m.2.height ≤ depth := by
  induction members with
  | nil => simp [membersHeight]
  | cons m rest ih => rw [membersHeight, Nat.max_le, ih, List.forall_mem_cons]

section Walks

variable {σ : Type} {walk : Nat} {first : Bool} {acc acc₁ : σ} {s s₁ : List UInt8}

theorem items_close (item : σ → List UInt8 → Except Fault (σ × List UInt8)) (walk : Nat)
    (first : Bool) (acc : σ) (s : List UInt8) :
    items item (walk + 1) first acc (0x5D :: s) = .ok (acc, s) := by
  rw [items]
  rfl

theorem items_next {item : σ → List UInt8 → Except Fault (σ × List UInt8)} (v : Value)
    (h : item acc (octets v ++ s) = .ok (acc₁, s₁)) :
    items item (walk + 1) first acc (separator first ++ (octets v ++ s))
      = items item walk false acc₁ s₁ := by
  obtain ⟨b, t, hv, hspace, hclose⟩ := octets_head v
  rw [hv, List.cons_append] at h ⊢
  rw [items]
  cases first with
  | true =>
    rw [separator, if_pos rfl, List.nil_append, skipSpace_of_not_space hspace]
    dsimp only
    rw [hclose, if_neg Bool.false_ne_true, if_pos rfl, h]
  | false =>
    rw [separator, if_neg Bool.false_ne_true, List.singleton_append,
      skipSpace_of_not_space (b := 0x2C) rfl]
    dsimp only
    rw [if_neg (by decide), if_neg Bool.false_ne_true, if_neg (by decide),
      skipSpace_of_not_space hspace]
    dsimp only
    rw [hclose, if_neg Bool.false_ne_true, h]

theorem members_close (member : String → σ → List UInt8 → Except Fault (σ × List UInt8))
    (walk : Nat) (first : Bool) (acc : σ) (s : List UInt8) :
    members member (walk + 1) first acc (0x7D :: s) = .ok (acc, s) := by
  rw [members]
  rfl

theorem members_next {member : String → σ → List UInt8 → Except Fault (σ × List UInt8)}
    (key : String) (h : member key acc s = .ok (acc₁, s₁)) :
    members member (walk + 1) first acc (separator first ++ (quoted key ++ s))
      = members member walk false acc₁ s₁ := by
  have hkey := Literal.read_quoted key s
  rw [quoted_append, members]
  cases first with
  | true =>
    rw [separator, if_pos rfl, List.nil_append, skipSpace_of_not_space (b := 0x22) rfl]
    dsimp only
    rw [if_neg (by decide), if_pos rfl, if_neg (by decide), hkey]
    dsimp only
    rw [h]
  | false =>
    rw [separator, if_neg Bool.false_ne_true, List.singleton_append,
      skipSpace_of_not_space (b := 0x2C) rfl]
    dsimp only
    rw [if_neg (by decide), if_neg Bool.false_ne_true, if_neg (by decide),
      skipSpace_of_not_space (b := 0x22) rfl]
    dsimp only
    rw [if_neg (by decide), if_neg (by decide), hkey]
    dsimp only
    rw [h]

end Walks

section Lengths

theorem length_items_le (first : Bool) (vs : List Value) :
    vs.length ≤ (itemOctets first vs).length := by
  induction vs generalizing first with
  | nil => exact Nat.zero_le _
  | cons v rest ih =>
    obtain ⟨b, t, hv, -, -⟩ := octets_head v
    have hrest := ih false
    rw [itemOctets, hv]
    simp only [List.length_append, List.length_cons]
    omega

theorem length_members_le (first : Bool) (ms : Members) :
    ms.length ≤ (memberOctets first ms).length := by
  induction ms generalizing first with
  | nil => exact Nat.zero_le _
  | cons m rest ih =>
    have hrest := ih false
    rw [memberOctets]
    simp only [List.length_append, List.length_cons]
    omega

end Lengths

mutual

/-- The octets of a value are read, if the fuel is as much as they are. -/
theorem readValue_reread (fuel : Nat) : (v : Value) → (depth : Nat) → v.Distinct → v.Legible →
    v.height ≤ depth → (octets v).length ≤ fuel → ∀ s : List UInt8, Marked s →
      readValue fuel depth (octets v ++ s) = .ok (v.reread, s)
  | .null, depth, _, _, _, _ => fun s _ => readValue_null fuel depth s
  | .bool b, depth, _, _, _, _ => fun s _ => readValue_bool fuel depth b s
  | .num n, depth, _, hlegible, _, _ => fun s hs => readValue_num fuel depth hlegible hs
  | .str text, depth, _, _, _, _ => by
    intro s _
    rw [octets, quoted_append, readValue_str, Literal.read_quoted]
    rfl
  | .arr vs, 0, _, _, hheight, _ => by
    rw [Value.height] at hheight
    omega
  | .arr vs, depth + 1, hdistinct, hlegible, hheight, hfuel => by
    intro s _
    have hlength := length_items_le true vs
    rw [octets] at hfuel ⊢
    simp only [List.length_cons, List.length_append, List.length_nil] at hfuel
    rw [List.cons_append, List.append_assoc, readValue_arr]
    have hitems := items_reread fuel vs depth hdistinct hlegible
      (by rw [Value.height] at hheight; omega) fuel true (by omega) [] s
      (Nat.le_trans (by omega) hfuel)
    rw [show itemOctets true vs ++ ([0x5D] ++ s) = itemOctets true vs ++ 0x5D :: s from rfl, hitems]
    simp [Except.map, Value.reread]
  | .obj ms, 0, _, _, hheight, _ => by
    rw [Value.height] at hheight
    omega
  | .obj ms, depth + 1, hdistinct, hlegible, hheight, hfuel => by
    intro s _
    have hlength := length_members_le true ms
    rw [octets] at hfuel ⊢
    simp only [List.length_cons, List.length_append, List.length_nil] at hfuel
    rw [List.cons_append, List.append_assoc, readValue_obj]
    have hmembers := members_reread fuel ms depth hdistinct.2 hlegible
      (by rw [Value.height] at hheight; omega) fuel true (by omega) [] s hdistinct.1
      (Nat.le_trans (by omega) hfuel)
    rw [show memberOctets true ms ++ ([0x7D] ++ s) = memberOctets true ms ++ 0x7D :: s from rfl,
      hmembers]
    rfl

theorem items_reread (fuel : Nat) : (vs : List Value) → (depth : Nat) → DistinctItems vs →
    LegibleItems vs → itemsHeight vs ≤ depth → ∀ (walk : Nat) (first : Bool), vs.length < walk →
    ∀ (acc : List Value) (s : List UInt8), (itemOctets first vs).length ≤ fuel →
      items (fun acc s => (readValue fuel depth s).map (fun (v, s) => (v :: acc, s))) walk first acc
        (itemOctets first vs ++ 0x5D :: s) = .ok ((rereadItems vs).reverse ++ acc, s)
  | [], depth, _, _, _ => by
    intro walk first hwalk acc s _
    obtain ⟨walk, rfl⟩ : ∃ k, walk = k + 1 := ⟨walk - 1, by omega⟩
    exact items_close _ walk first acc s
  | v :: rest, depth, hdistinct, hlegible, hheight => by
    intro walk first hwalk acc s hfuel
    obtain ⟨walk, rfl⟩ : ∃ k, walk = k + 1 := ⟨walk - 1, by omega⟩
    rw [itemsHeight] at hheight
    rw [itemOctets] at hfuel ⊢
    simp only [List.length_append, List.length_cons] at hfuel hwalk
    have hv := readValue_reread fuel v depth hdistinct.1 hlegible.1 (by omega) (by omega) _
      (marked_itemOctets rest s)
    have hrest := items_reread fuel rest depth hdistinct.2 hlegible.2 (by omega) walk false (by omega)
      (v.reread :: acc) s (by omega)
    rw [List.append_assoc, List.append_assoc, items_next v (by rw [hv]; rfl), hrest, rereadItems,
      List.reverse_cons, List.append_assoc]
    rfl

theorem members_reread (fuel : Nat) : (ms : List (String × Value)) → (depth : Nat) →
    DistinctMembers ms → LegibleMembers ms → membersHeight ms ≤ depth →
    ∀ (walk : Nat) (first : Bool), ms.length < walk → ∀ (acc : Members) (s : List UInt8),
      (Members.keys (acc ++ ms)).Nodup → (memberOctets first ms).length ≤ fuel →
      members (fun key acc s => do
          let s ← readColon s
          let (v, s) ← readValue fuel depth s
          return (Members.insert key v acc, s)) walk first acc
        (memberOctets first ms ++ 0x7D :: s) = .ok (acc ++ rereadMembers ms, s)
  | [], depth, _, _, _ => by
    intro walk first hwalk acc s _ _
    obtain ⟨walk, rfl⟩ : ∃ k, walk = k + 1 := ⟨walk - 1, by omega⟩
    rw [rereadMembers, List.append_nil]
    exact members_close _ walk first acc s
  | (key, v) :: rest, depth, hdistinct, hlegible, hheight => by
    intro walk first hwalk acc s hkeys hfuel
    obtain ⟨walk, rfl⟩ : ∃ k, walk = k + 1 := ⟨walk - 1, by omega⟩
    rw [membersHeight] at hheight
    rw [memberOctets] at hfuel ⊢
    simp only [List.length_append, List.length_cons] at hfuel hwalk
    have hv := readValue_reread fuel v depth hdistinct.1 hlegible.1 (by omega) (by omega) _
      (marked_memberOctets rest s)
    -- the key is new, so the member goes to the end
    have hnew : key ∉ Members.keys acc := by
      rw [Members.keys, List.map_append, List.map_cons, List.nodup_append] at hkeys
      intro hmem
      exact hkeys.2.2 key hmem key List.mem_cons_self rfl
    have hmember : (do
        let s ← readColon (0x3A :: (octets v ++ (memberOctets false rest ++ 0x7D :: s)))
        let (v, s) ← readValue fuel depth s
        return (Members.insert key v acc, s)) = Except.ok (ε := Fault)
          (acc ++ [(key, v.reread)], memberOctets false rest ++ 0x7D :: s) := by
      rw [show readColon (0x3A :: (octets v ++ (memberOctets false rest ++ 0x7D :: s)))
        = .ok (octets v ++ (memberOctets false rest ++ 0x7D :: s)) from rfl]
      simp only [bind, Except.bind, hv, Members.insert_of_not_mem hnew]
      rfl
    have hrest := members_reread fuel rest depth hdistinct.2 hlegible.2 (by omega) walk false
      (by omega) (acc ++ [(key, v.reread)]) s
      (by
        rw [List.append_assoc, List.singleton_append, Members.keys, List.map_append] at *
        exact hkeys)
      (by omega)
    rw [List.append_assoc, List.append_assoc, List.cons_append, List.append_assoc,
      members_next key hmember, hrest, rereadMembers, List.append_assoc, List.singleton_append]

end

theorem built_height : Built (fun depth v => v.height ≤ depth) where
  null := Nat.zero_le
  bool depth _ := Nat.zero_le depth
  num depth _ _ _ _ _ := Nat.zero_le depth
  str depth _ := Nat.zero_le depth
  arr depth vs hvs := Nat.succ_le_succ ((itemsHeight_le vs depth).2 hvs)
  obj depth ms _ hms := Nat.succ_le_succ ((membersHeight_le ms depth).2 hms)

theorem built_legible : Built (fun _ v => v.Legible) where
  null _ := trivial
  bool _ _ := trivial
  num _ _ _ _ _ h := Numeral.read_legible h
  str _ _ := trivial
  arr _ vs hvs := (legibleItems_iff vs).2 hvs
  obj _ ms _ hms := (legibleMembers_iff ms).2 hms

/-- A property that every text has, and lists and objects of which everything within has it. -/
structure Hereditary (p : Value → Prop) : Prop where
  str : ∀ s, p (.str s)
  arr : ∀ items, p (.arr items) ↔ ∀ v ∈ items, p v
  obj : ∀ members, p (.obj members) ↔ ∀ m ∈ members, p m.2

theorem hereditary_legible : Hereditary Value.Legible :=
  ⟨fun _ => trivial, legibleItems_iff, legibleMembers_iff⟩

/-- An object that a reader may yield, of which every value has a property. -/
structure Members.Bounded (p : Value → Prop) (ms : Members) : Prop where
  distinct : ms.Distinct
  values : ∀ m ∈ ms, p m.2
  height : ∀ m ∈ ms, m.2.height < maxDepth

namespace Members.Bounded

variable {p : Value → Prop} {ms : Members}

theorem of_parseObject {text : List UInt8} (h : parseObject text = .ok ms) :
    ms.Bounded Value.Legible := by
  obtain ⟨t, s', -, hread, -⟩ := parseObject_ok h
  have hlegible : LegibleMembers ms := built_legible.read hread
  have hheight := built_height.read hread
  have hdepth : membersHeight ms ≤ 126 := by
    rw [Value.height, maxDepth] at hheight
    omega
  exact ⟨parseObject_distinct h, (legibleMembers_iff ms).1 hlegible,
    fun m hm => Nat.lt_succ_of_le ((membersHeight_le ms 126).1 hdepth m hm)⟩

theorem insert (h : ms.Bounded p) {v : Value} (distinct : v.Distinct) (value : p v)
    (height : v.height < maxDepth) (key : String) : (ms.insert key v).Bounded p where
  distinct := distinct_insert h.distinct distinct key
  values m hm := by
    obtain rfl | hm := mem_insert hm
    · exact value
    · exact h.values m hm
  height m hm := by
    obtain rfl | hm := mem_insert hm
    · exact height
    · exact h.height m hm

theorem swapRemove (h : ms.Bounded p) (key : String) : (ms.swapRemove key).Bounded p where
  distinct := distinct_swapRemove h.distinct key
  values m hm := h.values m (List.mem_of_mem_eraseP ((swapRemove_perm key ms).mem_iff.1 hm))
  height m hm := h.height m (List.mem_of_mem_eraseP ((swapRemove_perm key ms).mem_iff.1 hm))

/-- The text of an object is read as the object, each number as its own text is read. -/
theorem parseObject_render (h : ms.Bounded Value.Legible) :
    parseObject (encode ms.render) = .ok (rereadMembers ms) := by
  have htext : encode ms.render = octets (.obj ms) ++ [] := by
    rw [Members.render, encode_render, List.append_nil]
  have hskip : skipSpace (octets (.obj ms) ++ []) = octets (.obj ms) ++ [] := by
    rw [octets, List.cons_append]
    exact skipSpace_of_not_space rfl _
  have hheight : Value.height (.obj ms) ≤ maxDepth := by
    have hdepth : membersHeight ms ≤ 126 :=
      (membersHeight_le ms 126).2 (fun m hm => Nat.le_of_lt_succ (h.height m hm))
    rw [Value.height, maxDepth]
    omega
  have hread := readValue_reread (octets (.obj ms) ++ []).length (.obj ms) maxDepth h.distinct
    ((legibleMembers_iff ms).2 h.values) hheight (Nat.le_of_eq (by rw [List.append_nil])) []
    trivial
  have hstart : ∃ t, octets (.obj ms) ++ [] = 0x7B :: t := ⟨_, by rw [octets, List.cons_append]⟩
  obtain ⟨t, ht⟩ := hstart
  rw [htext]
  rw [ht] at hskip hread ⊢
  unfold parseObject
  rw [hskip]
  simp only [bind, Except.bind, hread]
  rfl

end Members.Bounded

section Members

theorem reread_arr (items : List Value) :
    (Value.arr items).reread = .arr (items.map Value.reread) := by
  rw [Value.reread, rereadItems_eq_map]

theorem reread_obj (ms : Members) : (Value.obj ms).reread = .obj (rereadMembers ms) := rfl

variable (ms : Members) (key : String)

theorem get?_rereadMembers :
    Members.get? (rereadMembers ms) key = (ms.get? key).map Value.reread := by
  induction ms with
  | nil => rfl
  | cons m rest ih =>
    obtain ⟨other, v⟩ := m
    rw [rereadMembers, Members.get?_cons, Members.get?_cons, ih]
    split <;> rfl

theorem member?_reread (v : Value) : v.reread.member? key = (v.member? key).map Value.reread := by
  cases v with
  | obj members => exact get?_rereadMembers members key
  | null | bool | num | str | arr => rfl

end Members

end Accession.Json
