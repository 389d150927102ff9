import Accession.Json.Reader
set_option autoImplicit false

namespace Accession.Json

mutual

/-- No object within has a key twice. -/
def Value.Distinct : Value → Prop
  | .arr items => DistinctItems items
  | .obj members => (Members.keys members).Nodup ∧ DistinctMembers members
  | _ => True

def DistinctItems : List Value → Prop
  | [] => True
  | v :: rest => v.Distinct ∧ DistinctItems rest

def DistinctMembers : List (String × Value) → Prop
  | [] => True
  | (_, v) :: rest => v.Distinct ∧ DistinctMembers rest

end

mutual

/-- The value with zero in the place of every number. -/
def Value.skeleton : Value → Value
  | .num _ => .num (.int 0)
  | .arr items => .arr (skeletonItems items)
  | .obj members => .obj (skeletonMembers members)
  | v => v

def skeletonItems : List Value → List Value
  | [] => []
  | v :: rest => v.skeleton :: skeletonItems rest

def skeletonMembers : List (String × Value) → List (String × Value)
  | [] => []
  | (key, v) :: rest => (key, v.skeleton) :: skeletonMembers rest

end

theorem skeletonItems_eq_map (items : List Value) :
    skeletonItems items = items.map Value.skeleton := by
  induction items with
  | nil => rfl
  | cons v rest ih => rw [skeletonItems, ih, List.map_cons]

theorem skeletonMembers_eq_map (members : Members) :
    skeletonMembers members = members.map (fun m => (m.1, m.2.skeleton)) := by
  induction members with
  | nil => rfl
  | cons m rest ih => rw [skeletonMembers, ih, List.map_cons]

theorem get?_skeletonMembers (members : Members) (key : String) :
    Members.get? (skeletonMembers members) key = (Members.get? members key).map Value.skeleton := by
  induction members with
  | nil => rfl
  | cons m rest ih =>
    rw [skeletonMembers, Members.get?_cons, Members.get?_cons, ih]
    split <;> rfl

theorem distinctItems_iff (items : List Value) :
    DistinctItems items ↔ ∀ v ∈ items, v.Distinct := by
  induction items with
  | nil => simp [DistinctItems]
  | cons v rest ih => simp [DistinctItems, ih]

theorem distinctMembers_iff (members : Members) :
    DistinctMembers members ↔ ∀ m ∈ members, m.2.Distinct := by
  induction members with
  | nil => simp [DistinctMembers]
  | cons m rest ih => simp [DistinctMembers, ih]

namespace Members

theorem mem_of_get?_eq_some {members : Members} {key : String} {v : Value}
    (h : get? members key = some v) : (key, v) ∈ members := by
  induction members with
  | nil => cases h
  | cons m rest ih =>
    rw [get?_cons] at h
    split at h
    · rename_i hkey
      cases h
      rw [← hkey]
      exact List.mem_cons_self
    · exact List.mem_cons_of_mem _ (ih h)

theorem insert_of_not_mem {members : Members} {key : String} (h : key ∉ keys members)
    (value : Value) : insert key value members = members ++ [(key, value)] := by
  induction members with
  | nil => rfl
  | cons m rest ih =>
    rw [keys, List.map_cons, List.mem_cons, not_or] at h
    rw [insert, if_neg (by simpa using Ne.symm h.1), ih h.2, List.cons_append]

theorem keys_insert_of_mem {members : Members} {key : String} (h : key ∈ keys members)
    (value : Value) : keys (insert key value members) = keys members := by
  induction members with
  | nil => cases h
  | cons m rest ih =>
    rw [insert]
    split
    · rename_i hkey
      rw [keys, keys, List.map_cons, List.map_cons, eq_of_beq hkey]
    · rename_i hkey
      rw [keys, List.map_cons, List.mem_cons] at h
      have hne : key ≠ m.1 := fun he => hkey (beq_iff_eq.2 he.symm)
      have hrest := ih (h.resolve_left hne)
      rw [keys] at hrest
      rw [keys, keys, List.map_cons, List.map_cons, hrest]
      rfl

theorem mem_insert {members : Members} {key : String} {value : Value} {m : String × Value}
    (h : m ∈ insert key value members) : m = (key, value) ∨ m ∈ members := by
  induction members with
  | nil => exact .inl (List.mem_singleton.1 h)
  | cons n rest ih =>
    rw [insert] at h
    split at h
    · obtain h | h := List.mem_cons.1 h
      · exact .inl h
      · exact .inr (List.mem_cons_of_mem _ h)
    · obtain h | h := List.mem_cons.1 h
      · exact .inr (h ▸ List.mem_cons_self)
      · exact (ih h).imp_right (List.mem_cons_of_mem _)

def Distinct (members : Members) : Prop :=
  Value.Distinct (.obj members)

theorem distinct_iff (members : Members) :
    members.Distinct ↔ (keys members).Nodup ∧ ∀ m ∈ members, m.2.Distinct := by
  rw [Distinct, Value.Distinct, distinctMembers_iff]

theorem nodup_insert {members : Members} (h : (keys members).Nodup) (key : String)
    (value : Value) : (keys (insert key value members)).Nodup := by
  by_cases hmem : key ∈ keys members
  · rw [keys_insert_of_mem hmem]
    exact h
  · rw [insert_of_not_mem hmem, keys, List.map_append, List.nodup_append]
    refine ⟨h, List.pairwise_singleton _ _, ?_⟩
    intro a ha b hb hab
    rw [List.map_singleton, List.mem_singleton] at hb
    rw [hab, hb] at ha
    exact hmem ha

theorem distinct_insert {members : Members} (h : members.Distinct) {value : Value}
    (hvalue : value.Distinct) (key : String) : Distinct (insert key value members) := by
  rw [distinct_iff] at h ⊢
  obtain ⟨hkeys, hvalues⟩ := h
  refine ⟨nodup_insert hkeys key value, ?_⟩
  intro m hm
  obtain rfl | hm := mem_insert hm
  · exact hvalue
  · exact hvalues m hm

theorem swapRemove_perm (key : String) (members : Members) :
    (swapRemove key members).Perm (members.eraseP (fun m => m.1 == key)) := by
  induction members with
  | nil => exact .refl _
  | cons m rest ih =>
    rw [swapRemove, List.eraseP_cons]
    cases hkey : m.1 == key with
    | true =>
      rw [if_pos rfl, cond_true]
      cases hlast : rest.getLast? with
      | none =>
        rw [List.getLast?_eq_none_iff] at hlast
        rw [hlast]
      | some last =>
        obtain ⟨front, rfl⟩ := List.getLast?_eq_some_iff.1 hlast
        rw [List.dropLast_concat]
        exact (List.perm_append_singleton last front).symm
    | false =>
      rw [if_neg Bool.false_ne_true, cond_false]
      exact ih.cons m

theorem get?_eq_some_iff {members : Members} (h : (keys members).Nodup) {key : String}
    {v : Value} : get? members key = some v ↔ (key, v) ∈ members := by
  refine ⟨mem_of_get?_eq_some, ?_⟩
  intro hmem
  induction members with
  | nil => cases hmem
  | cons m rest ih =>
    rw [keys, List.map_cons, List.nodup_cons] at h
    rw [get?_cons]
    obtain rfl | hmem := List.mem_cons.1 hmem
    · rw [if_pos rfl]
    · have hne : m.1 ≠ key := by
        intro he
        exact h.1 (he ▸ List.mem_map_of_mem hmem)
      rw [if_neg hne]
      exact ih h.2 hmem

theorem nodup_swapRemove {members : Members} (h : (keys members).Nodup) (key : String) :
    (keys (swapRemove key members)).Nodup := by
  have hsub : (keys (members.eraseP (fun m => m.1 == key))).Nodup :=
    (List.eraseP_sublist.map _).nodup h
  exact ((swapRemove_perm key members).map _).nodup_iff.2 hsub

theorem get?_swapRemove_self {members : Members} (h : (keys members).Nodup) (key : String) :
    get? (swapRemove key members) key = none := by
  have hnone : ∀ v, (key, v) ∉ members.eraseP (fun m => m.1 == key) := by
    intro v
    induction members with
    | nil => exact nofun
    | cons m rest ih =>
      rw [keys, List.map_cons, List.nodup_cons] at h
      rw [List.eraseP_cons]
      by_cases hkey : m.1 = key
      · rw [hkey, beq_self_eq_true, cond_true]
        exact fun hmem => h.1 (hkey ▸ List.mem_map_of_mem hmem)
      · rw [beq_eq_false_iff_ne.2 hkey, cond_false, List.mem_cons, not_or]
        exact ⟨fun hm => hkey (hm ▸ rfl), ih h.2⟩
  rw [Option.eq_none_iff_forall_ne_some]
  intro v hv
  exact hnone v ((swapRemove_perm key members).mem_iff.1 (mem_of_get?_eq_some hv))

theorem distinct_swapRemove {members : Members} (h : members.Distinct) (key : String) :
    Distinct (swapRemove key members) := by
  rw [distinct_iff] at h ⊢
  refine ⟨nodup_swapRemove h.1 key, ?_⟩
  intro m hm
  exact h.2 m (List.mem_of_mem_eraseP ((swapRemove_perm key members).mem_iff.1 hm))

theorem get?_swapRemove_of_ne {members : Members} (h : members.Distinct) {key other : String}
    (hne : key ≠ other) : get? (swapRemove key members) other = get? members other := by
  have hkeys := ((distinct_iff members).1 h).1
  apply Option.ext
  intro v
  rw [get?_eq_some_iff hkeys, get?_eq_some_iff (nodup_swapRemove hkeys key),
    (swapRemove_perm key members).mem_iff, List.mem_eraseP_of_neg]
  simpa using Ne.symm hne

end Members

section Reading

variable {fuel depth : Nat} {v : Value} {s s' : List UInt8}

/-- Where the next element of a list begins: past white space and, if it is not the first, a comma. -/
def Front (first : Bool) (s t : List UInt8) : Prop :=
  match first with
  | true => skipSpace s = t
  | false => ∃ u, skipSpace s = 0x2C :: u ∧ skipSpace u = t

section Walks

variable {σ : Type} {walk : Nat} {first : Bool} {acc acc' : σ}

theorem items_ok {item : σ → List UInt8 → Except Fault (σ × List UInt8)}
    (h : items item (walk + 1) first acc s = .ok (acc', s')) :
    (skipSpace s = 0x5D :: s' ∧ acc' = acc) ∨
      ∃ t acc₁ s₁, Front first s t ∧ item acc t = .ok (acc₁, s₁) ∧
        items item walk false acc₁ s₁ = .ok (acc', s') := by
  rw [items] at h
  split at h
  · cases h
  · rename_i b t hskip
    split at h
    · rename_i hb
      cases h
      rw [hskip, eq_of_beq hb]
      exact .inl ⟨rfl, rfl⟩
    · refine .inr ?_
      cases first with
      | true =>
        rw [if_pos rfl] at h
        split at h
        · cases h
        · rename_i acc₁ s₁ hitem
          exact ⟨_, acc₁, s₁, hskip, hitem, h⟩
      | false =>
        rw [if_neg Bool.false_ne_true] at h
        split at h
        · cases h
        · rename_i hb
          obtain rfl : b = 0x2C := by simpa using hb
          split at h
          · cases h
          · rename_i hskip'
            split at h
            · cases h
            · split at h
              · cases h
              · rename_i acc₁ s₁ hitem
                exact ⟨_, acc₁, s₁, ⟨t, hskip, hskip'⟩, hitem, h⟩

theorem members_ok {member : String → σ → List UInt8 → Except Fault (σ × List UInt8)}
    (h : members member (walk + 1) first acc s = .ok (acc', s')) :
    (skipSpace s = 0x7D :: s' ∧ acc' = acc) ∨
      ∃ t key u acc₁ s₁, Front first s (0x22 :: t) ∧ Literal.read t = .ok (key, u) ∧
        member key acc u = .ok (acc₁, s₁) ∧
        members member walk false acc₁ s₁ = .ok (acc', s') := by
  rw [members] at h
  split at h
  · cases h
  · rename_i b t hskip
    split at h
    · rename_i hb
      cases h
      rw [hskip, eq_of_beq hb]
      exact .inl ⟨rfl, rfl⟩
    · refine .inr ?_
      cases first with
      | true =>
        rw [if_pos rfl] at h
        split at h
        · cases h
        · rename_i hquote
          obtain rfl : b = 0x22 := by simpa using hquote
          split at h
          · cases h
          · rename_i key u hkey
            split at h
            · cases h
            · rename_i acc₁ s₁ hmember
              exact ⟨t, key, u, acc₁, s₁, hskip, hkey, hmember, h⟩
      | false =>
        rw [if_neg Bool.false_ne_true] at h
        split at h
        · cases h
        · rename_i hb
          obtain rfl : b = 0x2C := by simpa using hb
          split at h
          · cases h
          · rename_i c t' hskip'
            split at h
            · cases h
            · split at h
              · cases h
              · rename_i hquote
                obtain rfl : c = 0x22 := by simpa using hquote
                split at h
                · cases h
                · rename_i key u hkey
                  split at h
                  · cases h
                  · rename_i acc₁ s₁ hmember
                    exact ⟨t', key, u, acc₁, s₁, ⟨t, hskip, hskip'⟩, hkey, hmember, h⟩

theorem items_keep {P : σ → Prop} {item : σ → List UInt8 → Except Fault (σ × List UInt8)}
    (step : ∀ {acc s acc' s'}, P acc → item acc s = .ok (acc', s') → P acc') (hacc : P acc)
    (h : items item walk first acc s = .ok (acc', s')) : P acc' := by
  induction walk generalizing first acc s with
  | zero => cases h
  | succ walk ih =>
    obtain ⟨-, rfl⟩ | ⟨_, _, _, -, hitem, hrest⟩ := items_ok h
    · exact hacc
    · exact ih (step hacc hitem) hrest

theorem members_keep {P : σ → Prop}
    {member : String → σ → List UInt8 → Except Fault (σ × List UInt8)}
    (step : ∀ {key acc s acc' s'}, P acc → member key acc s = .ok (acc', s') → P acc')
    (hacc : P acc) (h : members member walk first acc s = .ok (acc', s')) : P acc' := by
  induction walk generalizing first acc s with
  | zero => cases h
  | succ walk ih =>
    obtain ⟨-, rfl⟩ | ⟨_, _, _, _, _, -, -, hmember, hrest⟩ := members_ok h
    · exact hacc
    · exact ih (step hacc hmember) hrest

end Walks

theorem map_ok {α β : Type} {x : Except Fault (α × List UInt8)} {f : α → β} {b : β}
    (h : x.map (fun (a, s) => (f a, s)) = .ok (b, s')) : ∃ a, x = .ok (a, s') ∧ f a = b := by
  cases x with
  | error e => cases h
  | ok p =>
    cases h
    exact ⟨p.1, rfl, rfl⟩

theorem item_ok {acc acc' : List Value}
    (h : (readValue fuel depth s).map (fun (v, s) => (v :: acc, s)) = .ok (acc', s')) :
    ∃ v, readValue fuel depth s = .ok (v, s') ∧ acc' = v :: acc := by
  obtain ⟨v, hv, rfl⟩ := map_ok (f := fun v => v :: acc) h
  exact ⟨v, hv, rfl⟩

theorem member_ok {key : String} {acc acc' : Members}
    (h : (do
      let s ← readColon s
      let (v, s) ← readValue fuel depth s
      return (Members.insert key v acc, s)) = Except.ok (acc', s')) :
    ∃ t v, readColon s = .ok t ∧ readValue fuel depth t = .ok (v, s') ∧
      acc' = Members.insert key v acc := by
  simp only [bind, Except.bind] at h
  split at h
  · cases h
  · rename_i t hcolon
    split at h
    · cases h
    · rename_i p hv
      cases h
      exact ⟨t, p.1, hcolon, hv, rfl⟩

theorem name_ok {name : List UInt8} {w : Value}
    (h : (readName name s).map (fun s => (w, s)) = .ok (v, s')) :
    readName name s = .ok s' ∧ v = w := by
  cases hname : readName name s with
  | error e =>
    rw [hname] at h
    cases h
  | ok t =>
    rw [hname] at h
    cases h
    exact ⟨rfl, rfl⟩

/-- A property, at the depth that is left, that is kept by everything a value is read from. -/
structure Built (P : Nat → Value → Prop) : Prop where
  null : ∀ depth, P depth .null
  bool : ∀ depth b, P depth (.bool b)
  num : ∀ depth negative s n s', Numeral.read negative s = .ok (n, s') → P depth (.num n)
  str : ∀ depth text, P depth (.str text)
  arr : ∀ depth vs, (∀ v ∈ vs, P depth v) → P (depth + 1) (.arr vs)
  obj : ∀ depth ms, (Members.keys ms).Nodup → (∀ m ∈ ms, P depth m.2) → P (depth + 1) (.obj ms)

theorem Built.read {P : Nat → Value → Prop} (built : Built P)
    (h : readValue fuel depth s = .ok (v, s')) : P depth v := by
  fun_induction readValue fuel depth s generalizing v s' with
  | case1 | case8 | case10 | case12 => cases h
  | case2 =>
    obtain ⟨-, rfl⟩ := name_ok h
    exact built.null _
  | case3 | case4 =>
    obtain ⟨-, rfl⟩ := name_ok h
    exact built.bool _ _
  | case5 | case6 =>
    obtain ⟨_, hn, rfl⟩ := map_ok h
    exact built.num _ _ _ _ _ hn
  | case7 =>
    obtain ⟨_, -, rfl⟩ := map_ok h
    exact built.str _ _
  | case9 s b t _ _ _ _ _ _ _ _ depth ih =>
    obtain ⟨vs, hitems, rfl⟩ := map_ok (f := fun vs : List Value => Value.arr vs.reverse) h
    have hvs : ∀ v ∈ vs, P depth v := by
      refine items_keep (P := fun vs : List Value => ∀ v ∈ vs, P depth v) ?_
        (List.forall_mem_nil _) hitems
      intro acc s acc' s' hacc hitem
      obtain ⟨v, hv, rfl⟩ := item_ok hitem
      exact List.forall_mem_cons.2 ⟨ih s hv, hacc⟩
    exact built.arr depth _ (fun v hv => hvs v (List.mem_reverse.1 hv))
  | case11 s b t _ _ _ _ _ _ _ _ _ depth ih =>
    obtain ⟨ms, hmembers, rfl⟩ := map_ok h
    -- a key that comes again overwrites its member, so keys stay distinct
    obtain ⟨hkeys, hms⟩ : (Members.keys ms).Nodup ∧ ∀ m ∈ ms, P depth m.2 := by
      refine members_keep (P := fun ms : Members => (Members.keys ms).Nodup ∧ ∀ m ∈ ms, P depth m.2)
        ?_ ?_ hmembers
      · rintro key acc s acc' s' ⟨hkeys, hacc⟩ hmember
        obtain ⟨t, v, -, hv, rfl⟩ := member_ok hmember
        refine ⟨Members.nodup_insert hkeys key v, ?_⟩
        intro m hm
        obtain rfl | hm := Members.mem_insert hm
        · exact ih t hv
        · exact hacc m hm
      · exact ⟨List.nodup_nil, List.forall_mem_nil _⟩
    exact built.obj depth ms hkeys hms

theorem built_distinct : Built (fun _ v => v.Distinct) where
  null _ := trivial
  bool _ _ := trivial
  num _ _ _ _ _ _ := trivial
  str _ _ := trivial
  arr _ vs hvs := (distinctItems_iff vs).2 hvs
  obj _ ms hkeys hms := (Members.distinct_iff ms).2 ⟨hkeys, hms⟩

theorem readValue_obj (fuel depth : Nat) (t : List UInt8) :
    readValue fuel (depth + 1) (0x7B :: t)
      = (members (fun key acc s => do
            let s ← readColon s
            let (v, s) ← readValue fuel depth s
            return (Members.insert key v acc, s))
          fuel true [] t).map (fun (ms, s) => (.obj ms, s)) := by
  rw [readValue]
  rfl

theorem parseObject_ok {text : List UInt8} {ms : Members} (h : parseObject text = .ok ms) :
    ∃ t s', skipSpace text = 0x7B :: t ∧
      readValue text.length maxDepth (0x7B :: t) = .ok (.obj ms, s') ∧ skipSpace s' = [] := by
  unfold parseObject at h
  dsimp only at h
  split at h
  · rename_i t hskip
    have hobj := readValue_obj text.length 126 t
    cases hread : readValue text.length maxDepth (0x7B :: t) with
    | error e =>
      rw [hread] at h
      cases h
    | ok p =>
      obtain ⟨v, s'⟩ := p
      obtain ⟨ms', -, rfl⟩ := map_ok (hobj.symm.trans hread)
      rw [hread] at h
      simp only [bind, Except.bind, readEnd] at h
      cases hend : skipSpace s' with
      | nil =>
        rw [hend] at h
        cases h
        exact ⟨t, s', hskip, hread, hend⟩
      | cons b u =>
        rw [hend] at h
        cases h
  · cases h

theorem parseObject_distinct {text : List UInt8} {ms : Members}
    (h : parseObject text = .ok ms) : ms.Distinct := by
  obtain ⟨t, s', -, hread, -⟩ := parseObject_ok h
  exact built_distinct.read hread

end Reading

end Accession.Json
