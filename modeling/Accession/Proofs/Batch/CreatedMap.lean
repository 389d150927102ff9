import Accession.Batch.Created
import Mathlib.Data.List.Basic
set_option autoImplicit false

namespace Accession.Batch.Created

/-- An identifier stands in the index with a place exactly if the entry at that place has it. -/
def Indexed (created : Created) : Prop :=
  ∀ (k : String) (i : Nat), created.index[k]? = some i ↔ (created.entries[i]?).map (·.1) = some k

theorem indexed_empty : Indexed empty := by
  intro k i
  simp [empty]

theorem toList_empty : empty.toList = [] := rfl

theorem get?_empty (k : String) : empty.get? k = none := by
  simp [get?, empty]

theorem isSome_lookup_iff {entries : List (String × Persisted)} {k : String} :
    (entries.lookup k).isSome ↔ k ∈ entries.map (·.1) := by
  rw [List.lookup_isSome_iff, List.mem_map]
  simp only [beq_iff_eq, @eq_comm _ k]

section

variable {created : Created} (h : created.Indexed) {k : String}

include h

theorem index_eq_none (hk : created.get? k = none) : created.index[k]? = none := by
  cases hi : created.index[k]? with
  | none => rfl
  | some i =>
    obtain ⟨entry, he, -⟩ := Option.map_eq_some_iff.1 ((h k i).1 hi)
    simp [get?, hi, he] at hk

theorem mem_of_get?_eq_some {v : Persisted} (hk : created.get? k = some v) :
    (k, v) ∈ created.toList := by
  obtain ⟨i, hi, hv⟩ := Option.bind_eq_some_iff.1 hk
  obtain ⟨⟨k', v'⟩, he, rfl⟩ := Option.map_eq_some_iff.1 hv
  have hkey := (h k i).1 hi
  rw [he] at hkey
  obtain rfl : k' = k := by simpa using hkey
  rw [toList, Array.mem_toList_iff]
  exact Array.mem_of_getElem? he

theorem insert_new (hk : created.get? k = none) (v : Persisted) :
    created.insert k v =
      ({ entries := created.entries.push (k, v)
         index := created.index.insert k created.entries.size }, true) := by
  have hi := index_eq_none h hk
  simp [insert, Std.TreeMap.contains_eq_isSome_getElem?, hi]

theorem toList_insert (hk : created.get? k = none) (v : Persisted) :
    (created.insert k v).1.toList = created.toList ++ [(k, v)] := by
  rw [insert_new h hk, toList, toList, Array.toList_push]

theorem indexed_insert (hk : created.get? k = none) (v : Persisted) :
    Indexed (created.insert k v).1 := by
  intro k' i
  have hi := index_eq_none h hk
  have hold := h k' i
  rw [insert_new h hk]
  simp only [Std.TreeMap.getElem?_insert, Array.getElem?_push, Std.LawfulEqCmp.compare_eq_iff_eq]
  by_cases hsize : i = created.entries.size
  · -- the place of the new entry was free, so no identifier had it
    subst i
    have hfree : created.index[k']? ≠ some created.entries.size := by
      intro hc
      simpa using hold.1 hc
    by_cases hkk : k = k' <;> simp [hkk, hfree]
  · by_cases hkk : k = k'
    · subst k'
      simp only [hi] at hold
      simp only [if_true, hsize, if_false, Option.some.injEq]
      exact ⟨fun hc => absurd hc.symm hsize, fun hc => absurd (hold.2 hc) (by simp)⟩
    · simpa [hkk, hsize] using hold

theorem get?_eq_some_iff {v : Persisted} :
    created.get? k = some v ↔ (k, v) ∈ created.toList := by
  refine ⟨mem_of_get?_eq_some h, ?_⟩
  intro hmem
  obtain ⟨i, hentry⟩ := Array.mem_iff_getElem?.1 (Array.mem_toList_iff.1 hmem)
  have hindex : created.index[k]? = some i := (h k i).2 (by rw [hentry]; rfl)
  rw [get?, hindex, Option.bind_some, hentry]
  rfl

theorem get?_eq_lookup (k : String) : created.get? k = created.toList.lookup k := by
  cases hk : created.toList.lookup k with
  | some v =>
    obtain ⟨front, rest, hlist, -⟩ := List.lookup_eq_some_iff.1 hk
    exact (get?_eq_some_iff h).2 (hlist ▸ List.mem_append_right _ List.mem_cons_self)
  | none =>
    rw [Option.eq_none_iff_forall_ne_some]
    intro v hv
    have hne := List.lookup_eq_none_iff.1 hk (k, v) (mem_of_get?_eq_some h hv)
    simp at hne

theorem get?_of_not_mem (hk : k ∉ created.toList.map (·.1)) : created.get? k = none := by
  rwa [get?_eq_lookup h, ← Option.not_isSome_iff_eq_none, isSome_lookup_iff]

theorem nodup_keys : (created.toList.map (·.1)).Nodup := by
  have hplace : ∀ i (hi : i < created.toList.length),
      created.index[created.toList[i].1]? = some i := by
    intro i hi
    refine (h _ i).2 ?_
    rw [← Array.getElem?_toList, show created.entries.toList = created.toList from rfl,
      List.getElem?_eq_getElem hi]
    rfl
  rw [List.Nodup, List.pairwise_map, List.pairwise_iff_getElem]
  intro i j hi hj hij hkey
  have hj' := hplace j hj
  rw [← hkey, hplace i hi, Option.some.injEq] at hj'
  omega

end

section Calls

variable {created : Created} (h : created.Indexed)

include h

theorem contains_eq_isSome (k : String) : created.contains k = (created.get? k).isSome := by
  rw [contains, Std.TreeMap.contains_eq_isSome_getElem?]
  cases hk : created.get? k with
  | none =>
    rw [index_eq_none h hk]
    rfl
  | some v =>
    obtain ⟨i, hi, -⟩ := Option.bind_eq_some_iff.1 hk
    rw [hi]
    rfl

theorem insert_cases (k : String) (v : Persisted) :
    (created.get? k).isSome ∧ created.insert k v = (created, false) ∨
      created.get? k = none ∧ (created.insert k v).2 = true := by
  have hcontains := contains_eq_isSome h k
  cases hk : created.get? k with
  | some w =>
    rw [hk] at hcontains
    exact .inl ⟨rfl, if_pos hcontains⟩
  | none => exact .inr ⟨rfl, by rw [insert_new h hk]⟩

theorem Indexed.insert (k : String) (v : Persisted) : Indexed (created.insert k v).1 := by
  obtain ⟨-, hsame⟩ | ⟨hnew, -⟩ := insert_cases h k v
  · rwa [hsame]
  · exact indexed_insert h hnew v

theorem get?_insert (k : String) (v : Persisted) (other : String) :
    (created.insert k v).1.get? other = (created.get? other).or ([(k, v)].lookup other) := by
  obtain ⟨htaken, hsame⟩ | ⟨hnew, -⟩ := insert_cases h k v
  · rw [hsame]
    by_cases hother : other = k
    · obtain ⟨w, hw⟩ := Option.isSome_iff_exists.1 htaken
      rw [hother, hw, Option.some_or]
    · rw [List.lookup_cons, beq_false_of_ne hother, List.lookup_nil, Option.or_none]
  · rw [get?_eq_lookup (indexed_insert h hnew v), toList_insert h hnew, List.lookup_append,
      get?_eq_lookup h]

theorem fresh_insert {α : Type} {key : α → String} {x : α} {rest : List α}
    (fresh : ∀ y ∈ x :: rest, created.get? (key y) = none)
    (distinct : ((x :: rest).map key).Nodup) (v : Persisted) :
    ∀ y ∈ rest, (created.insert (key x) v).1.get? (key y) = none := by
  intro y hy
  rw [List.map_cons, List.nodup_cons] at distinct
  have hne : key y ≠ key x := fun hsame => distinct.1 (hsame ▸ List.mem_map_of_mem hy)
  rw [get?_insert h, fresh y (List.mem_cons_of_mem _ hy), Option.none_or, List.lookup_cons,
    beq_false_of_ne hne, List.lookup_nil]

end Calls

/-- The map agrees with the insertions that were asked of it, in this order: an identifier has the
record of its first insertion, and the identifiers stand in the order of their first insertions. -/
structure Follows (calls : List (String × Persisted)) (created : Created) : Prop where
  indexed : created.Indexed
  firsts : ∀ k, created.get? k = calls.lookup k
  ordered : (created.toList.map (·.1)).Pairwise
    (fun k k' => (calls.map (·.1)).idxOf k < (calls.map (·.1)).idxOf k')

namespace Follows

theorem empty : Follows [] Created.empty :=
  ⟨indexed_empty, get?_empty, .nil⟩

variable {calls : List (String × Persisted)} {created : Created} (h : Follows calls created)

include h

theorem mem_toList_iff {k : String} {v : Persisted} :
    (k, v) ∈ created.toList ↔ calls.lookup k = some v := by
  rw [← get?_eq_some_iff h.indexed, h.firsts]

theorem mem_calls {entry : String × Persisted} (hentry : entry ∈ created.toList) :
    entry ∈ calls := by
  obtain ⟨front, rest, hcalls, -⟩ := List.lookup_eq_some_iff.1 (h.mem_toList_iff.1 hentry)
  rw [hcalls]
  exact List.mem_append_right _ List.mem_cons_self

theorem isSome_get?_iff {k : String} : (created.get? k).isSome ↔ k ∈ calls.map (·.1) := by
  rw [h.firsts, isSome_lookup_iff]

theorem mem_keys_iff {k : String} : k ∈ created.toList.map (·.1) ↔ k ∈ calls.map (·.1) := by
  rw [← h.isSome_get?_iff, get?_eq_lookup h.indexed, isSome_lookup_iff]

theorem get?_eq_none_iff {k : String} : created.get? k = none ↔ k ∉ calls.map (·.1) := by
  rw [← h.isSome_get?_iff, Option.not_isSome_iff_eq_none]

theorem ordered_concat (call : String × Persisted) :
    (created.toList.map (·.1)).Pairwise (fun k k' =>
      ((calls ++ [call]).map (·.1)).idxOf k < ((calls ++ [call]).map (·.1)).idxOf k') := by
  refine h.ordered.imp_of_mem ?_
  intro k k' hk hk' hlt
  rw [List.map_append, List.idxOf_append_of_mem (h.mem_keys_iff.1 hk),
    List.idxOf_append_of_mem (h.mem_keys_iff.1 hk')]
  exact hlt

theorem insert (k : String) (v : Persisted) :
    Follows (calls ++ [(k, v)]) (created.insert k v).1 where
  indexed := h.indexed.insert k v
  firsts other := by rw [get?_insert h.indexed, List.lookup_append, h.firsts]
  ordered := by
    obtain ⟨-, hsame⟩ | ⟨hnew, -⟩ := insert_cases h.indexed k v
    · rw [hsame]
      exact h.ordered_concat (k, v)
    · have hkeys : (created.insert k v).1.toList.map (·.1) = created.toList.map (·.1) ++ [k] := by
        rw [toList_insert h.indexed hnew, List.map_append, List.map_singleton]
      rw [hkeys, List.pairwise_append]
      refine ⟨h.ordered_concat (k, v), List.pairwise_singleton _ _, ?_⟩
      intro other hother key hkey
      obtain rfl : key = k := List.mem_singleton.1 hkey
      -- the earlier calls name every other identifier, but not this one
      rw [List.map_append, List.idxOf_append_of_mem (h.mem_keys_iff.1 hother),
        List.idxOf_append_of_notMem (h.get?_eq_none_iff.1 hnew)]
      exact Nat.lt_add_right _ (List.idxOf_lt_length_of_mem (h.mem_keys_iff.1 hother))

theorem foldl_insert (later : List (String × Persisted)) :
    Follows (calls ++ later)
      (later.foldl (fun created r => (created.insert r.1 r.2).1) created) := by
  induction later generalizing calls created with
  | nil => rwa [List.append_nil]
  | cons call later ih =>
    rw [List.append_cons, List.foldl_cons]
    exact ih (h.insert call.1 call.2)

end Follows

theorem follows_ofList (calls : List (String × Persisted)) : Follows calls (ofList calls) :=
  Follows.empty.foldl_insert calls

theorem indexed_ofList (calls : List (String × Persisted)) : (ofList calls).Indexed :=
  (follows_ofList calls).indexed

theorem mem_ofList {calls : List (String × Persisted)} {entry : String × Persisted}
    (h : entry ∈ (ofList calls).toList) : entry ∈ calls :=
  (follows_ofList calls).mem_calls h

end Accession.Batch.Created
