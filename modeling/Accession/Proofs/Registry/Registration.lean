import Accession.Registry.Standard
import Mathlib.Data.List.Nodup
set_option autoImplicit false

namespace Accession.Registry

def ofTypes (defaultName : String) (types : List RecordType) : Registry :=
  types.foldl register (empty defaultName)

variable {registry : Registry}

theorem names_nodup_register (h : (registry.types.map RecordType.name).Nodup) (t : RecordType) :
    ((registry.register t).types.map RecordType.name).Nodup := by
  have hkept : ((registry.types.filter (fun u => u.name != t.name)).map RecordType.name).Nodup :=
    h.sublist (List.filter_sublist.map _)
  rw [register, List.map_append, List.map_singleton, List.nodup_append]
  refine ⟨hkept, List.nodup_singleton _, ?_⟩
  intro name hname other hother
  obtain ⟨u, hu, rfl⟩ := List.mem_map.1 hname
  obtain rfl := List.mem_singleton.1 hother
  simpa using (List.mem_filter.1 hu).2

theorem get?_of_mem (names : (registry.types.map RecordType.name).Nodup) {t : RecordType}
    (ht : t ∈ registry.types) : registry.get? t.name = some t := by
  rw [get?]
  cases hfound : registry.types.find? (fun u => u.name == t.name) with
  | none => exact absurd (List.find?_eq_none.1 hfound t ht) (by simp)
  | some u =>
    have hname : u.name = t.name := by simpa using List.find?_some hfound
    rw [List.inj_on_of_nodup_map names (List.mem_of_find?_eq_some hfound) ht hname]

theorem get?_eq_some_iff (names : (registry.types.map RecordType.name).Nodup) {name : String}
    {t : RecordType} : registry.get? name = some t ↔ t.name = name ∧ t ∈ registry.types := by
  constructor
  · intro hfound
    exact ⟨by simpa using List.find?_some hfound, List.mem_of_find?_eq_some hfound⟩
  · rintro ⟨rfl, ht⟩
    exact get?_of_mem names ht

theorem get?_eq_none_iff {name : String} :
    registry.get? name = none ↔ name ∉ registry.types.map RecordType.name := by
  simp [get?]

theorem mem_register {t u : RecordType} :
    u ∈ (registry.register t).types ↔ u ∈ registry.types ∧ u.name ≠ t.name ∨ u = t := by
  rw [register, List.mem_append, List.mem_filter, List.mem_singleton, bne_iff_ne]

theorem mem_names_register {t : RecordType} {name : String} :
    name ∈ (registry.register t).types.map RecordType.name ↔
      name ∈ registry.types.map RecordType.name ∨ name = t.name := by
  simp only [List.mem_map, mem_register]
  constructor
  · rintro ⟨u, ⟨hu, -⟩ | rfl, rfl⟩
    · exact .inl ⟨u, hu, rfl⟩
    · exact .inr rfl
  · rintro (⟨u, hu, rfl⟩ | rfl)
    · by_cases hname : u.name = t.name
      · exact ⟨t, .inr rfl, hname.symm⟩
      · exact ⟨u, .inl ⟨hu, hname⟩, rfl⟩
    · exact ⟨t, .inr rfl, rfl⟩

theorem get?_register (registry : Registry) (t : RecordType) (name : String) :
    (registry.register t).get? name = if name = t.name then some t else registry.get? name := by
  rw [get?, register, List.find?_append, List.find?_filter]
  by_cases hname : name = t.name
  · have hnone : registry.types.find? (fun u => decide (u.name != t.name ∧ u.name == name))
        = none := by simp [hname]
    rw [hnone, if_pos hname, Option.none_or, List.find?_singleton,
      if_pos (beq_iff_eq.2 hname.symm)]
  · have hkept : registry.types.find? (fun u => decide (u.name != t.name ∧ u.name == name))
        = registry.get? name := by
      refine congrArg (registry.types.find? ·) (funext fun u => ?_)
      by_cases hu : u.name = name <;> simp [hu, hname]
    rw [hkept, if_neg hname, List.find?_singleton,
      if_neg (fun h => hname (beq_iff_eq.1 h).symm), Option.or_none]

/-- The call of this number registers the type, and no later call registers one of its name. -/
structure LastCall (calls : List RecordType) (number : Nat) (t : RecordType) : Prop where
  registers : calls[number]? = some t
  last : ∀ later u, number < later → calls[later]? = some u → u.name ≠ t.name

section Calls

variable {calls : List RecordType} {number : Nat} {t u : RecordType}

theorem LastCall.lt_length (h : LastCall calls number t) : number < calls.length :=
  (List.getElem?_eq_some_iff.1 h.registers).choose

theorem call_concat : (calls ++ [u])[number]? = some t ↔
    calls[number]? = some t ∨ number = calls.length ∧ t = u := by
  obtain hlt | rfl | hgt := Nat.lt_trichotomy number calls.length
  · rw [List.getElem?_append_left hlt]
    exact (or_iff_left (fun h => Nat.ne_of_lt hlt h.1)).symm
  · rw [List.getElem?_concat_length, List.getElem?_eq_none (Nat.le_refl _), Option.some.injEq]
    exact ⟨fun h => .inr ⟨rfl, h.symm⟩, fun h => (h.resolve_left nofun).2.symm⟩
  · have hend : (calls ++ [u]).length ≤ number := by
      rw [List.length_append]
      exact hgt
    rw [List.getElem?_eq_none hend, List.getElem?_eq_none (Nat.le_of_lt hgt)]
    exact (or_iff_left (fun h => Nat.ne_of_gt hgt h.1)).symm

theorem lastCall_concat : LastCall (calls ++ [u]) number t ↔
    LastCall calls number t ∧ t.name ≠ u.name ∨ number = calls.length ∧ t = u := by
  constructor
  · rintro ⟨hregisters, hlast⟩
    obtain hregisters | hnewest := call_concat.1 hregisters
    · have hearlier : number < calls.length := (List.getElem?_eq_some_iff.1 hregisters).choose
      have hkept : LastCall calls number t :=
        ⟨hregisters, fun later v hlater hv => hlast later v hlater (call_concat.2 (.inl hv))⟩
      exact .inl ⟨hkept, (hlast _ u hearlier (call_concat.2 (.inr ⟨rfl, rfl⟩))).symm⟩
    · exact .inr hnewest
  · rintro (⟨h, hname⟩ | ⟨rfl, rfl⟩)
    · refine ⟨call_concat.2 (.inl h.registers), ?_⟩
      intro later v hlater hv
      obtain hv | ⟨-, rfl⟩ := call_concat.1 hv
      · exact h.last later v hlater hv
      · exact hname.symm
    · refine ⟨call_concat.2 (.inr ⟨rfl, rfl⟩), ?_⟩
      intro later v hlater hv
      obtain hv | ⟨rfl, -⟩ := call_concat.1 hv
      · exact absurd hlater (Nat.lt_asymm (List.getElem?_eq_some_iff.1 hv).choose)
      · exact absurd hlater (Nat.lt_irrefl _)

end Calls

/-- The registry agrees with the calls that were made, in this order: it lists what the last call
under each name registered, in the order of these calls. -/
structure Follows (calls : List RecordType) (registry : Registry) : Prop where
  distinct : (registry.types.map RecordType.name).Nodup
  listed : ∀ t, t ∈ registry.types ↔ ∃ number, LastCall calls number t
  named : ∀ name, name ∈ registry.types.map RecordType.name ↔ name ∈ calls.map RecordType.name
  ordered : registry.types.Pairwise (fun t u => ∃ earlier later,
    LastCall calls earlier t ∧ LastCall calls later u ∧ earlier < later)

namespace Follows

theorem empty (defaultName : String) : Follows [] (empty defaultName) where
  distinct := List.nodup_nil
  listed t := by
    refine iff_of_false List.not_mem_nil ?_
    rintro ⟨number, h⟩
    exact absurd h.lt_length (Nat.not_lt_zero number)
  named _ := Iff.rfl
  ordered := .nil

variable {calls : List RecordType} (h : Follows calls registry)

include h

theorem register (t : RecordType) : Follows (calls ++ [t]) (registry.register t) where
  distinct := names_nodup_register h.distinct t
  listed u := by
    rw [mem_register, h.listed]
    simp only [lastCall_concat, exists_or, exists_and_right, exists_eq, true_and]
  named name := by
    rw [mem_names_register, h.named, List.map_append, List.mem_append, List.map_singleton,
      List.mem_singleton]
  ordered := by
    rw [Registry.register, List.pairwise_append]
    refine ⟨?_, List.pairwise_singleton _ _, ?_⟩
    · refine (h.ordered.filter _).imp_of_mem ?_
      rintro u v hu hv ⟨earlier, later, hearlier, hlater, hlt⟩
      have hkept {w : RecordType} (hw : w ∈ registry.types.filter (fun u => u.name != t.name)) :
          w.name ≠ t.name := bne_iff_ne.1 (List.mem_filter.1 hw).2
      exact ⟨earlier, later, lastCall_concat.2 (.inl ⟨hearlier, hkept hu⟩),
        lastCall_concat.2 (.inl ⟨hlater, hkept hv⟩), hlt⟩
    · intro u hu v hv
      obtain rfl := List.mem_singleton.1 hv
      obtain ⟨hlisted, hname⟩ := List.mem_filter.1 hu
      obtain ⟨number, hnumber⟩ := (h.listed u).1 hlisted
      exact ⟨number, calls.length, lastCall_concat.2 (.inl ⟨hnumber, bne_iff_ne.1 hname⟩),
        lastCall_concat.2 (.inr ⟨rfl, rfl⟩), hnumber.lt_length⟩

theorem foldl_register (later : List RecordType) :
    Follows (calls ++ later) (later.foldl Registry.register registry) := by
  induction later generalizing calls registry with
  | nil => rwa [List.append_nil]
  | cons t later ih =>
    rw [List.append_cons, List.foldl_cons]
    exact ih (h.register t)

end Follows

theorem follows_ofTypes (defaultName : String) (types : List RecordType) :
    Follows types (ofTypes defaultName types) :=
  (Follows.empty defaultName).foldl_register types

theorem names_nodup (defaultName : String) (types : List RecordType) :
    ((ofTypes defaultName types).types.map RecordType.name).Nodup :=
  (follows_ofTypes defaultName types).distinct

/-- Whatever types are registered one after another, names being repeated in any order. Names are
distinct. Under a name the type of the last call of this name is found, and none if there is no such
call. The types are those of these last calls in the order in which the calls were made; the agent
types are those with the name of one, in the same order. Registering a further type changes what is
found under its own name and under no other. -/
theorem last_registrations_kept (defaultName : String) (calls : List RecordType) :
    let registry := ofTypes defaultName calls
    (registry.types.map RecordType.name).Nodup ∧
    (∀ name t, registry.get? name = some t ↔
      t.name = name ∧ ∃ number, LastCall calls number t) ∧
    (∀ name, registry.get? name = none ↔ name ∉ calls.map RecordType.name) ∧
    (∀ t, t ∈ registry.types ↔ ∃ number, LastCall calls number t) ∧
    registry.types.Pairwise (fun t u => ∃ earlier later,
      LastCall calls earlier t ∧ LastCall calls later u ∧ earlier < later) ∧
    registry.agentTypes.Sublist registry.types ∧
    (∀ t, t ∈ registry.agentTypes ↔
      t.name ∈ agentTypeNames ∧ ∃ number, LastCall calls number t) ∧
    ∀ t name, (registry.register t).get? name
      = if name = t.name then some t else registry.get? name := by
  intro registry
  have follows : Follows calls registry := follows_ofTypes defaultName calls
  refine ⟨follows.distinct, ?_, ?_, follows.listed, follows.ordered, List.filter_sublist, ?_,
    get?_register registry⟩
  · intro name t
    rw [get?_eq_some_iff follows.distinct, follows.listed]
  · intro name
    rw [get?_eq_none_iff, follows.named]
  · intro t
    rw [agentTypes, List.mem_filter, follows.listed, RecordType.isAgent, List.contains_iff_mem,
      and_comm]

example : (ofTypes "classification"
    [agent "agent_family" "kin", classification, agent "agent_family" "clans"]).types
      = [classification, agent "agent_family" "clans"] := by
  decide

end Accession.Registry
