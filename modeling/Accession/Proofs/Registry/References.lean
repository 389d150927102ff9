import Accession.Proofs.Json.Values
import Accession.Proofs.Registry.Uris
set_option autoImplicit false

namespace Accession.Registry

open Json (Value Members skeletonMembers)

/-- The elements of a list of references, otherwise the one value that is there; null is absent. -/
def references (body : Members) (field : Field) : List Value :=
  match present? body field.name, field.kind with
  | none, _ => []
  | some (.arr items), .refList _ => items
  | some v, _ => [v]

section

variable {body body' : Members} {field : Field} {v : Value}

theorem references_congr (h : body.get? field.name = body'.get? field.name) :
    references body field = references body' field := by
  rw [references, references, present?, present?, h]

theorem references_absent (h : present? body field.name = none) : references body field = [] := by
  rw [references, h]

theorem present?_insert (h : v.isNull = false) (name : String) :
    present? (body.insert name v) name = some v := by
  rw [present?, Members.get?_insert_self, Option.filter_some, h]
  rfl

theorem references_insert_items {allowed : List String} (h : field.kind = .refList allowed)
    (items : List Value) : references (body.insert field.name (.arr items)) field = items := by
  rw [references, present?_insert rfl, h]

theorem distinct_of_present? (h : body.Distinct) {name : String} (hv : present? body name = some v) :
    v.Distinct := by
  obtain ⟨hget, -⟩ := Option.filter_eq_some_iff.1 hv
  exact ((Members.distinct_iff body).1 h).2 (name, v) (Members.mem_of_get?_eq_some hget)

theorem refValue?_isSome_cases (h : (refValue? v).isSome = true) :
    (∃ s, v = .str s) ∨ ∃ members, v = .obj members := by
  cases v with
  | str s => exact .inl ⟨s, rfl⟩
  | obj members => exact .inr ⟨members, rfl⟩
  | null | bool | num | arr => cases h

theorem references_one (hv : present? body field.name = some v)
    (h : (refValue? v).isSome = true) : references body field = [v] := by
  obtain ⟨s, rfl⟩ | ⟨members, rfl⟩ := refValue?_isSome_cases h <;> rw [references, hv]

theorem references_single (hv : present? body field.name = some v)
    (one : ∀ items allowed, v = .arr items → field.kind ≠ .refList allowed) :
    references body field = [v] := by
  rw [references, hv]
  split
  · contradiction
  · rename_i items allowed hitems hkind
    exact absurd hkind (one items allowed (Option.some.inj hitems))
  · rename_i hsame _
    rw [Option.some.inj hsame]

theorem references_insert_one (h : (refValue? v).isSome = true) :
    references (body.insert field.name v) field = [v] := by
  apply references_one (present?_insert ?_ field.name) h
  obtain ⟨s, rfl⟩ | ⟨members, rfl⟩ := refValue?_isSome_cases h <;> rfl

end

section Skeleton

theorem isNull_skeleton (v : Value) : v.skeleton.isNull = v.isNull := by
  cases v <;> rfl

theorem refValue?_skeleton (v : Value) : refValue? v.skeleton = refValue? v := by
  cases v with
  | obj members =>
    rw [Value.skeleton, refValue?, refValue?, Json.get?_skeletonMembers]
    congr 1
    cases Members.get? members "ref" with
    | none => rfl
    | some w => cases w <;> rfl
  | null | bool | num | str | arr => rfl

theorem present?_skeletonMembers (body : Members) (name : String) :
    present? (skeletonMembers body) name = (present? body name).map Value.skeleton := by
  rw [present?, present?, Json.get?_skeletonMembers]
  cases body.get? name with
  | none => rfl
  | some v =>
    rw [Option.map_some, Option.filter_some, Option.filter_some, isNull_skeleton]
    split <;> rfl

theorem references_skeletonMembers (body : Members) (field : Field) :
    references (skeletonMembers body) field = (references body field).map Value.skeleton := by
  rw [references, references, present?_skeletonMembers]
  cases present? body field.name with
  | none => rfl
  | some v =>
    cases v with
    | arr items =>
      rw [Option.map_some, Value.skeleton]
      cases field.kind with
      | refList allowed => exact Json.skeletonItems_eq_map items
      | _ => rfl
    | null | bool | num | str | obj => rfl

/-- Two bodies that differ in numbers only have references with the same texts. -/
theorem references_of_skeleton_eq {body body' : Members}
    (h : skeletonMembers body = skeletonMembers body') (field : Field) :
    (references body field).map refValue? = (references body' field).map refValue? := by
  have texts (b : Members) : (references b field).map refValue?
      = (references (skeletonMembers b) field).map refValue? := by
    rw [references_skeletonMembers, List.map_map]
    apply List.map_congr_left
    intro v _
    exact (refValue?_skeleton v).symm
  rw [texts body, texts body', h]

theorem exists_reference_of_skeleton_eq {body body' : Members}
    (h : skeletonMembers body = skeletonMembers body') {field : Field} {v : Value}
    (hv : v ∈ references body field) :
    ∃ w ∈ references body' field, refValue? w = refValue? v := by
  have hmem : refValue? v ∈ (references body' field).map refValue? := by
    rw [← references_of_skeleton_eq h field]
    exact List.mem_map_of_mem hv
  exact List.mem_map.1 hmem

end Skeleton

section Parsed

variable {registry : Registry} {uri : String} {r : Reference}

theorem parseReference?_isEmpty (h : registry.parseReference? uri = some r) :
    uri.isEmpty = false := by
  cases hempty : uri.isEmpty with
  | false => rfl
  | true =>
    rw [String.isEmpty_iff] at hempty
    subst uri
    cases h

theorem parseReference?_type (h : registry.parseReference? uri = some r) :
    ∃ t ∈ registry.types, t.name = r.typeName ∧ t.scope.agrees r.repository = true := by
  unfold parseReference? at h
  split at h
  · simp only [bind, Option.bind_eq_some_iff] at h
    obtain ⟨last, -, id, -, ⟨repository, segment⟩, -, t, ht, h⟩ := h
    obtain rfl := Option.some.inj h
    have hfound := List.find?_some ht
    rw [Bool.and_eq_true] at hfound
    exact ⟨t, List.mem_of_find?_eq_some ht, rfl, hfound.2⟩
  · cases h

theorem parseReference?_positive (h : registry.parseReference? uri = some r) : 0 < r.id := by
  unfold parseReference? at h
  split at h
  · simp only [bind, Option.bind_eq_some_iff] at h
    obtain ⟨last, -, id, hid, ⟨repository, segment⟩, -, t, -, h⟩ := h
    obtain rfl := Option.some.inj h
    exact of_decide_eq_true (Option.filter_eq_some_iff.1 hid).2
  · cases h

end Parsed

end Accession.Registry
