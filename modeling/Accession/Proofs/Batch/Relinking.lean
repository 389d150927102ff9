import Accession.Proofs.Batch.Resolution
set_option autoImplicit false

namespace Accession.Registry

open Json (Value Members)

/-- A reference with a uri in the place of its text; an object keeps its other members. -/
def relink (uris : String → String) (v : Value) : Value :=
  match refValue? v, v with
  | none, v => v
  | some reference, .obj members => .obj (Members.insert "ref" (.str (uris reference)) members)
  | some reference, _ => .str (uris reference)

def Field.relink (uris : String → String) (field : Field) (v : Value) : Value :=
  match field.kind, v with
  | .refList _, .arr items => .arr (items.map (Registry.relink uris))
  | _, v => Registry.relink uris v

def relinkField (uris : String → String) (body : Members) (field : Field) : Members :=
  match present? body field.name with
  | none => body
  | some v => body.insert field.name (field.relink uris v)

def relinkAll (uris : String → String) (fields : List Field) (body : Members) : Members :=
  fields.foldl (relinkField uris) body

section

variable {uris : String → String} {body : Members}

theorem relink_str {s reference : String} (h : refValue? (.str s) = some reference) :
    relink uris (.str s) = .str (uris reference) := by
  unfold relink
  rw [h]

theorem relink_obj {members : Members} {reference : String}
    (h : refValue? (.obj members) = some reference) :
    relink uris (.obj members) = .obj (Members.insert "ref" (.str (uris reference)) members) := by
  unfold relink
  rw [h]

theorem Field.relink_items {field : Field} {allowed : List String}
    (h : field.kind = .refList allowed) (items : List Value) :
    field.relink uris (.arr items) = .arr (items.map (Registry.relink uris)) := by
  unfold Field.relink
  rw [h]

theorem Field.relink_one {field : Field} {v : Value}
    (one : ∀ items allowed, v = .arr items → field.kind ≠ .refList allowed) :
    field.relink uris v = Registry.relink uris v := by
  unfold Field.relink
  split
  · rename_i allowed items hkind
    exact absurd hkind (one items allowed rfl)
  · rfl

theorem Field.relink_null (field : Field) : field.relink uris .null = .null :=
  field.relink_one nofun

theorem get?_relinkField_of_ne (field : Field) {name : String} (h : field.name ≠ name) :
    (relinkField uris body field).get? name = body.get? name := by
  rw [relinkField]
  split
  · rfl
  · exact Members.get?_insert_of_ne _ body h

theorem get?_relinkField (field : Field) :
    (relinkField uris body field).get? field.name
      = (body.get? field.name).map (field.relink uris) := by
  rw [relinkField, present?]
  cases hget : body.get? field.name with
  | none => simp [hget]
  | some v =>
    rw [Option.filter_some]
    cases v with
    | null => simp [Value.isNull, hget, field.relink_null]
    | bool | num | str | arr | obj =>
      simp [Value.isNull, Members.get?_insert_self]

theorem get?_relinkAll {fields : List Field} (names : (fields.map Field.name).Nodup)
    (name : String) :
    (relinkAll uris fields body).get? name =
      match fields.find? (fun field => field.name == name) with
      | some field => (body.get? name).map (field.relink uris)
      | none => body.get? name := by
  induction fields generalizing body with
  | nil => rfl
  | cons field rest ih =>
    rw [List.map_cons, List.nodup_cons] at names
    rw [relinkAll, List.foldl_cons, ← relinkAll, ih names.2, List.find?_cons]
    by_cases hname : field.name = name
    · subst hname
      have hnone : rest.find? (fun other => other.name == field.name) = none := by
        rw [List.find?_eq_none]
        intro other hother he
        exact names.1 (eq_of_beq he ▸ List.mem_map_of_mem hother)
      rw [hnone, beq_self_eq_true]
      exact get?_relinkField field
    · rw [beq_eq_false_iff_ne.2 hname, get?_relinkField_of_ne field hname]

end

end Accession.Registry

namespace Accession.Batch

open Json (Value Members)
open Registry (Field refValue? references present? relink relinkField relinkAll)

variable {ω : Type} {target : Target} {storage : Storage ω} {created : Created}

/-- The uri that a reference stands for: that of the record created under its text, or the text. -/
def uriOf (created : Created) (reference : String) : String :=
  ((created.get? reference).map Persisted.uri).getD reference

def Resolves (target : Target) (storage : Storage ω) (created : Created) (w : ω) (site : Site)
    (v : Value) : Prop :=
  ∃ reference, refValue? v = some reference ∧
    resolve target storage created site reference w = (.ok (uriOf created reference), w)

variable (reads : ∀ t id repository w, (storage.recordExists t id repository w).2 = w)

include reads

theorem resolve_uriOf {site : Site} {reference uri : String} {w w' : ω}
    (h : resolve target storage created site reference w = (.ok uri, w')) :
    w' = w ∧ uri = uriOf created reference := by
  obtain ⟨rfl, r, -, -, ⟨record, hget, rfl⟩ | ⟨hget, rfl, -⟩⟩ := resolve_ok reads h
  · exact ⟨rfl, by rw [uriOf, hget]; rfl⟩
  · exact ⟨rfl, by rw [uriOf, hget]; rfl⟩

theorem resolve_iff {site : Site} {reference : String} {w : ω} :
    resolve target storage created site reference w = (.ok (uriOf created reference), w) ↔
      ∃ r, target.registry.parseReference? (uriOf created reference) = some r ∧
        r.typeName ∈ site.allowed ∧
        (created.get? reference = none →
          (r.repository = none ∨ r.repository = some target.repository) ∧
          ∃ t, target.registry.get? r.typeName = some t ∧
            storage.recordExists t r.id r.repository w = (.ok true, w)) := by
  constructor
  · intro h
    obtain ⟨-, r, hparse, hallowed, hfound⟩ := resolve_ok reads h
    refine ⟨r, hparse, hallowed, fun hnone => ?_⟩
    obtain ⟨record, hget, -⟩ | ⟨-, -, hfound⟩ := hfound
    · rw [hnone] at hget
      cases hget
    · exact hfound
  · rintro ⟨r, hparse, hallowed, hlook⟩
    have hsite : site.parse target.registry reference (uriOf created reference) = .ok r := by
      rw [Site.parse, hparse]
      exact if_pos (List.contains_iff_mem.2 hallowed)
    rw [resolve]
    cases hget : created.get? reference with
    | some record =>
      have huri : uriOf created reference = record.uri := by
        rw [uriOf, hget]
        rfl
      rw [huri] at hsite ⊢
      exact liftExcept_bind_eq_ok.2 ⟨r, hsite, rfl⟩
    | none =>
      have huri : uriOf created reference = reference := by
        rw [uriOf, hget]
        rfl
      rw [huri] at hsite ⊢
      obtain ⟨howner, t, ht, hexists⟩ := hlook hget
      have hscope : ¬r.repository.any (· != target.repository) = true := by
        obtain hnone | hsome := howner
        · simp [hnone]
        · simp [hsome]
      refine liftExcept_bind_eq_ok.2 ⟨r, hsite, ?_⟩
      rw [if_neg hscope, ht]
      exact Action.bind_eq_ok.2 ⟨true, w, hexists, rfl⟩

theorem rewrite_iff {site : Site} {v v' : Value} {w w' : ω} :
    rewrite target storage created site v w = (.ok v', w') ↔
      Resolves target storage created w site v ∧ v' = relink (uriOf created) v ∧ w' = w := by
  cases hreference : refValue? v with
  | none =>
    rw [rewrite, hreference]
    constructor
    · intro h
      cases h
    · rintro ⟨⟨reference, hsome, -⟩, -⟩
      rw [hreference] at hsome
      cases hsome
  | some reference =>
    have hshape := Registry.refValue?_isSome_cases (Option.isSome_iff_exists.2 ⟨_, hreference⟩)
    rw [rewrite, hreference]
    dsimp only
    rw [Action.bind_eq_ok]
    constructor
    · rintro ⟨uri, u, hresolve, h⟩
      obtain ⟨rfl, rfl⟩ := resolve_uriOf reads hresolve
      refine ⟨⟨reference, hreference, hresolve⟩, ?_⟩
      obtain ⟨s, rfl⟩ | ⟨members, rfl⟩ := hshape <;> cases h
      · exact ⟨(Registry.relink_str hreference).symm, rfl⟩
      · exact ⟨(Registry.relink_obj hreference).symm, rfl⟩
    · rintro ⟨⟨other, hother, hresolve⟩, rfl, rfl⟩
      obtain rfl : reference = other := Option.some.inj (hreference.symm.trans hother)
      refine ⟨_, _, hresolve, ?_⟩
      obtain ⟨s, rfl⟩ | ⟨members, rfl⟩ := hshape
      · rw [Registry.relink_str hreference]
        rfl
      · rw [Registry.relink_obj hreference]
        rfl

theorem rewriteAll_iff {site : Site} {items items' : List Value} {w w' : ω} :
    rewriteAll target storage created site items w = (.ok items', w') ↔
      (∀ v ∈ items, Resolves target storage created w site v) ∧
        items' = items.map (relink (uriOf created)) ∧ w' = w := by
  induction items generalizing items' w' with
  | nil =>
    constructor
    · intro h
      cases h
      exact ⟨nofun, rfl, rfl⟩
    · rintro ⟨-, rfl, rfl⟩
      rfl
  | cons v rest ih =>
    rw [rewriteAll, Action.bind_eq_ok]
    constructor
    · rintro ⟨v', u, hv, h⟩
      obtain ⟨hresolves, rfl, rfl⟩ := (rewrite_iff reads).1 hv
      obtain ⟨rest', u', hrest, hpure⟩ := Action.bind_eq_ok.1 h
      obtain ⟨hall, rfl, rfl⟩ := ih.1 hrest
      cases hpure
      exact ⟨List.forall_mem_cons.2 ⟨hresolves, hall⟩, rfl, rfl⟩
    · rintro ⟨hall, rfl, rfl⟩
      obtain ⟨hv, hrest⟩ := List.forall_mem_cons.1 hall
      exact ⟨_, _, (rewrite_iff reads).2 ⟨hv, rfl, rfl⟩,
        Action.bind_eq_ok.2 ⟨_, _, ih.2 ⟨hrest, rfl, rfl⟩, rfl⟩⟩

theorem rewriteField_iff {subject : String} {field : Field} {body body' : Members} {w w' : ω} :
    rewriteField target storage created subject field body w = (.ok body', w') ↔
      (∀ v ∈ references body field, Resolves target storage created w (siteOf subject field) v) ∧
        body' = relinkField (uriOf created) body field ∧ w' = w := by
  cases hpresent : present? body field.name with
  | none =>
    rw [rewriteField, hpresent, relinkField, hpresent, Registry.references_absent hpresent]
    constructor
    · intro h
      cases h
      exact ⟨fun _ hv => absurd hv List.not_mem_nil, rfl, rfl⟩
    · rintro ⟨-, rfl, rfl⟩
      rfl
  | some v =>
    by_cases hmany : ∃ items allowed, v = .arr items ∧ field.kind = .refList allowed
    · obtain ⟨items, allowed, rfl, hkind⟩ := hmany
      have hreferences : references body field = items := by rw [references, hpresent, hkind]
      rw [rewriteField_items target storage created subject hpresent hkind, Action.bind_eq_ok,
        hreferences, relinkField, hpresent]
      dsimp only
      rw [Registry.Field.relink_items hkind]
      constructor
      · rintro ⟨items', u, hitems, h⟩
        obtain ⟨hall, rfl, rfl⟩ := (rewriteAll_iff reads).1 hitems
        cases h
        exact ⟨hall, rfl, rfl⟩
      · rintro ⟨hall, rfl, rfl⟩
        exact ⟨_, _, (rewriteAll_iff reads).2 ⟨hall, rfl, rfl⟩, rfl⟩
    · have hone : ∀ items allowed, v = .arr items → field.kind ≠ .refList allowed := by
        intro items allowed hv hkind
        exact hmany ⟨items, allowed, hv, hkind⟩
      have hreferences := Registry.references_single hpresent hone
      rw [rewriteField_one target storage created subject hpresent hone, Action.bind_eq_ok,
        hreferences, relinkField, hpresent]
      dsimp only
      rw [Registry.Field.relink_one hone]
      constructor
      · rintro ⟨v', u, hv, h⟩
        obtain ⟨hresolves, rfl, rfl⟩ := (rewrite_iff reads).1 hv
        cases h
        exact ⟨List.forall_mem_singleton.2 hresolves, rfl, rfl⟩
      · rintro ⟨hall, rfl, rfl⟩
        exact ⟨_, _, (rewrite_iff reads).2 ⟨List.forall_mem_singleton.1 hall, rfl, rfl⟩, rfl⟩

theorem rewriteFields_iff {subject : String} {fields : List Field}
    (names : (fields.map Field.name).Nodup) {body body' : Members} {w w' : ω} :
    rewriteFields target storage created subject fields body w = (.ok body', w') ↔
      (∀ field ∈ fields, ∀ v ∈ references body field,
        Resolves target storage created w (siteOf subject field) v) ∧
        body' = relinkAll (uriOf created) fields body ∧ w' = w := by
  induction fields generalizing body with
  | nil =>
    constructor
    · intro h
      cases h
      exact ⟨nofun, rfl, rfl⟩
    · rintro ⟨-, rfl, rfl⟩
      rfl
  | cons field rest ih =>
    rw [List.map_cons, List.nodup_cons] at names
    -- the fields after the first do not see what it became
    have hsame : ∀ other ∈ rest, references (relinkField (uriOf created) body field) other
        = references body other := by
      intro other hother
      have hne : field.name ≠ other.name := fun he => names.1 (he ▸ List.mem_map_of_mem hother)
      exact Registry.references_congr (Registry.get?_relinkField_of_ne field hne)
    rw [rewriteFields, Action.bind_eq_ok, List.forall_mem_cons]
    constructor
    · rintro ⟨mid, u, hfirst, h⟩
      obtain ⟨hresolves, rfl, rfl⟩ := (rewriteField_iff reads).1 hfirst
      obtain ⟨hall, rfl, rfl⟩ := (ih names.2).1 h
      refine ⟨⟨hresolves, ?_⟩, rfl, rfl⟩
      intro other hother v hv
      exact hall other hother v (hsame other hother ▸ hv)
    · rintro ⟨⟨hresolves, hall⟩, rfl, rfl⟩
      refine ⟨_, _, (rewriteField_iff reads).2 ⟨hresolves, rfl, rfl⟩,
        (ih names.2).2 ⟨?_, rfl, rfl⟩⟩
      intro other hother v hv
      exact hall other hother v (hsame other hother ▸ hv)

end Accession.Batch
