import Accession.Proofs.Batch.Calls
import Accession.Proofs.Registry.References
set_option autoImplicit false

namespace Accession.Batch

open Json (Value Members)
open Registry (Field refValue? references present?)

variable {ω : Type} {target : Target} {storage : Storage ω} {created : Created}
  (reads : ∀ t id repository w, (storage.recordExists t id repository w).2 = w)

theorem Site.parse_ok {site : Site} {registry : Registry} {reference uri : String} {r : Reference}
    (h : site.parse registry reference uri = .ok r) :
    registry.parseReference? uri = some r ∧ r.typeName ∈ site.allowed := by
  unfold Site.parse at h
  split at h
  · cases h
  · rename_i parsed hparsed
    split at h
    · rename_i hallowed
      cases h
      exact ⟨hparsed, List.contains_iff_mem.1 hallowed⟩
    · cases h

section

variable {α β : Type} {f : α → Action ω β} {b : β} {w w' : ω}

theorem liftExcept_ok_bind (a : α) : resolve.liftExcept (.ok a) >>= f = f a := rfl

theorem liftExcept_bind_eq_ok {x : Except ImportError α} :
    (resolve.liftExcept x >>= f) w = (.ok b, w') ↔ ∃ a, x = .ok a ∧ f a w = (.ok b, w') := by
  rw [Action.bind_run]
  constructor
  · intro h
    cases x with
    | error e => cases h
    | ok a => exact ⟨a, rfl, h⟩
  · rintro ⟨a, rfl, h⟩
    exact h

end

def Found (target : Target) (storage : Storage ω) (created : Created) (w : ω)
    (reference uri : String) (r : Reference) : Prop :=
  (∃ record, created.get? reference = some record ∧ uri = record.uri) ∨
    (created.get? reference = none ∧ uri = reference ∧
      (r.repository = none ∨ r.repository = some target.repository) ∧
      ∃ t, target.registry.get? r.typeName = some t ∧
        storage.recordExists t r.id r.repository w = (.ok true, w))

/-- Whatever a look-up does to the state of the storage, a uri that was found names a record of the
running batch, or it is the reference itself and was looked up. -/
theorem resolve_found {site : Site} {reference uri : String} {w w' : ω}
    (h : resolve target storage created site reference w = (.ok uri, w')) :
    ∃ r, target.registry.parseReference? uri = some r ∧ r.typeName ∈ site.allowed ∧
      ((∃ record, created.get? reference = some record ∧ uri = record.uri ∧ w' = w) ∨
        (created.get? reference = none ∧ uri = reference ∧
          (r.repository = none ∨ r.repository = some target.repository) ∧
          ∃ t, target.registry.get? r.typeName = some t ∧
            storage.recordExists t r.id r.repository w = (.ok true, w'))) := by
  rw [resolve] at h
  cases hget : created.get? reference with
  | some record =>
    rw [hget] at h
    dsimp only at h
    rw [liftExcept_bind_eq_ok] at h
    obtain ⟨r, hparse, h⟩ := h
    obtain ⟨hr, hallowed⟩ := Site.parse_ok hparse
    cases h
    exact ⟨r, hr, hallowed, .inl ⟨record, rfl, rfl, rfl⟩⟩
  | none =>
    rw [hget] at h
    dsimp only at h
    rw [liftExcept_bind_eq_ok] at h
    obtain ⟨r, hparse, h⟩ := h
    obtain ⟨hr, hallowed⟩ := Site.parse_ok hparse
    by_cases hother : r.repository.any (· != target.repository) = true
    · rw [if_pos hother] at h
      cases h
    · rw [if_neg hother] at h
      cases ht : target.registry.get? r.typeName with
      | none =>
        rw [ht] at h
        cases h
      | some t =>
        rw [ht] at h
        dsimp only at h
        rw [Action.bind_eq_ok] at h
        obtain ⟨found, v, hexists, h⟩ := h
        cases found with
        | false => cases h
        | true =>
          cases h
          refine ⟨r, hr, hallowed, .inr ⟨rfl, rfl, ?_, t, ht, hexists⟩⟩
          cases hscope : r.repository with
          | none => exact .inl rfl
          | some repository =>
            rw [hscope] at hother
            exact .inr (congrArg some (by simpa using hother))

section

include reads

theorem resolve_ok {site : Site} {reference uri : String} {w w' : ω}
    (h : resolve target storage created site reference w = (.ok uri, w')) :
    w' = w ∧ ∃ r, target.registry.parseReference? uri = some r ∧ r.typeName ∈ site.allowed ∧
      Found target storage created w reference uri r := by
  obtain ⟨r, hr, hallowed, hfound⟩ := resolve_found h
  obtain ⟨record, hget, huri, rfl⟩ | ⟨hget, huri, hrepository, t, ht, hexists⟩ := hfound
  · exact ⟨rfl, r, hr, hallowed, .inl ⟨record, hget, huri⟩⟩
  · obtain rfl : w' = w := (congrArg Prod.snd hexists).symm.trans (reads t r.id r.repository w)
    exact ⟨rfl, r, hr, hallowed, .inr ⟨hget, huri, hrepository, t, ht, hexists⟩⟩

end

def Rewritten (target : Target) (storage : Storage ω) (created : Created) (site : Site) (w : ω)
    (v v' : Value) : Prop :=
  ∃ reference uri, refValue? v = some reference ∧ refValue? v' = some uri ∧
    resolve target storage created site reference w = (.ok uri, w) ∧ (v.Distinct → v'.Distinct)

theorem rewrite_resolves {site : Site} {v v' : Value} {w w' : ω}
    (h : rewrite target storage created site v w = (.ok v', w')) :
    ∃ reference uri, refValue? v = some reference ∧ refValue? v' = some uri ∧
      resolve target storage created site reference w = (.ok uri, w') ∧
      (v.Distinct → v'.Distinct) := by
  rw [rewrite] at h
  cases hreference : refValue? v with
  | none =>
    rw [hreference] at h
    cases h
  | some reference =>
    rw [hreference] at h
    dsimp only at h
    rw [Action.bind_eq_ok] at h
    obtain ⟨uri, u, hresolve, h⟩ := h
    obtain ⟨r, hr, -⟩ := resolve_found hresolve
    have huri := Registry.parseReference?_isEmpty hr
    obtain ⟨s, rfl⟩ | ⟨members, rfl⟩ :=
      Registry.refValue?_isSome_cases (Option.isSome_iff_exists.2 ⟨_, hreference⟩)
    · cases h
      refine ⟨reference, uri, rfl, ?_, hresolve, fun _ => trivial⟩
      rw [refValue?, huri]
      rfl
    · cases h
      refine ⟨reference, uri, rfl, ?_, hresolve, ?_⟩
      · rw [refValue?, Members.get?_insert_self]
        simp [Value.asString?, huri]
      · intro hdistinct
        exact Members.distinct_insert hdistinct (show (Value.str uri).Distinct from trivial) "ref"

section

include reads

theorem rewrite_ok {site : Site} {v v' : Value} {w w' : ω}
    (h : rewrite target storage created site v w = (.ok v', w')) :
    w' = w ∧ Rewritten target storage created site w v v' := by
  obtain ⟨reference, uri, hreference, huri, hresolve, hdistinct⟩ := rewrite_resolves h
  obtain ⟨rfl, -⟩ := resolve_ok reads hresolve
  exact ⟨rfl, reference, uri, hreference, huri, hresolve, hdistinct⟩

theorem rewriteAll_ok {site : Site} {items items' : List Value} {w w' : ω}
    (h : rewriteAll target storage created site items w = (.ok items', w')) :
    w' = w ∧ ∀ v' ∈ items', ∃ v ∈ items, Rewritten target storage created site w v v' := by
  induction items generalizing items' w' with
  | nil =>
    cases h
    exact ⟨rfl, nofun⟩
  | cons v rest ih =>
    rw [rewriteAll, Action.bind_eq_ok] at h
    obtain ⟨v', u, hv, h⟩ := h
    obtain ⟨rfl, hv⟩ := rewrite_ok reads hv
    rw [Action.bind_eq_ok] at h
    obtain ⟨rest', u', hrest, h⟩ := h
    obtain ⟨rfl, hrest⟩ := ih hrest
    cases h
    refine ⟨rfl, ?_⟩
    intro x hx
    obtain rfl | hx := List.mem_cons.1 hx
    · exact ⟨v, List.mem_cons_self, hv⟩
    · obtain ⟨y, hy, hyx⟩ := hrest x hx
      exact ⟨y, List.mem_cons_of_mem _ hy, hyx⟩

end

def siteOf (subject : String) (field : Field) : Site :=
  ⟨subject, field.name, field.kind.allowed?.getD []⟩

section

variable (target : Target) (storage : Storage ω) (created : Created) (subject : String)
  {field : Field} {body : Members}

theorem rewriteField_items {items : List Value} {allowed : List String}
    (hpresent : present? body field.name = some (.arr items))
    (hkind : field.kind = .refList allowed) :
    rewriteField target storage created subject field body = (do
      let items ← rewriteAll target storage created (siteOf subject field) items
      return body.insert field.name (.arr items)) := by
  rw [rewriteField, siteOf, hpresent, hkind]

theorem rewriteField_one {v : Value} (hpresent : present? body field.name = some v)
    (one : ∀ items allowed, v = .arr items → field.kind ≠ .refList allowed) :
    rewriteField target storage created subject field body = (do
      let v ← rewrite target storage created (siteOf subject field) v
      return body.insert field.name v) := by
  rw [rewriteField, hpresent]
  split
  · contradiction
  · rename_i items allowed hv hkind
    exact absurd hkind (one items allowed (Option.some.inj hv))
  · rename_i hv _
    rw [Option.some.inj hv]
    rfl

end

/-- A body whose references of some fields were resolved; the rest of it is as it was. -/
structure Resolved (target : Target) (storage : Storage ω) (created : Created) (subject : String)
    (fields : List Field) (w : ω) (body body' : Members) : Prop where
  distinct : body'.Distinct
  rewritten : ∀ field ∈ fields, ∀ v' ∈ references body' field, ∃ v ∈ references body field,
    Rewritten target storage created (siteOf subject field) w v v'
  others : ∀ name, name ∉ fields.map Field.name → body'.get? name = body.get? name

theorem Resolved.insert {subject : String} {field : Field} {w : ω} {body : Members} {v : Value}
    (distinct : body.Distinct) (value : v.Distinct)
    (each : ∀ v' ∈ references (body.insert field.name v) field, ∃ v ∈ references body field,
      Rewritten target storage created (siteOf subject field) w v v') :
    Resolved target storage created subject [field] w body (body.insert field.name v) where
  distinct := Members.distinct_insert distinct value field.name
  rewritten := by
    intro other hother
    obtain rfl := List.mem_singleton.1 hother
    exact each
  others := by
    intro name hname
    rw [List.map_singleton, List.mem_singleton] at hname
    exact Members.get?_insert_of_ne v body (Ne.symm hname)

section

include reads

theorem rewriteField_ok {subject : String} {field : Field} {body body' : Members} {w w' : ω}
    (distinct : body.Distinct)
    (h : rewriteField target storage created subject field body w = (.ok body', w')) :
    w' = w ∧ Resolved target storage created subject [field] w body body' := by
  cases hpresent : present? body field.name with
  | none =>
    rw [rewriteField, hpresent] at h
    cases h
    refine ⟨rfl, distinct, ?_, fun _ _ => rfl⟩
    intro other hother v' hv'
    obtain rfl := List.mem_singleton.1 hother
    rw [Registry.references_absent hpresent] at hv'
    cases hv'
  | some v =>
    have hv := Registry.distinct_of_present? distinct hpresent
    by_cases hmany : ∃ items allowed, v = .arr items ∧ field.kind = .refList allowed
    · obtain ⟨items, allowed, rfl, hkind⟩ := hmany
      rw [rewriteField_items target storage created subject hpresent hkind, Action.bind_eq_ok] at h
      obtain ⟨items', u, hitems, h⟩ := h
      obtain ⟨rfl, hitems⟩ := rewriteAll_ok reads hitems
      cases h
      have hold : references body field = items := by rw [references, hpresent, hkind]
      rw [Value.Distinct, Json.distinctItems_iff] at hv
      refine ⟨rfl, .insert distinct ?_ ?_⟩
      · rw [Value.Distinct, Json.distinctItems_iff]
        intro v' hv'
        obtain ⟨v, hmem, _, _, -, -, -, hdistinct⟩ := hitems v' hv'
        exact hdistinct (hv v hmem)
      · rw [Registry.references_insert_items hkind, hold]
        exact hitems
    · have hone : ∀ items allowed, v = .arr items → field.kind ≠ .refList allowed := by
        intro items allowed hv hkind
        exact hmany ⟨items, allowed, hv, hkind⟩
      rw [rewriteField_one target storage created subject hpresent hone, Action.bind_eq_ok] at h
      obtain ⟨v', u, hv', h⟩ := h
      obtain ⟨rfl, reference, uri, hreference, huri, hresolve, hdistinct⟩ := rewrite_ok reads hv'
      cases h
      refine ⟨rfl, .insert distinct (hdistinct hv) ?_⟩
      rw [Registry.references_one hpresent (Option.isSome_iff_exists.2 ⟨_, hreference⟩),
        Registry.references_insert_one (Option.isSome_iff_exists.2 ⟨_, huri⟩)]
      intro x hx
      obtain rfl := List.mem_singleton.1 hx
      exact ⟨v, List.mem_singleton_self v, reference, uri, hreference, huri, hresolve, hdistinct⟩

end

theorem Resolved.cons {subject : String} {field : Field} {fields : List Field} {w : ω}
    {body mid body' : Members} (apart : field.name ∉ fields.map Field.name)
    (first : Resolved target storage created subject [field] w body mid)
    (rest : Resolved target storage created subject fields w mid body') :
    Resolved target storage created subject (field :: fields) w body body' where
  distinct := rest.distinct
  rewritten := by
    intro other hother
    obtain rfl | hother := List.mem_cons.1 hother
    · rw [Registry.references_congr (rest.others other.name apart)]
      exact first.rewritten other (List.mem_singleton_self other)
    · have hne : other.name ∉ [field].map Field.name := by
        rw [List.map_singleton, List.mem_singleton]
        intro he
        exact apart (he ▸ List.mem_map_of_mem hother)
      rw [← Registry.references_congr (first.others other.name hne)]
      exact rest.rewritten other hother
  others := by
    intro name hname
    rw [List.map_cons, List.mem_cons, not_or] at hname
    rw [rest.others name hname.2]
    exact first.others name (by rw [List.map_singleton, List.mem_singleton]; exact hname.1)

section

include reads

theorem rewriteFields_ok {subject : String} {fields : List Field} {body body' : Members}
    {w w' : ω} (names : (fields.map Field.name).Nodup) (distinct : body.Distinct)
    (h : rewriteFields target storage created subject fields body w = (.ok body', w')) :
    w' = w ∧ Resolved target storage created subject fields w body body' := by
  induction fields generalizing body with
  | nil =>
    cases h
    exact ⟨rfl, distinct, nofun, fun _ _ => rfl⟩
  | cons field rest ih =>
    rw [List.map_cons, List.nodup_cons] at names
    rw [rewriteFields, Action.bind_eq_ok] at h
    obtain ⟨mid, u, hfirst, h⟩ := h
    obtain ⟨rfl, hfirst⟩ := rewriteField_ok reads distinct hfirst
    obtain ⟨rfl, hrest⟩ := ih names.2 hfirst.distinct h
    exact ⟨rfl, .cons names.1 hfirst hrest⟩

end

section Storing

variable {t : Registry.RecordType} {body : Members}

theorem distinct_storedBody (h : body.Distinct) : (storedBody t body).Distinct := by
  have hremoved := Members.distinct_swapRemove (Members.distinct_swapRemove h "uri") "id"
  exact Members.distinct_insert hremoved (show (Value.str t.name).Distinct from trivial) _

theorem get?_storedBody (h : body.Distinct) {name : String}
    (hname : name ∉ ["uri", "id", "jsonmodel_type"]) :
    (storedBody t body).get? name = body.get? name := by
  simp only [List.mem_cons, List.not_mem_nil, or_false, not_or] at hname
  obtain ⟨huri, hid, htype⟩ := hname
  rw [storedBody, Members.get?_insert_of_ne _ _ (Ne.symm htype),
    Members.get?_swapRemove_of_ne (Members.distinct_swapRemove h "uri") (Ne.symm hid),
    Members.get?_swapRemove_of_ne h (Ne.symm huri)]

theorem get?_storedBody_own (h : body.Distinct) {name : String}
    (hname : name ∈ ["uri", "id", "jsonmodel_type"]) :
    (storedBody t body).get? name
      = if name = "jsonmodel_type" then some (.str t.name) else none := by
  have huri := Members.distinct_swapRemove h "uri"
  have hnodup := ((Members.distinct_iff _).1 h).1
  simp only [List.mem_cons, List.not_mem_nil, or_false] at hname
  rw [storedBody]
  obtain rfl | rfl | rfl := hname
  · rw [Members.get?_insert_of_ne _ _ (by decide),
      Members.get?_swapRemove_of_ne huri (by decide), Members.get?_swapRemove_self hnodup,
      if_neg (by decide)]
  · rw [Members.get?_insert_of_ne _ _ (by decide),
      Members.get?_swapRemove_self (Members.nodup_swapRemove hnodup "uri"), if_neg (by decide)]
  · rw [Members.get?_insert_self, if_pos rfl]

end Storing

end Accession.Batch
