import Accession.Proofs.Batch.Records
import Accession.Proofs.Batch.Resolution
set_option autoImplicit false

namespace Accession.Registry

open Json (Value Members)

def FieldKind.Holds (kind : FieldKind) (v : Value) : Prop :=
  match kind with
  | .refList _ => ∃ items, v = .arr items ∧ ∀ item ∈ items, (refValue? item).isSome = true
  | _ => (refValue? v).isSome = true

def Shaped (body : Members) (field : Field) : Prop :=
  ∀ v, present? body field.name = some v → field.kind.Holds v

theorem firstRefused_eq_none_iff {α : Type} {accepts : α → Bool} {index : Nat} {xs : List α} :
    firstRefused accepts index xs = none ↔ ∀ x ∈ xs, accepts x = true := by
  induction xs generalizing index with
  | nil => exact ⟨fun _ => nofun, fun _ => rfl⟩
  | cons x xs ih =>
    rw [firstRefused, List.forall_mem_cons]
    cases hx : accepts x with
    | true => simpa using ih
    | false => simp

theorem Field.violation?_eq_none_iff {field : Field} (reference : field.kind.isReference = true)
    {v : Value} : field.violation? v = none ↔ field.kind.Holds v := by
  obtain ⟨name, kind, required⟩ := field
  cases kind with
  | ref allowed =>
    cases h : refValue? v <;> simp [Field.violation?, FieldKind.Holds, h]
  | refList allowed =>
    cases v with
    | arr items => simp [Field.violation?, FieldKind.Holds, firstRefused_eq_none_iff]
    | null | bool | num | str | obj => simp [Field.violation?, FieldKind.Holds]
  | string | integer | boolean | array | object | nameList => cases reference

section

variable {body : Members} {field : Field} {v v' : Value}

theorem Schema.shaped {schema : Schema} (admits : schema.admits body = true)
    (declared : field ∈ schema.referenceFields) : Shaped body field := by
  obtain ⟨hmem, hreference⟩ := List.mem_filter.1 declared
  have hcheck : field.check body = none := by simpa using List.all_eq_true.1 admits field hmem
  intro v hv
  rw [Field.check, hv] at hcheck
  exact (Field.violation?_eq_none_iff hreference).1 hcheck

theorem Shaped.references (h : Shaped body field) :
    ∀ v ∈ references body field, (refValue? v).isSome = true := by
  cases hpresent : present? body field.name with
  | none => simp [references_absent hpresent]
  | some v =>
    have hv := h v hpresent
    unfold FieldKind.Holds at hv
    split at hv
    · rename_i hkind
      obtain ⟨items, rfl, hitems⟩ := hv
      rw [Registry.references, hpresent, hkind]
      exact hitems
    · rw [references_one hpresent hv]
      simpa using hv

/-- A reference in the place of a reference, or a list of references in the place of a list. -/
inductive Reshaped : Value → Value → Prop where
  | one {v v' : Value} (before : (refValue? v).isSome = true)
      (after : (refValue? v').isSome = true) : Reshaped v v'
  | many {items items' : List Value}
      (after : ∀ item ∈ items', (refValue? item).isSome = true) :
      Reshaped (.arr items) (.arr items')

theorem Reshaped.isNull (h : Reshaped v v') : v'.isNull = false := by
  cases h with
  | one _ after => obtain ⟨s, rfl⟩ | ⟨members, rfl⟩ := refValue?_isSome_cases after <;> rfl
  | many => rfl

theorem Reshaped.holds {kind : FieldKind} (h : Reshaped v v') (hv : kind.Holds v) :
    kind.Holds v' := by
  unfold FieldKind.Holds at hv ⊢
  cases h with
  | one before after =>
    split at hv
    · obtain ⟨items, rfl, -⟩ := hv
      cases before
    · exact after
  | many after =>
    split at hv
    · exact ⟨_, rfl, after⟩
    · cases hv

theorem Reshaped.shaped {name : String} (h : Reshaped v v') (hv : present? body name = some v)
    (shaped : Shaped body field) : Shaped (body.insert name v') field := by
  intro u hu
  by_cases hname : name = field.name
  · subst hname
    rw [present?_insert h.isNull] at hu
    cases hu
    exact h.holds (shaped v hv)
  · rw [present?, Members.get?_insert_of_ne v' body hname] at hu
    exact shaped u hu

end

end Accession.Registry

namespace Accession.Batch

open Json (Value Members)
open Registry (Field RecordType Shaped Reshaped refValue? references present?)

section Ends

variable {ω α β : Type}

/-- An action whose values are good and whose failures are accounted for. -/
structure Meets (good : α → Prop) (fails : ImportError → ω → Prop) (x : Action ω α) : Prop where
  ok : ∀ {w w' : ω} {a : α}, x w = (.ok a, w') → good a
  error : ∀ {w w' : ω} {e : ImportError}, x w = (.error e, w') → fails e w'

namespace Meets

variable {good : α → Prop} {fails fails' : ImportError → ω → Prop} {x : Action ω α}

theorem pure {a : α} (h : good a) : Meets good fails (pure a) where
  ok hrun := by
    cases hrun
    exact h
  error hrun := by cases hrun

theorem throw {e : ImportError} (h : ∀ w, fails e w) : Meets good fails (throw e) where
  ok hrun := by cases hrun
  error hrun := by
    cases hrun
    exact h _

theorem bind {better : β → Prop} {f : α → Action ω β} (hx : Meets good fails x)
    (hf : ∀ a, good a → Meets better fails (f a)) : Meets better fails (x >>= f) where
  ok hrun := by
    obtain ⟨a, v, ha, hrun⟩ := Action.bind_eq_ok.1 hrun
    exact (hf a (hx.ok ha)).ok hrun
  error {w _ _} hrun := by
    rw [Action.bind_run] at hrun
    rcases hw : x w with ⟨e | a, v⟩ <;> rw [hw] at hrun
    · cases hrun
      exact hx.error hw
    · exact (hf a (hx.ok hw)).error hrun

theorem imp (h : Meets good fails x) (more : ∀ e w, fails e w → fails' e w) :
    Meets good fails' x where
  ok := h.ok
  error hrun := more _ _ (h.error hrun)

end Meets

def Storage.Fails (storage : Storage ω) (e : ImportError) (w' : ω) : Prop :=
  (∃ t id repository w, storage.recordExists t id repository w = (.error e, w')) ∨
    ∃ record w, storage.insert record w = (.error e, w')

theorem Storage.recordExists_meets (storage : Storage ω) (t : RecordType) (id : Int)
    (repository : Option Int) :
    Meets (fun _ => True) storage.Fails (storage.recordExists t id repository) :=
  ⟨fun _ => trivial, fun hrun => .inl ⟨t, id, repository, _, hrun⟩⟩

theorem Storage.insert_meets (storage : Storage ω) (record : NewRecord) :
    Meets (fun _ => True) storage.Fails (storage.insert record) :=
  ⟨fun _ => trivial, fun hrun => .inr ⟨record, _, hrun⟩⟩

end Ends

/-- What is wrong with a reference besides its shape: it names nothing, or a record of a registered
type that the field does not allow. -/
inductive Site.Refuses (site : Site) (registry : Registry) : ImportError → Prop where
  | unresolved (reference : String) : site.Refuses registry (site.unresolved reference)
  | notAllowed {t : RecordType} (registered : t ∈ registry.types)
      (excluded : t.name ∉ site.allowed) : site.Refuses registry (site.notAllowed t.name)

theorem Site.parse_error {site : Site} {registry : Registry} {reference uri : String}
    {e : ImportError} (h : site.parse registry reference uri = .error e) :
    site.Refuses registry e := by
  unfold Site.parse at h
  split at h
  · cases h
    exact .unresolved reference
  · rename_i parsed hparsed
    split at h
    · cases h
    · rename_i hallowed
      cases h
      obtain ⟨t, ht, hname, -⟩ := Registry.parseReference?_type hparsed
      rw [← hname] at hallowed ⊢
      exact .notAllowed ht (fun hmem => hallowed (List.contains_iff_mem.2 hmem))

section Resolving

variable {ω : Type} (target : Target) (storage : Storage ω) (created : Created)

def Site.Fails (site : Site) (e : ImportError) (w' : ω) : Prop :=
  site.Refuses target.registry e ∨ storage.Fails e w'

theorem resolve_meets (site : Site) (reference : String) :
    Meets (fun uri => uri.isEmpty = false) (site.Fails target storage)
      (resolve target storage created site reference) := by
  have hparse (uri : String) :
      Meets (fun r => target.registry.parseReference? uri = some r) (site.Fails target storage)
        (resolve.liftExcept (site.parse target.registry reference uri)) := by
    cases h : site.parse target.registry reference uri with
    | error e => exact .throw (fun _ => .inl (Site.parse_error h))
    | ok r => exact .pure (Site.parse_ok h).1
  have hunresolved {α : Type} {good : α → Prop} :
      Meets good (site.Fails target storage) (throw (site.unresolved reference)) :=
    .throw (fun _ => .inl (.unresolved reference))
  unfold resolve
  split
  · exact (hparse _).bind (fun r hr => .pure (Registry.parseReference?_isEmpty hr))
  · refine (hparse _).bind (fun r hr => ?_)
    by_cases hother : r.repository.any (· != target.repository) = true
    · rw [if_pos hother]
      exact hunresolved
    · rw [if_neg hother]
      dsimp only
      split
      · exact hunresolved
      · rename_i t _
        have hexists := (storage.recordExists_meets t r.id r.repository).imp
          (fun e w h => (.inr h : site.Fails target storage e w))
        refine hexists.bind (fun found _ => ?_)
        cases found with
        | true => exact .pure (Registry.parseReference?_isEmpty hr)
        | false => exact hunresolved

theorem rewrite_meets (site : Site) {v : Value} (reference : (refValue? v).isSome = true) :
    Meets (fun v' => (refValue? v').isSome = true) (site.Fails target storage)
      (rewrite target storage created site v) := by
  obtain ⟨text, htext⟩ := Option.isSome_iff_exists.1 reference
  rw [rewrite, htext]
  refine (resolve_meets target storage created site text).bind (fun uri huri => ?_)
  split
  · refine .pure ?_
    rw [refValue?, Members.get?_insert_self]
    simp [Value.asString?, huri]
  · refine .pure ?_
    rw [refValue?, huri]
    rfl

theorem rewriteAll_meets (site : Site) {items : List Value}
    (each : ∀ item ∈ items, (refValue? item).isSome = true) :
    Meets (fun items' => ∀ item ∈ items', (refValue? item).isSome = true)
      (site.Fails target storage) (rewriteAll target storage created site items) := by
  induction items with
  | nil => exact .pure nofun
  | cons v rest ih =>
    obtain ⟨hv, hrest⟩ := List.forall_mem_cons.1 each
    refine (rewrite_meets target storage created site hv).bind (fun v' hv' => ?_)
    refine (ih hrest).bind (fun rest' hrest' => ?_)
    exact .pure (List.forall_mem_cons.2 ⟨hv', hrest'⟩)

theorem rewriteField_meets (subject : String) {field : Field} {body : Members}
    (shaped : Shaped body field) :
    Meets (fun body' => ∀ other, Shaped body other → Shaped body' other)
      ((siteOf subject field).Fails target storage)
      (rewriteField target storage created subject field body) := by
  cases hpresent : present? body field.name with
  | none =>
    rw [rewriteField, hpresent]
    exact .pure (fun _ h => h)
  | some v =>
    have hholds := shaped v hpresent
    unfold Registry.FieldKind.Holds at hholds
    split at hholds
    · rename_i allowed hkind
      obtain ⟨items, rfl, hitems⟩ := hholds
      rw [rewriteField_items target storage created subject hpresent hkind]
      refine (rewriteAll_meets target storage created _ hitems).bind (fun items' hitems' => ?_)
      exact .pure (fun _ h => (Reshaped.many hitems').shaped hpresent h)
    · rename_i hkind
      have one : ∀ items allowed, v = .arr items → field.kind ≠ .refList allowed :=
        fun _ allowed _ => hkind allowed
      rw [rewriteField_one target storage created subject hpresent one]
      refine (rewrite_meets target storage created _ hholds).bind (fun v' hv' => ?_)
      exact .pure (fun _ h => (Reshaped.one hholds hv').shaped hpresent h)

def FieldsFail (subject : String) (fields : List Field) (e : ImportError) (w' : ω) : Prop :=
  (∃ field ∈ fields, (siteOf subject field).Refuses target.registry e) ∨ storage.Fails e w'

variable {target storage}

theorem Site.Fails.among {subject : String} {field : Field} {fields : List Field} {e : ImportError}
    {w : ω} (h : (siteOf subject field).Fails target storage e w) (hmem : field ∈ fields) :
    FieldsFail target storage subject fields e w :=
  h.imp (fun refuses => ⟨field, hmem, refuses⟩) id

theorem FieldsFail.cons {subject : String} {fields : List Field} {e : ImportError} {w : ω}
    (h : FieldsFail target storage subject fields e w) (field : Field) :
    FieldsFail target storage subject (field :: fields) e w :=
  h.imp (fun ⟨other, hother, refuses⟩ => ⟨other, List.mem_cons_of_mem _ hother, refuses⟩) id

variable (target storage)

theorem rewriteFields_meets (subject : String) {fields : List Field} {body : Members}
    (shaped : ∀ field ∈ fields, Shaped body field) :
    Meets (fun body' => ∀ other, Shaped body other → Shaped body' other)
      (FieldsFail target storage subject fields)
      (rewriteFields target storage created subject fields body) := by
  induction fields generalizing body with
  | nil => exact .pure (fun _ h => h)
  | cons field rest ih =>
    obtain ⟨hfield, hrest⟩ := List.forall_mem_cons.1 shaped
    have first := rewriteField_meets target storage created subject hfield
    refine (first.imp (fun _ _ h => h.among List.mem_cons_self)).bind (fun body' keeps => ?_)
    have later := ih (fun other hother => keeps other (hrest other hother))
    exact ⟨fun hrun other h => later.ok hrun other (keeps other h),
      fun hrun => (later.error hrun).cons field⟩

theorem persist_meets {record : Record}
    (shaped : ∀ field ∈ record.type.schema.referenceFields, Shaped record.body field) :
    Meets (fun _ => True)
      (FieldsFail target storage record.logicalId record.type.schema.referenceFields)
      (persist target storage created record) := by
  refine (rewriteFields_meets target storage created _ shaped).bind (fun body _ => ?_)
  have inserts := (storage.insert_meets (newRecord target record body)).imp
    (fun e w h => (.inr h :
      FieldsFail target storage record.logicalId record.type.schema.referenceFields e w))
  exact inserts.bind (fun _ _ => .pure trivial)

end Resolving

/-- The two reports that resolving has for a value end in different letters. -/
theorem Site.notReference_ne_notAllowed (site other : Site) (typeName : String) :
    site.notReference ≠ other.notAllowed typeName := by
  intro h
  rw [Site.notReference, Site.notAllowed, ImportError.validation.injEq, List.cons.injEq] at h
  have hreference : ∀ s : String,
      (s ++ ": Property was expected to be a reference").toList.getLast? = some 'e' := by
    intro s
    simp [List.getLast?_append]
  have hallowed : ∀ s : String, (s ++ ")").toList.getLast? = some ')' := by
    intro s
    simp
  have hlast := congrArg (fun s => s.toList.getLast?) h.2.1
  rw [hreference, hallowed] at hlast
  exact absurd hlast (by decide)

/-- While a record that was yielded is stored, resolving meets a list of references wherever a list is
declared, and a text in every reference it takes up, however many fields it has rewritten before and
however often their names are declared. So no value is ever found to be no reference. What ends the
storing of a record is a call of the storage, a reference that names nothing, or a reference to a
registered type that a declared field does not allow. -/
theorem reference_shapes_hold {ω : Type} (target : Target) (storage : Storage ω)
    (body : List UInt8) {record : Record} (yielded : record ∈ (recordsOf target.registry body).1)
    (created : Created) (w : ω) :
    (∀ front field rest, record.type.schema.referenceFields = front ++ field :: rest →
      ∀ mid w', rewriteFields target storage created record.logicalId front record.body w
          = (.ok mid, w') →
        (∀ allowed v, field.kind = .refList allowed → present? mid field.name = some v →
          ∃ items, v = .arr items) ∧
        ∀ v ∈ references mid field, ∃ text, refValue? v = some text) ∧
    ∀ e w', persist target storage created record w = (.error e, w') →
      (∀ site : Site, e = site.notReference → storage.Fails e w') ∧
      (storage.Fails e w' ∨
        ∃ field ∈ record.type.schema.referenceFields,
          (∃ reference, e = .unresolved record.logicalId field.name reference) ∨
          ∃ allowed, field.kind.allowed? = some allowed ∧
            ∃ t ∈ target.registry.types, t.name ∉ allowed ∧
              e = .validation record.logicalId
                [field.name ++ ": Reference to a " ++ t.name
                  ++ " is not allowed (expected one of: " ++ ", ".intercalate allowed ++ ")"]) := by
  have hshaped : ∀ field ∈ record.type.schema.referenceFields, Shaped record.body field :=
    fun _ declared => Registry.Schema.shaped (recordsOf_admitted yielded).valid declared
  constructor
  · intro front field rest hfields mid w' hrun
    have hfront : ∀ other ∈ front, Shaped record.body other :=
      fun other hother => hshaped other (hfields ▸ List.mem_append_left _ hother)
    have hfield : Shaped mid field :=
      (rewriteFields_meets target storage created record.logicalId hfront).ok hrun field
        (hshaped field (hfields ▸ List.mem_append_right _ List.mem_cons_self))
    refine ⟨?_, fun v hv => Option.isSome_iff_exists.1 (hfield.references v hv)⟩
    intro allowed v hkind hv
    have hholds := hfield v hv
    rw [hkind] at hholds
    obtain ⟨items, hitems, -⟩ := hholds
    exact ⟨items, hitems⟩
  · intro e w' hrun
    obtain ⟨field, hmem, hrefuses⟩ | hstorage :=
      (persist_meets target storage created hshaped).error hrun
    · obtain ⟨allowed, hallowed⟩ := Option.isSome_iff_exists.1 (List.mem_filter.1 hmem).2
      cases hrefuses with
      | unresolved reference =>
        exact ⟨nofun, .inr ⟨field, hmem, .inl ⟨reference, rfl⟩⟩⟩
      | @notAllowed t registered excluded =>
        refine ⟨fun site h => absurd h.symm (Site.notReference_ne_notAllowed site _ _), ?_⟩
        have hsite : (siteOf record.logicalId field).allowed = allowed := by
          rw [siteOf, hallowed]
          rfl
        rw [hsite] at excluded
        refine .inr ⟨field, hmem, .inr ⟨allowed, hallowed, t, registered, excluded, ?_⟩⟩
        rw [Site.notAllowed, hsite]
        rfl
    · exact ⟨fun _ _ => hstorage, .inl hstorage⟩

/-- Notes that declare their parent twice, for notes and for topics. -/
def note : RecordType where
  name := "note"
  table := "notes"
  uriSegment := "notes"
  scope := .repository
  schema := ⟨[⟨"parent", .ref ["note"], false⟩, ⟨"parent", .ref ["topic"], false⟩]⟩

def notes : Target :=
  ⟨⟨[note], "note"⟩, 1⟩

def obliging : Storage Unit where
  transactional := true
  begin := return
  recordExists _ _ _ := return true
  insert _ := return 1
  commit := return
  rollback := return

def replies : List UInt8 :=
  Text.Utf8.encode "\x7b\"id\":\"a\"\x7d\x7b\"id\":\"b\",\"parent\":\x7b\"ref\":\"a\"\x7d\x7d"

def reply : Record :=
  (recordsOf notes.registry replies).1.get ⟨1, by decide +kernel⟩

def answered : Created :=
  (Created.empty.insert "a" ⟨"/repositories/1/notes/7", 7⟩).1

/-- The second declaration meets the uri that the first one left, and refuses what it names. -/
theorem reference_shapes_hold_reply :
    (∃ mid, rewriteFields notes obliging answered "b" [⟨"parent", .ref ["note"], false⟩] reply.body ()
        = (.ok mid, ()) ∧
      (∀ v ∈ references mid ⟨"parent", .ref ["topic"], false⟩, ∃ text, refValue? v = some text) ∧
      (references mid ⟨"parent", .ref ["topic"], false⟩).map refValue?
        = [some "/repositories/1/notes/7"]) ∧
    ∃ e, persist notes obliging answered reply () = (.error e, ()) ∧
      e = .validation "b" ["parent: Reference to a note is not allowed (expected one of: topic)"] ∧
      ∀ site : Site, e = site.notReference → obliging.Fails e () := by
  have hyielded : reply ∈ (recordsOf notes.registry replies).1 := by
    unfold reply
    exact List.get_mem _ _
  obtain ⟨hshapes, herrors⟩ :=
    reference_shapes_hold notes obliging replies hyielded answered ()
  have hid : reply.logicalId = "b" := by decide +kernel
  have hfields : reply.type.schema.referenceFields
      = [⟨"parent", .ref ["note"], false⟩, ⟨"parent", .ref ["topic"], false⟩] := by decide +kernel
  have htexts : (rewriteFields notes obliging answered "b" [⟨"parent", .ref ["note"], false⟩]
      reply.body ()).1.toOption.map
        (fun mid => (references mid ⟨"parent", .ref ["topic"], false⟩).map refValue?)
      = some [some "/repositories/1/notes/7"] := by decide +kernel
  constructor
  · rcases hrun : rewriteFields notes obliging answered "b" [⟨"parent", .ref ["note"], false⟩]
      reply.body () with ⟨e | mid, w⟩ <;> rw [hrun] at htexts
    · cases htexts
    · rw [hid] at hshapes
      obtain ⟨-, hmet⟩ := hshapes [_] _ [] hfields mid w hrun
      exact ⟨mid, rfl, hmet, Option.some.inj htexts⟩
  · have herror : (match (persist notes obliging answered reply ()).1 with
        | .ok _ => none
        | .error e => some e)
      = some (.validation "b"
          ["parent: Reference to a note is not allowed (expected one of: topic)"]) := by
      decide +kernel
    rcases hrun : persist notes obliging answered reply () with ⟨e | persisted, w⟩ <;>
      rw [hrun] at herror
    · exact ⟨e, rfl, Option.some.inj herror, (herrors e w hrun).1⟩
    · cases herror

end Accession.Batch
