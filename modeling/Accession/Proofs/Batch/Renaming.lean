import Accession.Proofs.Batch.Arrangement
import Accession.Proofs.Batch.Columns
set_option autoImplicit false

namespace Accession.Json

section

variable (key : String) (v w : Value) (ms : Members)

theorem Members.insert_insert : Members.insert key w (ms.insert key v) = ms.insert key w := by
  induction ms with
  | nil => simp [Members.insert]
  | cons m rest ih =>
    rw [Members.insert]
    by_cases hm : m.1 = key
    · simp [Members.insert, hm]
    · simp [Members.insert, hm, ih]

theorem rereadMembers_insert :
    rereadMembers (ms.insert key v) = Members.insert key v.reread (rereadMembers ms) := by
  induction ms with
  | nil => rfl
  | cons m rest ih =>
    obtain ⟨other, u⟩ := m
    rw [Members.insert, rereadMembers, Members.insert]
    dsimp only
    split
    · rfl
    · rw [rereadMembers, ih]

end

end Accession.Json

namespace Accession.Registry

open Json (Value Members)

section

variable {uris uris' rename : String → String}

theorem refValue?_str {s : String} (h : s.isEmpty = false) : refValue? (.str s) = some s :=
  if_neg (by rw [h]; exact Bool.false_ne_true)

theorem refValue?_filled {v : Value} {reference : String} (h : refValue? v = some reference) :
    reference.isEmpty = false := by
  obtain ⟨s, rfl⟩ | ⟨members, rfl⟩ := refValue?_isSome_cases (Option.isSome_iff_exists.2 ⟨_, h⟩)
  · rw [refValue?] at h
    split at h
    · cases h
    · rename_i hfilled
      cases h
      simpa using hfilled
  · rw [refValue?, Option.filter_eq_some_iff] at h
    simpa using h.2

theorem refValue?_insert_ref {s : String} (h : s.isEmpty = false) (members : Members) :
    refValue? (.obj (Members.insert "ref" (.str s) members)) = some s := by
  change ((Members.get? (Members.insert "ref" (.str s) members) "ref").bind
    Value.asString?).filter (fun s => !s.isEmpty) = some s
  rw [Members.get?_insert_self]
  change (some s).filter _ = some s
  rw [Option.filter_some, h]
  rfl

theorem relink_reread {v : Value} {reference : String} (h : refValue? v = some reference)
    (filled : (uris reference).isEmpty = false)
    (renamed : rename (uris reference) = uris' reference) :
    relink rename (relink uris v).reread = (relink uris' v).reread := by
  obtain ⟨s, rfl⟩ | ⟨members, rfl⟩ := refValue?_isSome_cases (Option.isSome_iff_exists.2 ⟨_, h⟩)
  · rw [relink_str h, relink_str h]
    change relink rename (.str (uris reference)) = .str (uris' reference)
    rw [relink_str (refValue?_str filled), renamed]
  · rw [relink_obj h, relink_obj h, Json.reread_obj, Json.reread_obj, Json.rereadMembers_insert,
      Json.rereadMembers_insert]
    change relink rename (.obj (Members.insert "ref" (.str (uris reference)) _)) = _
    rw [relink_obj (refValue?_insert_ref filled _), Members.insert_insert, renamed]
    rfl

theorem Field.relink_reread (field : Field) {body : Members}
    (renamed : ∀ w ∈ references body field, ∃ reference, refValue? w = some reference ∧
      (uris reference).isEmpty = false ∧ rename (uris reference) = uris' reference) :
    ((body.get? field.name).map (field.relink uris)).map
        (fun v => field.relink rename v.reread)
      = ((body.get? field.name).map (field.relink uris')).map Value.reread := by
  cases hget : body.get? field.name with
  | none => rfl
  | some v =>
    rw [Option.map_some, Option.map_some, Option.map_some, Option.map_some, Option.some.injEq]
    cases hnull : v.isNull with
    | true =>
      obtain rfl : v = .null := by cases v <;> first | rfl | cases hnull
      rw [field.relink_null, field.relink_null]
      exact field.relink_null
    | false =>
      have hpresent : present? body field.name = some v := by
        rw [present?, hget, Option.filter_some, hnull]
        rfl
      by_cases hmany : ∃ items allowed, v = .arr items ∧ field.kind = .refList allowed
      · obtain ⟨items, allowed, rfl, hkind⟩ := hmany
        have hitems : references body field = items := by rw [references, hpresent, hkind]
        rw [hitems] at renamed
        rw [Field.relink_items hkind, Field.relink_items hkind, Json.reread_arr, Json.reread_arr,
          Field.relink_items hkind, List.map_map, List.map_map, List.map_map]
        refine congrArg Value.arr (List.map_congr_left (fun w hw => ?_))
        obtain ⟨reference, hreference, hfilled, hrename⟩ := renamed w hw
        exact Registry.relink_reread hreference hfilled hrename
      · have hone : ∀ items allowed, v = .arr items → field.kind ≠ .refList allowed :=
          fun items allowed hv hkind => hmany ⟨items, allowed, hv, hkind⟩
        rw [references_single hpresent hone, List.forall_mem_singleton] at renamed
        obtain ⟨reference, hreference, hfilled, hrename⟩ := renamed
        have hshape : ∀ items allowed, (Registry.relink uris v).reread = .arr items →
            field.kind ≠ .refList allowed := by
          intro items allowed hitems
          obtain ⟨s, rfl⟩ | ⟨members, rfl⟩ :=
            refValue?_isSome_cases (Option.isSome_iff_exists.2 ⟨_, hreference⟩)
          · rw [relink_str hreference] at hitems
            cases hitems
          · rw [relink_obj hreference] at hitems
            cases hitems
        rw [field.relink_one hone, field.relink_one hone, field.relink_one hshape]
        exact Registry.relink_reread hreference hfilled hrename

end

end Accession.Registry

namespace Accession.Batch

open Json (Value Members)
open Registry (isId refValue? references relinkAll shownRepository standard)
open Store (Database)

/-- What is read back of a stored record, with its uris renamed, is what is read back of it stored
with the other uris. -/
theorem Admitted.get?_renamed {record : Record} (admitted : Admitted standard record)
    {uris uris' rename : String → String}
    (renamed : ∀ field ∈ record.type.schema.referenceFields, ∀ w ∈ references record.body field,
      ∃ reference, refValue? w = some reference ∧ (uris reference).isEmpty = false ∧
        rename (uris reference) = uris' reference) (name : String) :
    (relinkAll rename record.type.schema.referenceFields
        (Json.rereadMembers (storedBody record.type (record.relinked uris)))).get? name
      = Members.get? (Json.rereadMembers (storedBody record.type (record.relinked uris')))
          name := by
  obtain ⟨hnames, hapart⟩ := Registry.field_names record.type admitted.registered
  have hbody : ∀ uris, (record.relinked uris).get? name = _ :=
    fun uris => Registry.get?_relinkAll hnames name
  rw [Registry.get?_relinkAll hnames, Json.get?_rereadMembers, Json.get?_rereadMembers]
  by_cases hown : name ∈ ["uri", "id", "jsonmodel_type"]
  · have hnone : record.type.schema.referenceFields.find? (fun field => field.name == name)
        = none := by
      rw [List.find?_eq_none]
      intro field hfield hname
      obtain rfl := eq_of_beq hname
      exact hapart field (List.mem_filter.1 hfield).1 hown
    rw [get?_storedBody_own (admitted.distinct_relinked uris) hown,
      get?_storedBody_own (admitted.distinct_relinked uris') hown, hnone]
  · rw [get?_storedBody (admitted.distinct_relinked uris) hown,
      get?_storedBody (admitted.distinct_relinked uris') hown, hbody, hbody]
    cases hfield : record.type.schema.referenceFields.find? (fun field => field.name == name) with
    | none => rfl
    | some field =>
      obtain rfl : field.name = name := by simpa using List.find?_some hfield
      dsimp only
      rw [Option.map_map, ← Registry.Field.relink_reread field
        (renamed field (List.mem_of_find?_eq_some hfield))]
      rfl

section Entries

variable {repository : Int} {db : Database} {records : List Record}

theorem inTurn_of_mem {turn other : List Record × Record} (hturn : turn ∈ inTurn records)
    (hother : other ∈ inTurn turn.1) : other ∈ inTurn records := by
  obtain ⟨rest, hrecords⟩ := mem_inTurn hturn
  rw [hrecords, inTurn, inTurnAfter_append]
  exact List.mem_append_left _ hother

theorem eq_of_nextId_eq {a b : List Record × Record} (ha : a ∈ inTurn records)
    (hb : b ∈ inTurn records) (htype : a.2.type = b.2.type)
    (hid : nextId db a.1 a.2.type = nextId db b.1 b.2.type) : a = b := by
  have hless : ∀ {a b : List Record × Record} {between : List Record},
      b.1 = a.1 ++ a.2 :: between → a.2.type = b.2.type →
        nextId db a.1 a.2.type < nextId db b.1 b.2.type := by
    intro a b between hfront htype
    have hcount : b.1.countP (fun other => other.type = a.2.type)
        = a.1.countP (fun other => other.type = a.2.type)
          + (between.countP (fun other => other.type = a.2.type) + 1) := by
      rw [hfront, List.countP_append, List.countP_cons_of_pos (by simp)]
    rw [nextId, nextId, ← htype, hcount]
    omega
  obtain ⟨resta, hrecords⟩ := mem_inTurn ha
  obtain ⟨restb, hrecords'⟩ := mem_inTurn hb
  obtain ⟨between, hfront, hrest⟩ | ⟨between, hfront, hrest⟩ :=
    List.append_eq_append_iff.1 (hrecords.symm.trans hrecords')
  · cases between with
    | nil =>
      rw [List.append_nil] at hfront
      exact Prod.ext hfront.symm (List.cons.inj hrest).1
    | cons record between =>
      obtain rfl := (List.cons.inj hrest).1
      exact absurd hid (Int.ne_of_lt (hless hfront htype))
  · cases between with
    | nil =>
      rw [List.append_nil] at hfront
      exact Prod.ext hfront (List.cons.inj hrest).1.symm
    | cons record between =>
      obtain rfl := (List.cons.inj hrest).1
      exact absurd hid.symm (Int.ne_of_lt (hless hfront htype.symm))

theorem lookup_entriesOf (distinct : (records.map Record.logicalId).Nodup)
    {turn : List Record × Record} (hturn : turn ∈ inTurn records) :
    (entriesOf repository db records).lookup turn.2.logicalId
      = some (placeOf repository db turn.1 turn.2) := by
  have hentry : (turn.2.logicalId, placeOf repository db turn.1 turn.2)
      ∈ entriesOf repository db records := List.mem_map_of_mem hturn
  obtain ⟨front, rest, hentries⟩ := List.append_of_mem hentry
  rw [← map_fst_entriesOf repository db, hentries, List.map_append, List.nodup_append] at distinct
  refine List.lookup_eq_some_iff.2 ⟨front, rest, hentries, fun entry hfront => ?_⟩
  obtain ⟨-, -, hapart⟩ := distinct
  exact bne_iff_ne.2 (Ne.symm (hapart _ (List.mem_map_of_mem hfront) _ List.mem_cons_self))

theorem lookup_entriesOf_none {reference : String}
    (hnone : ∀ record ∈ records, record.logicalId ≠ reference) :
    (entriesOf repository db records).lookup reference = none := by
  rw [List.lookup_eq_none_iff, entriesOf, List.forall_mem_map]
  exact fun turn hturn => bne_iff_ne.2 (Ne.symm (hnone turn.2 (mem_of_inTurn hturn)))

section Places

variable (registered : ∀ record ∈ records, record.type ∈ standard.types)
  (ids : ∀ turn ∈ inTurn records, isId (nextId db turn.1 turn.2.type) = true ∧
    (turn.2.type.scope = .repository → isId repository = true))

include registered ids

theorem parseReference?_placeOf {turn : List Record × Record} (hturn : turn ∈ inTurn records) :
    standard.parseReference? (placeOf repository db turn.1 turn.2).uri
      = some ⟨turn.2.type.name, nextId db turn.1 turn.2.type,
          shownRepository turn.2.type repository⟩ := by
  rw [placeOf, Registry.parseReference?_standard (registered _ (mem_of_inTurn hturn)),
    if_pos (ids turn hturn)]

theorem eq_of_uri_eq {a b : List Record × Record} (ha : a ∈ inTurn records)
    (hb : b ∈ inTurn records)
    (huri : (placeOf repository db a.1 a.2).uri = (placeOf repository db b.1 b.2).uri) : a = b := by
  have hparse := parseReference?_placeOf registered ids ha
  rw [huri, parseReference?_placeOf registered ids hb] at hparse
  obtain ⟨hname, hid, -⟩ := Reference.mk.inj (Option.some.inj hparse)
  have htype : a.2.type = b.2.type := by
    have hget := Registry.get?_name a.2.type (registered _ (mem_of_inTurn ha))
    rw [← hname, Registry.get?_name b.2.type (registered _ (mem_of_inTurn hb))] at hget
    exact (Option.some.inj hget).symm
  exact eq_of_nextId_eq ha hb htype hid.symm

theorem Bygone.uri_ne {reference : String} (bygone : Bygone db reference)
    {turn : List Record × Record} (hturn : turn ∈ inTurn records) :
    (placeOf repository db turn.1 turn.2).uri ≠ reference := by
  rintro rfl
  have hle := bygone _ _ (parseReference?_placeOf registered ids hturn)
    (Registry.get?_name _ (registered _ (mem_of_inTurn hturn)))
  have hlt := counter_lt_nextId db turn.1 turn.2.type
  dsimp only at hle
  omega

theorem urisAmong_filled {turn : List Record × Record} (hturn : turn ∈ inTurn records)
    {reference : String} (filled : reference.isEmpty = false) :
    (urisAmong (entriesOf repository db turn.1) reference).isEmpty = false := by
  rw [urisAmong]
  cases hlookup : (entriesOf repository db turn.1).lookup reference with
  | none => exact filled
  | some place =>
    obtain ⟨front, rest, hentries, -⟩ := List.lookup_eq_some_iff.1 hlookup
    have hentry : (reference, place) ∈ entriesOf repository db turn.1 := by
      rw [hentries]
      exact List.mem_append_right _ List.mem_cons_self
    obtain ⟨other, hother, heq⟩ := List.mem_map.1 hentry
    cases heq
    exact Registry.parseReference?_isEmpty
      (parseReference?_placeOf registered ids (inTurn_of_mem hturn hother))

end Places

end Entries

/-- The uri that the same identifier was given elsewhere; other texts stay as they are. -/
def renamedTo (entries entries' : List (String × Persisted)) (uri : String) : String :=
  (((entries.find? (fun entry => entry.2.uri == uri)).bind
    (fun entry => entries'.lookup entry.1)).map Persisted.uri).getD uri

section Renaming

variable {repository : Int} {db : Database} {records records' : List Record}

theorem renamedTo_other (entries' : List (String × Persisted)) {uri : String}
    (hnone : ∀ turn ∈ inTurn records, (placeOf repository db turn.1 turn.2).uri ≠ uri) :
    renamedTo (entriesOf repository db records) entries' uri = uri := by
  have hfind : (entriesOf repository db records).find? (fun entry => entry.2.uri == uri)
      = none := by
    rw [List.find?_eq_none, entriesOf, List.forall_mem_map]
    intro turn hturn hsame
    exact hnone turn hturn (eq_of_beq hsame)
  rw [renamedTo, hfind]
  rfl

variable (registered : ∀ record ∈ records, record.type ∈ standard.types)
  (ids : ∀ turn ∈ inTurn records, isId (nextId db turn.1 turn.2.type) = true ∧
    (turn.2.type.scope = .repository → isId repository = true))
  (distinct' : (records'.map Record.logicalId).Nodup)

include registered ids distinct'

theorem renamedTo_placeOf {turn turn' : List Record × Record} (hturn : turn ∈ inTurn records)
    (hturn' : turn' ∈ inTurn records') (same : turn.2.logicalId = turn'.2.logicalId) :
    renamedTo (entriesOf repository db records) (entriesOf repository db records')
        (placeOf repository db turn.1 turn.2).uri
      = (placeOf repository db turn'.1 turn'.2).uri := by
  rw [renamedTo]
  cases hfind : (entriesOf repository db records).find?
      (fun entry => entry.2.uri == (placeOf repository db turn.1 turn.2).uri) with
  | none =>
    rw [List.find?_eq_none, entriesOf, List.forall_mem_map] at hfind
    exact absurd (beq_self_eq_true _) (hfind turn hturn)
  | some entry =>
    obtain ⟨found, hfound, rfl⟩ := List.mem_map.1 (List.mem_of_find?_eq_some hfind)
    have huri := List.find?_some hfind
    obtain rfl := eq_of_uri_eq registered ids hfound hturn (eq_of_beq huri)
    rw [Option.bind_some, same, lookup_entriesOf distinct' hturn']
    rfl

variable (distinct : (records.map Record.logicalId).Nodup) (settled : Settled db records)
  (settled' : Settled db records')
  (alike : ∀ logicalId, logicalId ∈ records.map Record.logicalId ↔
    logicalId ∈ records'.map Record.logicalId)

include distinct settled settled' alike

/-- What a reference of a record is resolved to is renamed to what it is resolved to elsewhere. -/
theorem renamedTo_urisAmong {turn turn' : List Record × Record} (hturn : turn ∈ inTurn records)
    (hturn' : turn' ∈ inTurn records') {reference : String} (refers : turn.2.Refers reference)
    (refers' : turn'.2.Refers reference) :
    renamedTo (entriesOf repository db records) (entriesOf repository db records')
        (urisAmong (entriesOf repository db turn.1) reference)
      = urisAmong (entriesOf repository db turn'.1) reference := by
  have hnamed : ∀ {records : List Record} {turn : List Record × Record},
      (records.map Record.logicalId).Nodup → turn ∈ inTurn records → ∀ other ∈ inTurn turn.1,
        urisAmong (entriesOf repository db turn.1) other.2.logicalId
          = (placeOf repository db other.1 other.2).uri := by
    intro records turn distinct hturn other hother
    obtain ⟨rest, hrecords⟩ := mem_inTurn hturn
    rw [hrecords, List.map_append, List.nodup_append] at distinct
    rw [urisAmong, lookup_entriesOf distinct.1 hother]
    rfl
  have hunnamed : ∀ {records : List Record} {turn : List Record × Record}, turn ∈ inTurn records →
      (∀ other ∈ records, other.logicalId ≠ reference) →
        urisAmong (entriesOf repository db turn.1) reference = reference := by
    intro records turn hturn hnone
    obtain ⟨rest, hrecords⟩ := mem_inTurn hturn
    rw [hrecords] at hnone
    rw [urisAmong, lookup_entriesOf_none
      (fun other hother => hnone other (List.mem_append_left _ hother))]
    rfl
  obtain ⟨named, hbefore, rfl⟩ | ⟨hnone, bygone⟩ := settled turn hturn reference refers
  · obtain ⟨named', hbefore', hsame⟩ | ⟨hnone', -⟩ := settled' turn' hturn' _ refers'
    · obtain ⟨earlier, hother⟩ := exists_inTurn hbefore
      obtain ⟨earlier', hother'⟩ := exists_inTurn hbefore'
      have hplace := hnamed distinct hturn _ hother
      have hplace' := hnamed distinct' hturn' _ hother'
      dsimp only at hplace hplace'
      rw [hplace, ← hsame, hplace']
      exact renamedTo_placeOf registered ids distinct' (inTurn_of_mem hturn hother)
        (inTurn_of_mem hturn' hother') hsame.symm
    · -- a record of that identifier is in the other batch too
      obtain ⟨rest, hrecords⟩ := mem_inTurn hturn
      have hmem : named ∈ records := by
        rw [hrecords]
        exact List.mem_append_left _ hbefore
      obtain ⟨other, hother, hsame⟩ :=
        List.mem_map.1 ((alike named.logicalId).1 (List.mem_map_of_mem hmem))
      exact absurd hsame (hnone' other hother)
  · have hnone' : ∀ other ∈ records', other.logicalId ≠ reference := by
      rintro other hother rfl
      obtain ⟨found, hfound, hsame⟩ :=
        List.mem_map.1 ((alike other.logicalId).2 (List.mem_map_of_mem hother))
      exact hnone found hfound hsame
    rw [hunnamed hturn hnone, hunnamed hturn' hnone']
    exact renamedTo_other _ (fun other hother => bygone.uri_ne registered ids hother)

end Renaming

end Accession.Batch
