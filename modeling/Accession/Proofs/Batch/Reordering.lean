import Accession.Proofs.Batch.Modes
import Accession.Proofs.Batch.Renaming
set_option autoImplicit false

namespace Accession.Batch

open Json (Members)
open Registry (isId refValue? references relinkAll standard)
open Store (Connection Database Shelved)

section Objects

/-- What the pieces of a body are read as, one after another: objects, or why they are none. -/
def Comprises (body : List UInt8) (objects : List (Except Json.ReadError Members)) : Prop :=
  ∃ texts, pieces .start body = some texts ∧ texts.map Json.parseObject = objects

/-- The identifier of an object. -/
def knownAs (object : Except Json.ReadError Members) : Option String :=
  object.toOption.bind logicalId?

/-- The references of an object in the fields that its type declares. -/
def mentioned (object : Except Json.ReadError Members) : List String :=
  match object with
  | .error _ => []
  | .ok body =>
    match recordType? standard body with
    | none => []
    | some t => t.schema.referenceFields.flatMap
        (fun field => (references body field).filterMap refValue?)

/-- Every reference is the identifier of an object that comes before, or of none and bygone. -/
def Arranged (db : Database) (objects : List (Except Json.ReadError Members)) : Prop :=
  ∀ i, ∀ h : i < objects.length, ∀ reference ∈ mentioned (objects.get ⟨i, h⟩),
    (∃ other ∈ objects.take i, knownAs other = some reference) ∨
      (∀ other ∈ objects, knownAs other ≠ some reference) ∧ Bygone db reference

instance (db : Database) (objects : List (Except Json.ReadError Members)) :
    Decidable (Arranged db objects) :=
  inferInstanceAs (Decidable (∀ i, ∀ h : i < objects.length,
    ∀ reference ∈ mentioned (objects.get ⟨i, h⟩),
      (∃ other ∈ objects.take i, knownAs other = some reference) ∨
        (∀ other ∈ objects, knownAs other ≠ some reference) ∧ Bygone db reference))

theorem parsed_iff {position : Nat} {texts : List (List UInt8)} {records : List Record} :
    Parsed position texts records ↔
      texts.map Json.parseObject = records.map (fun record => .ok record.body) ∧
        records.map Record.position = List.range' (position + 1) records.length := by
  constructor
  · intro parsed
    induction parsed with
    | nil => exact ⟨rfl, rfl⟩
    | cons parsed counted _ ih =>
      refine ⟨?_, ?_⟩
      · rw [List.map_cons, List.map_cons, parsed, ih.1]
      · rw [List.map_cons, counted, ih.2]
        rfl
  · rintro ⟨hread, hcount⟩
    induction texts generalizing position records with
    | nil =>
      obtain rfl := List.map_eq_nil_iff.1 hread.symm
      exact .nil
    | cons text texts ih =>
      obtain ⟨record, rest, rfl, hbody, hrest⟩ := List.map_eq_cons_iff.1 hread.symm
      obtain ⟨hposition, hpositions⟩ := List.cons.inj hcount
      exact .cons hbody.symm hposition (ih hrest.symm hpositions)

variable {body body' : List UInt8} {objects objects' : List (Except Json.ReadError Members)}

theorem Comprises.carries_iff (comprises : Comprises body objects) {records : List Record} :
    Carries body records ↔
      objects = records.map (fun record => .ok record.body) ∧
        records.map Record.position = List.range' 1 records.length := by
  obtain ⟨texts, htexts, rfl⟩ := comprises
  rw [← Nat.zero_add 1, ← parsed_iff]
  constructor
  · rintro ⟨ps, accepted, framing, parsed⟩
    have hps : pieces .start body = some ps := by
      obtain framing | framing := framing
      · exact pieces_arrayFraming framing accepted
      · exact (pieces_sequenceFraming framing accepted).1
    rw [htexts] at hps
    cases hps
    exact parsed
  · intro parsed
    refine ⟨texts, ?_, expects_pieces htexts, parsed⟩
    intro text htext
    obtain ⟨ms, hms⟩ := parsed.accepted text htext
    have begun : Begun .start := trivial
    exact isRecord_of_bracketed (pieces_bracketed begun htexts text htext) hms

def counted (position : Nat) : List Record → List Record
  | [] => []
  | record :: rest => { record with position := position + 1 } :: counted (position + 1) rest

theorem map_counted {α : Type} {f : Record → α}
    (same : ∀ record position, f { record with position } = f record) (position : Nat)
    (records : List Record) : (counted position records).map f = records.map f := by
  induction records generalizing position with
  | nil => rfl
  | cons record rest ih => rw [counted, List.map_cons, List.map_cons, same, ih]

theorem map_position_counted (position : Nat) (records : List Record) :
    (counted position records).map Record.position
      = List.range' (position + 1) (counted position records).length := by
  induction records generalizing position with
  | nil => rfl
  | cons record rest ih =>
    rw [counted, List.map_cons, ih]
    rfl

theorem Comprises.records_perm (comprises : Comprises body objects)
    (comprises' : Comprises body' objects') (permuted : objects.Perm objects')
    {records : List Record} (read : recordsOf standard body = (records, none)) :
    ∃ records', recordsOf standard body' = (records', none) ∧
      (records.map Record.unplaced).Perm (records'.map Record.unplaced) := by
  obtain ⟨carried, sorted, distinct⟩ := (recordsOf_eq_iff standard body records).1 read
  obtain ⟨rfl, -⟩ := comprises.carries_iff.1 carried
  obtain ⟨moved, rfl, hmoved⟩ : ∃ moved : List Record,
      objects' = moved.map (fun record => .ok record.body) ∧ moved.Perm records := by
    have h := congrFun₂ (List.eq_map_comp_perm
      (fun record : Record => (.ok record.body : Except Json.ReadError Members))) objects' records
    exact h.mpr permuted.symm
  have hunplaced : (counted 0 moved).map Record.unplaced = moved.map Record.unplaced :=
    map_counted (fun _ _ => rfl) 0 moved
  have hids : (counted 0 moved).map Record.logicalId = moved.map Record.logicalId :=
    map_counted (fun _ _ => rfl) 0 moved
  refine ⟨counted 0 moved, (recordsOf_eq_iff standard body' _).2 ⟨?_, ?_, ?_⟩, ?_⟩
  · exact comprises'.carries_iff.2
      ⟨(map_counted (fun _ _ => rfl) 0 moved).symm, map_position_counted 0 moved⟩
  · intro record hrecord
    have hthere : record.unplaced ∈ moved.map Record.unplaced := by
      rw [← hunplaced]
      exact List.mem_map_of_mem hrecord
    obtain ⟨other, hother, hsame⟩ := List.mem_map.1 hthere
    obtain ⟨identified, typed, valid⟩ := sorted other (hmoved.mem_iff.1 hother)
    have hsorted : Sorted standard other.unplaced := ⟨identified, typed, valid⟩
    rw [hsame] at hsorted
    exact ⟨hsorted.identified, hsorted.typed, hsorted.valid⟩
  · rw [hids]
    exact (hmoved.map Record.logicalId).nodup_iff.2 distinct
  · rw [hunplaced]
    exact (hmoved.map Record.unplaced).symm

theorem Comprises.settled (comprises : Comprises body objects) {db : Database}
    (arranged : Arranged db objects) {records : List Record}
    (read : recordsOf standard body = (records, none)) :
    Settled db records := by
  obtain ⟨carried, sorted, -⟩ := (recordsOf_eq_iff standard body records).1 read
  obtain ⟨rfl, -⟩ := comprises.carries_iff.1 carried
  have hknown : ∀ record ∈ records, knownAs (.ok record.body) = some record.logicalId :=
    fun record hrecord => logicalId?_eq_some_iff.2 (sorted record hrecord).identified
  intro turn hturn reference refers
  obtain ⟨rest, rfl⟩ := mem_inTurn hturn
  have htyped := recordType?_eq_some_iff.2 (sorted turn.2 (mem_of_inTurn hturn)).typed
  have hmentioned : reference ∈ mentioned (.ok turn.2.body) := by
    rw [mentioned, htyped]
    obtain ⟨field, hfield, v, hv, hreference⟩ := refers
    exact List.mem_flatMap.2 ⟨field, hfield, List.mem_filterMap.2 ⟨v, hv, hreference⟩⟩
  have hlength : turn.1.length < ((turn.1 ++ turn.2 :: rest).map
      (fun record : Record => (.ok record.body : Except Json.ReadError Members))).length := by
    simp
  have hplace := arranged turn.1.length hlength reference (by simpa using hmentioned)
  rw [List.map_append, List.take_left' (List.length_map _)] at hplace
  obtain ⟨other, hother, hname⟩ | ⟨hnone, bygone⟩ := hplace
  · obtain ⟨record, hrecord, rfl⟩ := List.mem_map.1 hother
    rw [hknown record (List.mem_append_left _ hrecord), Option.some.injEq] at hname
    exact .inl ⟨record, hrecord, hname⟩
  · refine .inr ⟨fun other hother hsame => ?_, bygone⟩
    rw [← List.map_append] at hnone
    exact hnone _ (List.mem_map_of_mem hother) (by rw [hknown other hother, hsame])

end Objects

section Importing

variable {i : Import} {db : Database} (clean : i.faults = FaultPlan.empty) (numbered : db.Numbered)

include clean numbered

/-- Without faults an import succeeds exactly if its body is read to its end and every record of it
can be stored in its turn. Then all of them are stored. -/
theorem Import.storable {records : List Record} {ending : Option ImportError}
    (read : recordsOf standard i.body = (records, ending)) :
    ((i.outcome standard db).isSuccess = true ↔ ending = none ∧
      ∀ turn ∈ inTurn records, Storable i.repository db turn.1 turn.2) ∧
    ((i.outcome standard db).isSuccess = true → Progress i.repository db records
      (i.outcome standard db).saved (i.database standard db)) := by
  have registered : ∀ record ∈ records, record.type ∈ standard.types :=
    fun record hrecord => (admitted_of_read read record hrecord).registered
  have distinct : (records.map Record.logicalId).Nodup := by
    have h := recordsOf_nodup standard i.body
    rwa [read] at h
  obtain ⟨⟨created, error⟩, world, hrun, hsuccess, hprogress, -⟩ := persistAll_storable numbered
    false ending [] records { storage := { database := db } } registered distinct
    (progress_refl i.repository db)
  have hstored : stored (i.target standard) db i.body = (⟨created, error⟩, world) := by
    rw [stored_eq]
    change persistAll _ _ (recordsOf standard i.body).2 (recordsOf standard i.body).1 _ _ = _
    rw [read]
    exact hrun
  have hended : (i.outcome standard db).isSuccess = true ↔ error = none := by
    cases error with
    | none =>
      obtain ⟨houtcome, -⟩ := Import.run_of_stored standard db clean hstored
      rw [houtcome]
      exact iff_of_true rfl rfl
    | some e =>
      rw [Outcome.isSuccess, Import.errors_of_stored standard db clean hstored]
      exact ⟨(fun h => by cases h), (fun h => by cases h)⟩
  refine ⟨hended.trans hsuccess, fun success => ?_⟩
  obtain rfl := hended.1 success
  obtain ⟨houtcome, hdatabase⟩ := Import.run_of_stored standard db clean hstored
  rw [houtcome, hdatabase]
  exact hprogress rfl

theorem Import.success_iff_fits {objects : List (Except Json.ReadError Members)}
    (comprises : Comprises i.body objects) (arranged : Arranged db objects) :
    (i.outcome standard db).isSuccess = true ↔
      ∃ records, recordsOf standard i.body = (records, none) ∧ Fits i.repository db records := by
  rcases hread : recordsOf standard i.body with ⟨records, ending⟩
  rw [(Import.storable clean numbered hread).1]
  constructor
  · rintro ⟨rfl, storable⟩
    obtain ⟨-, -, distinct⟩ := (recordsOf_eq_iff standard i.body records).1 hread
    have settled := comprises.settled arranged hread
    exact ⟨records, rfl, (forall_storable_iff settled distinct).1 storable⟩
  · rintro ⟨_, heq, fits⟩
    cases heq
    obtain ⟨-, -, distinct⟩ := (recordsOf_eq_iff standard i.body records).1 hread
    exact ⟨rfl, (forall_storable_iff (comprises.settled arranged hread) distinct).2 fits⟩

theorem Import.success_perm (other : Import) (clean' : other.faults = FaultPlan.empty)
    (target : other.repository = i.repository)
    {objects objects' : List (Except Json.ReadError Members)} (comprises : Comprises i.body objects)
    (comprises' : Comprises other.body objects') (permuted : objects.Perm objects')
    (arranged : Arranged db objects) (arranged' : Arranged db objects')
    (success : (i.outcome standard db).isSuccess = true) :
    (other.outcome standard db).isSuccess = true := by
  obtain ⟨records, hread, fits⟩ :=
    (Import.success_iff_fits clean numbered comprises arranged).1 success
  obtain ⟨records', hread', hpermuted⟩ := comprises.records_perm comprises' permuted hread
  refine (Import.success_iff_fits clean' numbered comprises' arranged').2 ⟨records', hread', ?_⟩
  rw [target, ← fits_unplaced]
  exact (fits_unplaced.2 fits).perm hpermuted

end Importing

section Rows

/-- At a place there is a row of a type, whose text reads as an object. -/
structure Reads (repository : Int) (db : Database) (t : Registry.RecordType) (place : Persisted)
    (shown : Members) : Prop where
  uri : place.uri = Registry.uriFor t repository place.id
  text : ∃ row, db.row? t.table place.id (Registry.shownRepository t repository) = .ok (some row) ∧
    Json.parseObject (Text.Utf8.encode row.json) = .ok shown

/-- At two places, each of its database, there are rows of one type. Their texts read as the same
members, whatever their order, once the uris in the references of the first are renamed. -/
def Alike (repository : Int) (db db' : Database) (rename : String → String)
    (place place' : Persisted) : Prop :=
  ∃ t ∈ standard.types, ∃ shown shown', Reads repository db t place shown ∧
    Reads repository db' t place' shown' ∧
    ∀ name, (relinkAll rename t.schema.referenceFields shown).get? name = shown'.get? name

variable {repository : Int} {db current current' : Database} {records records' : List Record}
  {created created' : Created}

theorem Progress.shelved (progress : Progress repository db records created current)
    (numbered : db.Numbered) {turn : List Record × Record} (hturn : turn ∈ inTurn records)
    (registered : turn.2.type ∈ standard.types) :
    Shelved current turn.2.type.table (turn.2.row ⟨standard, repository⟩
      (urisAmong (entriesOf repository db turn.1)) (nextId db turn.1 turn.2.type)) := by
  have hrows := progress.rows turn.2.type registered
  refine ⟨?_, ?_, ?_⟩
  · rw [hrows]
    exact List.mem_append_right _ (mem_addedRows.2 ⟨turn, hturn, rfl, rfl⟩)
  · intro other hother hsame
    change other.id = nextId db turn.1 turn.2.type at hsame
    rw [hrows, List.mem_append] at hother
    obtain hold | hnew := hother
    · have hle := numbered.rows _ other hold
      have hlt := counter_lt_nextId db turn.1 turn.2.type
      omega
    · obtain ⟨found, hfound, htype, rfl⟩ := mem_addedRows.1 hnew
      have hid : nextId db found.1 found.2.type = nextId db turn.1 turn.2.type := by
        rw [htype]
        exact hsame
      obtain rfl := eq_of_nextId_eq hfound hturn htype hid
      rfl
  · obtain ⟨rest, hrecords⟩ := mem_inTurn hturn
    have hcount : records.countP (fun other => other.type = turn.2.type)
        = turn.1.countP (fun other => other.type = turn.2.type)
          + (rest.countP (fun other => other.type = turn.2.type) + 1) := by
      rw [hrecords, List.countP_append, List.countP_cons_of_pos (by simp)]
    rw [progress.counters turn.2.type registered, hcount]
    change nextId db turn.1 turn.2.type ≤ _
    rw [nextId]
    omega

theorem Progress.reads (progress : Progress repository db records created current)
    (numbered : db.Numbered) {turn : List Record × Record} (hturn : turn ∈ inTurn records)
    (admitted : Admitted standard turn.2) :
    Reads repository current turn.2.type (placeOf repository db turn.1 turn.2)
      (Json.rereadMembers (storedBody turn.2.type
        (turn.2.relinked (urisAmong (entriesOf repository db turn.1))))) where
  uri := rfl
  text := ⟨_, (progress.shelved numbered hturn admitted.registered).row? (.inr rfl),
    (bounded_stored _ Json.hereditary_legible admitted.bounded).parseObject_render⟩

theorem Progress.alike (progress : Progress repository db records created current)
    (progress' : Progress repository db records' created' current') (numbered : db.Numbered)
    (admitted : ∀ record ∈ records, Admitted standard record)
    (admitted' : ∀ record ∈ records', Admitted standard record)
    (distinct : (records.map Record.logicalId).Nodup)
    (distinct' : (records'.map Record.logicalId).Nodup)
    (permuted : (records.map Record.logicalId).Perm (records'.map Record.logicalId))
    (settled : Settled db records) (settled' : Settled db records')
    (fits : Fits repository db records) {turn turn' : List Record × Record}
    (hturn : turn ∈ inTurn records) (hturn' : turn' ∈ inTurn records')
    (same : turn.2.unplaced = turn'.2.unplaced) :
    Alike repository current current' (renamedTo created.toList created'.toList)
      (placeOf repository db turn.1 turn.2) (placeOf repository db turn'.1 turn'.2) := by
  have hadmitted := admitted _ (mem_of_inTurn hturn)
  have registered : ∀ record ∈ records, record.type ∈ standard.types :=
    fun record hrecord => (admitted record hrecord).registered
  have htype : turn.2.unplaced.type = turn'.2.unplaced.type := by rw [same]
  have hrelinked : turn'.2.unplaced.relinked = turn.2.unplaced.relinked := by rw [same]
  have hrefers : ∀ reference, turn.2.Refers reference → turn'.2.Refers reference := by
    intro reference refers
    have h : turn.2.unplaced.Refers reference := refers
    rw [same] at h
    exact h
  have hreads' := progress'.reads numbered hturn' (admitted' _ (mem_of_inTurn hturn'))
  change turn'.2.relinked = turn.2.relinked at hrelinked
  rw [Record.unplaced_type, Record.unplaced_type] at htype
  rw [← htype, hrelinked] at hreads'
  refine ⟨turn.2.type, hadmitted.registered, _, _, progress.reads numbered hturn hadmitted,
    hreads', hadmitted.get?_renamed ?_⟩
  intro field hfield w hw
  obtain ⟨reference, hreference, -⟩ :=
    fits.answered _ (mem_of_inTurn hturn) field hfield w hw
  have refers : turn.2.Refers reference := ⟨field, hfield, w, hw, hreference⟩
  refine ⟨reference, hreference,
    urisAmong_filled registered progress.ids hturn (Registry.refValue?_filled hreference), ?_⟩
  rw [progress.entries, progress'.entries]
  exact renamedTo_urisAmong registered progress.ids distinct' distinct settled settled'
    (fun _ => permuted.mem_iff) hturn hturn' refers (hrefers reference refers)

end Rows

/-- The order of a batch is immaterial. Two bodies hold the same objects in any two orders, and in
each of them every reference in a declared field is the identifier of an object that comes before,
or of none of the batch and not a uri of an id that the table of its type has yet to give. Imported
without faults from the same database, one succeeds exactly if the other does. If they succeed, they
save the same identifiers, and under each of them a record of the same type, with the same members
once the uris that the one import gave are renamed to those that the other gave to the same
identifiers. -/
theorem order_immaterial (db : Database) (numbered : db.Numbered) (repository : Int)
    (policy policy' : RetryPolicy) {body body' : List UInt8}
    {objects objects' : List (Except Json.ReadError Members)} (comprises : Comprises body objects)
    (comprises' : Comprises body' objects') (permuted : objects.Perm objects')
    (arranged : Arranged db objects) (arranged' : Arranged db objects') :
    let one : Import := { repository, policy, body }
    let other : Import := { repository, policy := policy', body := body' }
    let saved := (one.outcome standard db).saved.toList
    let saved' := (other.outcome standard db).saved.toList
    ((one.outcome standard db).isSuccess = true ↔ (other.outcome standard db).isSuccess = true) ∧
    ((one.outcome standard db).isSuccess = true →
      (saved.map Prod.fst).Perm (saved'.map Prod.fst) ∧
      ∀ logicalId place place', (logicalId, place) ∈ saved → (logicalId, place') ∈ saved' →
        Alike repository (one.database standard db) (other.database standard db)
          (renamedTo saved saved') place place') := by
  intro one other saved saved'
  have forth := Import.success_perm (i := one) rfl numbered other rfl rfl comprises comprises'
    permuted arranged arranged'
  have back := Import.success_perm (i := other) rfl numbered one rfl rfl comprises' comprises
    permuted.symm arranged' arranged
  refine ⟨⟨forth, back⟩, fun success => ?_⟩
  have success' := forth success
  obtain ⟨records, hread, fits⟩ :=
    (Import.success_iff_fits (i := one) rfl numbered comprises arranged).1 success
  obtain ⟨records', hread', hpermuted⟩ := comprises.records_perm comprises' permuted hread
  have progress := (Import.storable (i := one) rfl numbered hread).2 success
  have progress' := (Import.storable (i := other) rfl numbered hread').2 success'
  obtain ⟨-, -, distinct⟩ := (recordsOf_eq_iff standard body records).1 hread
  obtain ⟨-, -, distinct'⟩ := (recordsOf_eq_iff standard body' records').1 hread'
  have hids : (records.map Record.logicalId).Perm (records'.map Record.logicalId) := by
    have h := hpermuted.map Record.logicalId
    rw [List.map_map, List.map_map] at h
    exact h
  have hsaved : saved = entriesOf repository db records := progress.entries
  have hsaved' : saved' = entriesOf repository db records' := progress'.entries
  refine ⟨?_, ?_⟩
  · rw [hsaved, hsaved', map_fst_entriesOf, map_fst_entriesOf]
    exact hids
  · intro logicalId place place' hentry hentry'
    rw [hsaved] at hentry
    rw [hsaved'] at hentry'
    obtain ⟨turn, hturn, heq⟩ := List.mem_map.1 hentry
    obtain ⟨turn', hturn', heq'⟩ := List.mem_map.1 hentry'
    cases heq
    -- two entries of one identifier are one record, in its turn in either order
    obtain ⟨hid, rfl⟩ := Prod.mk.inj heq'
    have hsame := unplaced_eq_of_perm hpermuted distinct (mem_of_inTurn hturn)
      (mem_of_inTurn hturn') hid.symm
    exact progress.alike progress' numbered (admitted_of_read hread) (admitted_of_read hread')
      distinct distinct' hids (comprises.settled arranged hread)
      (comprises'.settled arranged' hread') fits hturn hturn' hsame

def parts : List (List UInt8) :=
  ["\x7b\"id\":\"s\",\"title\":\"S\"\x7d",
    "\x7b\"id\":\"d\",\"title\":\"D\",\"parent\":\x7b\"ref\":\"s\"\x7d\x7d",
    "\x7b\"id\":\"e\",\"title\":\"E\",\"parent\":\"/repositories/1/archival_objects/1\"\x7d"].map
    Text.Utf8.encode

theorem order_immaterial_parts :
    let db := after standard shelves [.repository "main" "Main", .batch family]
    let one : Import := { repository := 1, body := parts.flatten }
    let other : Import := { repository := 1, body := (parts.rotate 2).flatten }
    (one.outcome standard db).saved.toList
        = [("s", ⟨"/repositories/1/archival_objects/3", 3⟩),
          ("d", ⟨"/repositories/1/archival_objects/4", 4⟩),
          ("e", ⟨"/repositories/1/archival_objects/5", 5⟩)] ∧
      (other.outcome standard db).saved.toList
        = [("e", ⟨"/repositories/1/archival_objects/3", 3⟩),
          ("s", ⟨"/repositories/1/archival_objects/4", 4⟩),
          ("d", ⟨"/repositories/1/archival_objects/5", 5⟩)] ∧
      Alike 1 (one.database standard db) (other.database standard db)
        (renamedTo (one.outcome standard db).saved.toList (other.outcome standard db).saved.toList)
        ⟨"/repositories/1/archival_objects/4", 4⟩ ⟨"/repositories/1/archival_objects/5", 5⟩ := by
  intro db one other
  have numbered : db.Numbered := by
    have sequenced : shelves.Sequenced := .of_empty (by decide +kernel) (by decide +kernel)
    exact (sequenced_after sequenced _).toNumbered
  have comprises : Comprises parts.flatten (parts.map Json.parseObject) :=
    ⟨parts, by decide +kernel, rfl⟩
  have comprises' : Comprises (parts.rotate 2).flatten ((parts.rotate 2).map Json.parseObject) :=
    ⟨parts.rotate 2, by decide +kernel, rfl⟩
  have permuted : (parts.map Json.parseObject).Perm ((parts.rotate 2).map Json.parseObject) :=
    (parts.rotate_perm 2).symm.map _
  obtain ⟨-, hstored⟩ := order_immaterial db numbered 1 {} {} comprises comprises' permuted
    (by decide +kernel) (by decide +kernel)
  have hone : (one.outcome standard db).isSuccess = true ∧
      (one.outcome standard db).saved.toList
        = [("s", ⟨"/repositories/1/archival_objects/3", 3⟩),
          ("d", ⟨"/repositories/1/archival_objects/4", 4⟩),
          ("e", ⟨"/repositories/1/archival_objects/5", 5⟩)] := by decide +kernel
  have hother : (other.outcome standard db).saved.toList
      = [("e", ⟨"/repositories/1/archival_objects/3", 3⟩),
        ("s", ⟨"/repositories/1/archival_objects/4", 4⟩),
        ("d", ⟨"/repositories/1/archival_objects/5", 5⟩)] := by decide +kernel
  obtain ⟨-, halike⟩ := hstored hone.1
  refine ⟨hone.2, hother, halike "d" _ _ ?_ ?_⟩
  · rw [hone.2]
    exact .tail _ (.head _)
  · rw [hother]
    exact .tail _ (.tail _ (.head _))

end Accession.Batch
