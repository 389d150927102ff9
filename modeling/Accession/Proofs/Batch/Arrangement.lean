import Accession.Proofs.Batch.Success
import Mathlib.Data.List.Perm.Basic
set_option autoImplicit false

/-!
# Batches whatever their order

Whether the records of a batch can be stored, each after those before it, looks like a matter of
their order. It is a matter of all of them together (`Fits`), as long as their references are
`Settled`: a reference names a record that comes before, or none of the batch and no id that a
record of the batch could get (`forall_storable_iff`). Nothing in `Fits` depends on the order
(`Fits.perm`).
-/
namespace Accession.Batch

open Registry (RecordType isId refValue? references shownRepository standard)
open Store (Database)

section Turns

theorem forall_inTurn_iff_pairwise {R : Record → Record → Prop} (records : List Record) :
    (∀ turn ∈ inTurn records, ∀ other ∈ turn.1, R other turn.2) ↔ records.Pairwise R := by
  induction records using List.reverseRecOn with
  | nil => exact iff_of_true nofun .nil
  | append_singleton records record ih =>
    rw [inTurn_concat, List.forall_mem_append, List.forall_mem_singleton, ih, List.pairwise_append]
    simp

theorem counter_lt_nextId (db : Database) (earlier : List Record) (t : RecordType) :
    db.counter t.table < nextId db earlier t := by
  rw [nextId]
  omega

end Turns

def Record.unplaced (record : Record) : Record :=
  { record with position := 0 }

@[simp] theorem Record.unplaced_type (record : Record) : record.unplaced.type = record.type := rfl

@[simp] theorem Record.unplaced_body (record : Record) : record.unplaced.body = record.body := rfl

@[simp] theorem Record.unplaced_logicalId (record : Record) :
    record.unplaced.logicalId = record.logicalId := rfl

def Record.Refers (record : Record) (reference : String) : Prop :=
  ∃ field ∈ record.type.schema.referenceFields, ∃ v ∈ references record.body field,
    refValue? v = some reference

section

variable (repository : Int) (db : Database)

/-- No record that is still to come is named: if the text is a uri at all, its id is one that the
table of its type has passed. -/
def Bygone (reference : String) : Prop :=
  ∀ r t, standard.parseReference? reference = some r → standard.get? r.typeName = some t →
    r.id ≤ db.counter t.table

instance (reference : String) : Decidable (Bygone db reference) :=
  decidable_of_iff
    ((standard.parseReference? reference).all (fun r =>
      (standard.get? r.typeName).all (fun t => r.id ≤ db.counter t.table)) = true)
    (by simp only [Option.all_eq_true, decide_eq_true_eq, Bygone]
        exact ⟨fun h r t hr ht => h r hr t ht, fun h r hr t ht => h r t hr ht⟩)

/-- Every reference is the identifier of an earlier record, or of none and bygone. -/
def Settled (records : List Record) : Prop :=
  ∀ turn ∈ inTurn records, ∀ reference, turn.2.Refers reference →
    (∃ other ∈ turn.1, other.logicalId = reference) ∨
      (∀ other ∈ records, other.logicalId ≠ reference) ∧ Bygone db reference

/-- A reference is the identifier of a record of the batch, of an allowed type; or of none, and the
database answers it. -/
def AnsweredAmong (records : List Record) (allowed : List String) (reference : String) : Prop :=
  (∃ other ∈ records, other.logicalId = reference ∧ other.type.name ∈ allowed) ∨
    (∀ other ∈ records, other.logicalId ≠ reference) ∧
      Answered repository db [] allowed reference

/-- Two records that no index lets stand beside each other. -/
def Rivals (a b : Record) : Prop :=
  Guarded db a.type ∧ a.type = b.type ∧
    ∃ identifier, identifierOf a.type a.body = some identifier ∧
      identifierOf b.type b.body = some identifier

structure Fits (records : List Record) : Prop where
  answered : ∀ record ∈ records, ∀ field ∈ record.type.schema.referenceFields,
    ∀ v ∈ references record.body field, ∃ reference, refValue? v = some reference ∧
      AnsweredAmong repository db records (field.kind.allowed?.getD []) reference
  table : ∀ record ∈ records, (db.table? record.type.table).isSome = true
  repositories : ∀ record ∈ records, db.repositories.isSome = true
  founded : ∀ record ∈ records, record.type.scope = .repository →
    db.hasRepository repository = true
  room : ∀ record ∈ records, db.counter record.type.table
    + records.countP (fun other => other.type = record.type) ≤ Store.maxId
  unclaimed : ∀ record ∈ records, Guarded db record.type → Unclaimed repository db [] record
  apart : records.Pairwise (fun a b => ¬Rivals db a b)

end

section

variable {repository : Int} {db : Database} {records : List Record}

theorem Rivals.symm {a b : Record} (h : Rivals db a b) : Rivals db b a := by
  obtain ⟨hguarded, htype, identifier, ha, hb⟩ := h
  exact ⟨htype ▸ hguarded, htype.symm, identifier, hb, ha⟩

theorem unclaimed_split {earlier : List Record} {record : Record} :
    (Guarded db record.type → Unclaimed repository db earlier record) ↔
      (Guarded db record.type → Unclaimed repository db [] record) ∧
        ∀ other ∈ earlier, ¬Rivals db other record := by
  constructor
  · intro h
    refine ⟨fun guarded identifier hid => ⟨(h guarded identifier hid).1, nofun⟩, ?_⟩
    rintro other hother ⟨guarded, htype, identifier, hid, hid'⟩
    exact (h (htype ▸ guarded) identifier hid').2 other hother htype hid
  · rintro ⟨hrows, hothers⟩ guarded identifier hid
    refine ⟨(hrows guarded identifier hid).1, ?_⟩
    intro other hother htype hsame
    exact hothers other hother ⟨htype ▸ guarded, htype, identifier, hsame, hid⟩

variable (settled : Settled db records) (distinct : (records.map Record.logicalId).Nodup)

include settled distinct

theorem answered_iff_among {turn : List Record × Record} (hturn : turn ∈ inTurn records)
    {reference : String} (refers : turn.2.Refers reference) (allowed : List String) :
    Answered repository db turn.1 allowed reference ↔
      AnsweredAmong repository db records allowed reference := by
  obtain ⟨rest, hrecords⟩ := mem_inTurn hturn
  have hbefore : ∀ other ∈ turn.1, other ∈ records := by
    intro other hother
    rw [hrecords]
    exact List.mem_append_left _ hother
  obtain ⟨named, hnamed, hname⟩ | ⟨hnone, bygone⟩ := settled turn hturn reference refers
  · -- it is the one record of that identifier, here and among all
    constructor
    · rintro (⟨other, hother, hsame, hallowed⟩ | ⟨hnone, -⟩)
      · exact .inl ⟨other, hbefore other hother, hsame, hallowed⟩
      · exact absurd hname (hnone named hnamed)
    · rintro (⟨other, hother, hsame, hallowed⟩ | ⟨hnone, -⟩)
      · obtain rfl := List.inj_on_of_nodup_map distinct (hbefore named hnamed) hother
          (hname.trans hsame.symm)
        exact .inl ⟨named, hnamed, hname, hallowed⟩
      · exact absurd hname (hnone named (hbefore named hnamed))
  · constructor
    · rintro (⟨other, hother, hsame, -⟩ | ⟨-, t, ht, hallowed, id, hknown, hparse⟩)
      · exact absurd hsame (hnone other (hbefore other hother))
      · refine .inr ⟨hnone, .inr ⟨nofun, t, ht, hallowed, id, ?_, hparse⟩⟩
        obtain hrow | ⟨other, -, -, hid⟩ := hknown
        · exact .inl hrow
        · -- an id that was given within the batch is not bygone
          have hle := bygone _ t hparse (Registry.get?_name t ht)
          have hlt := counter_lt_nextId db other.1 t
          dsimp only at hle
          omega
    · rintro (⟨other, hother, hsame, -⟩ | ⟨-, hthere⟩)
      · exact absurd hsame (hnone other hother)
      obtain ⟨_, hcontra, -⟩ | ⟨-, t, ht, hallowed, id, hknown, hparse⟩ := hthere
      · cases hcontra
      · refine .inr ⟨fun other hother => hnone other (hbefore other hother), t, ht, hallowed, id,
          ?_, hparse⟩
        obtain hrow | ⟨other, hother, -⟩ := hknown
        · exact .inl hrow
        · cases hother

/-- Records that are settled can be stored one after another exactly if they fit. -/
theorem forall_storable_iff :
    (∀ turn ∈ inTurn records, Storable repository db turn.1 turn.2) ↔
      Fits repository db records := by
  have hanswered : ∀ turn ∈ inTurn records, ∀ field ∈ turn.2.type.schema.referenceFields,
      ∀ v ∈ references turn.2.body field, ∀ reference, refValue? v = some reference →
        (Answered repository db turn.1 (field.kind.allowed?.getD []) reference ↔
          AnsweredAmong repository db records (field.kind.allowed?.getD []) reference) :=
    fun turn hturn field hfield v hv reference hreference =>
      answered_iff_among settled distinct hturn ⟨field, hfield, v, hv, hreference⟩ _
  constructor
  · intro storable
    have hrecord : ∀ record ∈ records, ∃ earlier, (earlier, record) ∈ inTurn records ∧
        Storable repository db earlier record := by
      intro record hrecord
      obtain ⟨earlier, hturn⟩ := exists_inTurn hrecord
      exact ⟨earlier, hturn, storable _ hturn⟩
    refine ⟨?_, ?_, ?_, ?_, ?_, ?_, ?_⟩
    · intro record hmem field hfield v hv
      obtain ⟨earlier, hturn, hstorable⟩ := hrecord record hmem
      obtain ⟨reference, hreference, hthere⟩ := hstorable.answered field hfield v hv
      exact ⟨reference, hreference,
        (hanswered _ hturn field hfield v hv reference hreference).1 hthere⟩
    · intro record hmem
      obtain ⟨earlier, -, hstorable⟩ := hrecord record hmem
      exact hstorable.table
    · intro record hmem
      obtain ⟨earlier, -, hstorable⟩ := hrecord record hmem
      exact hstorable.repositories
    · intro record hmem
      obtain ⟨earlier, -, hstorable⟩ := hrecord record hmem
      exact hstorable.founded
    · exact (roomy_iff records).1 (fun turn hturn => (storable turn hturn).room)
    · intro record hmem
      obtain ⟨earlier, -, hstorable⟩ := hrecord record hmem
      exact (unclaimed_split.1 hstorable.unclaimed).1
    · exact (forall_inTurn_iff_pairwise records).1
        (fun turn hturn => (unclaimed_split.1 (storable turn hturn).unclaimed).2)
  · intro fits turn hturn
    have hmem := mem_of_inTurn hturn
    refine ⟨?_, fits.table _ hmem, fits.repositories _ hmem, fits.founded _ hmem,
      (roomy_iff records).2 fits.room turn hturn, unclaimed_split.2
        ⟨fits.unclaimed _ hmem, (forall_inTurn_iff_pairwise records).2 fits.apart turn hturn⟩⟩
    intro field hfield v hv
    obtain ⟨reference, hreference, hthere⟩ := fits.answered _ hmem field hfield v hv
    exact ⟨reference, hreference,
      (hanswered turn hturn field hfield v hv reference hreference).2 hthere⟩

end

section Orders

variable {repository : Int} {db : Database} {records records' : List Record}

theorem Fits.perm (fits : Fits repository db records) (permuted : records.Perm records') :
    Fits repository db records' := by
  have hmem : ∀ record, record ∈ records' ↔ record ∈ records := fun _ => permuted.mem_iff.symm
  refine ⟨?_, ?_, ?_, ?_, ?_, ?_, ?_⟩
  · intro record hrecord field hfield v hv
    obtain ⟨reference, hreference, hthere⟩ :=
      fits.answered record ((hmem record).1 hrecord) field hfield v hv
    refine ⟨reference, hreference, ?_⟩
    simpa only [AnsweredAmong, hmem] using hthere
  · exact fun record hrecord => fits.table record ((hmem record).1 hrecord)
  · exact fun record hrecord => fits.repositories record ((hmem record).1 hrecord)
  · exact fun record hrecord => fits.founded record ((hmem record).1 hrecord)
  · intro record hrecord
    rw [← permuted.countP_eq]
    exact fits.room record ((hmem record).1 hrecord)
  · exact fun record hrecord => fits.unclaimed record ((hmem record).1 hrecord)
  · exact fits.apart.perm permuted (fun h hc => h hc.symm)

theorem unplaced_eq_of_perm
    (permuted : (records.map Record.unplaced).Perm (records'.map Record.unplaced))
    (distinct : (records.map Record.logicalId).Nodup) {record record' : Record}
    (h : record ∈ records) (h' : record' ∈ records')
    (same : record.logicalId = record'.logicalId) : record.unplaced = record'.unplaced := by
  obtain ⟨found, hfound, heq⟩ :=
    List.mem_map.1 (permuted.mem_iff.2 (List.mem_map_of_mem h'))
  have hlogical : found.logicalId = record.logicalId := by
    rw [← Record.unplaced_logicalId, heq]
    exact same.symm
  obtain rfl := List.inj_on_of_nodup_map distinct hfound h hlogical
  exact heq

theorem fits_unplaced :
    Fits repository db (records.map Record.unplaced) ↔ Fits repository db records := by
  have hamong : ∀ allowed reference,
      AnsweredAmong repository db (records.map Record.unplaced) allowed reference ↔
        AnsweredAmong repository db records allowed reference := by
    intro allowed reference
    simp [AnsweredAmong]
  have hcount : ∀ t : RecordType,
      (records.map Record.unplaced).countP (fun other => other.type = t)
        = records.countP (fun other => other.type = t) := by
    intro t
    rw [List.countP_map]
    rfl
  constructor
  · intro fits
    have hmem : ∀ record ∈ records, record.unplaced ∈ records.map Record.unplaced :=
      fun _ => List.mem_map_of_mem
    refine ⟨?_, fun record h => fits.table record.unplaced (hmem record h),
      fun record h => fits.repositories record.unplaced (hmem record h),
      fun record h => fits.founded record.unplaced (hmem record h), ?_,
      fun record h => fits.unclaimed record.unplaced (hmem record h),
      List.pairwise_map.1 fits.apart⟩
    · intro record h field hfield v hv
      have hthere := fits.answered _ (hmem record h) field hfield v hv
      simpa only [hamong] using hthere
    · intro record h
      rw [← hcount]
      exact fits.room record.unplaced (hmem record h)
  · intro fits
    refine ⟨?_, List.forall_mem_map.2 fits.table, List.forall_mem_map.2 fits.repositories,
      List.forall_mem_map.2 fits.founded, ?_, List.forall_mem_map.2 fits.unclaimed,
      List.pairwise_map.2 fits.apart⟩
    · rw [List.forall_mem_map]
      simpa [hamong] using fits.answered
    · rw [List.forall_mem_map]
      intro record h
      rw [hcount record.unplaced.type]
      exact fits.room record h

end Orders

end Accession.Batch
