import Accession.Proofs.Batch.Framing
import Accession.Proofs.Batch.Records
set_option autoImplicit false

namespace Accession.Batch

open Json (Members)
open Registry (RecordType present?)

/-- The text that an object is known by in its batch: its uri, or its id where the uri is absent or
null, which is a text that is not blank or a number in writing. -/
def Identified (body : Members) (text : String) : Prop :=
  ∃ v, (present? body "uri" = some v ∨ present? body "uri" = none ∧ body.get? "id" = some v) ∧
    (v = .str text ∧ Text.blank text = false ∨ ∃ n, v = .num n ∧ text = String.ofList n.render)

def Typed (registry : Registry) (body : Members) (t : RecordType) : Prop :=
  (body.get? "jsonmodel_type" = none ∨ body.get? "jsonmodel_type" = some .null) ∧
      registry.defaultType? = some t ∨
    ∃ name, body.get? "jsonmodel_type" = some (.str name) ∧ registry.get? name = some t

theorem logicalId?_eq_some_iff {body : Members} {text : String} :
    logicalId? body = some text ↔ Identified body text := by
  have hchosen : ∀ v, (present? body "uri").or (body.get? "id") = some v ↔
      present? body "uri" = some v ∨ present? body "uri" = none ∧ body.get? "id" = some v :=
    fun v => Option.or_eq_some_iff
  rw [logicalId?, Identified]
  simp only [← hchosen]
  cases (present? body "uri").or (body.get? "id") with
  | none => exact ⟨nofun, fun ⟨_, h, _⟩ => nomatch h⟩
  | some v =>
    cases v with
    | str s =>
      cases hblank : Text.blank s <;> simp [hblank]
      · rintro rfl
        exact hblank
      · rintro rfl
        simp [hblank]
    | num n => simp [@eq_comm _ text]
    | null | bool | arr | obj => simp

theorem recordType?_eq_some_iff {registry : Registry} {body : Members} {t : RecordType} :
    recordType? registry body = some t ↔ Typed registry body t := by
  rw [recordType?, Typed]
  cases body.get? "jsonmodel_type" with
  | none => simp
  | some v => cases v <;> simp

/-- What a record tells of its object is right, and its type admits the object. -/
structure Sorted (registry : Registry) (record : Record) : Prop where
  identified : Identified record.body record.logicalId
  typed : Typed registry record.body record.type
  valid : record.type.schema.admits record.body = true

/-- Records of the objects that stand in pieces, one after another and counted. -/
inductive Parsed : Nat → List (List UInt8) → List Record → Prop where
  | nil {position : Nat} : Parsed position [] []
  | cons {position : Nat} {piece : List UInt8} {pieces : List (List UInt8)} {record : Record}
      {records : List Record} (parsed : Json.parseObject piece = .ok record.body)
      (counted : record.position = position + 1) (rest : Parsed (position + 1) pieces records) :
      Parsed position (piece :: pieces) (record :: records)

theorem Parsed.accepted {position : Nat} {pieces : List (List UInt8)} {records : List Record}
    (h : Parsed position pieces records) :
    ∀ piece ∈ pieces, ∃ ms, Json.parseObject piece = .ok ms := by
  induction h with
  | nil => exact nofun
  | cons parsed _ _ ih => exact List.forall_mem_cons.2 ⟨⟨_, parsed⟩, ih⟩

/-- A body is one of the framings of objects, which are those of the records. -/
def Carries (body : List UInt8) (records : List Record) : Prop :=
  ∃ pieces, (∀ piece ∈ pieces, IsRecord piece) ∧
    (ArrayFraming pieces body ∨ SequenceFraming pieces body) ∧ Parsed 0 pieces records

section

variable {registry : Registry}

theorem decode_iff_sorted {position : Nat} {seen seen' : List String} {piece : List UInt8}
    {record : Record} :
    decode registry position seen piece = (.ok record, seen') ↔
      Json.parseObject piece = .ok record.body ∧ record.position = position ∧
        (Sorted registry record ∧ record.logicalId ∉ seen) ∧
        seen' = record.logicalId :: seen := by
  rw [decode_eq_ok_iff, logicalId?_eq_some_iff, recordType?_eq_some_iff]
  constructor
  · rintro ⟨hparse, hcount, hid, ht, hvalid, hnew, hseen⟩
    exact ⟨hparse, hcount, ⟨⟨hid, ht, hvalid⟩, hnew⟩, hseen⟩
  · rintro ⟨hparse, hcount, ⟨⟨hid, ht, hvalid⟩, hnew⟩, hseen⟩
    exact ⟨hparse, hcount, hid, ht, hvalid, hnew, hseen⟩

theorem feed_length {splitter splitter' : Splitter} {octets rest piece : List UInt8}
    (h : splitter.feed octets = .piece splitter' piece rest) : rest.length < octets.length := by
  induction octets generalizing splitter with
  | nil => cases h
  | cons b octets ih =>
    rw [Splitter.feed] at h
    rw [List.length_cons]
    split at h
    · cases h
    · cases h
      exact Nat.lt_succ_self _
    · exact Nat.lt_succ_of_lt (ih h)

theorem nextPiece_length {splitter splitter' : Splitter} {buffers rest : List (List UInt8)}
    {piece : List UInt8} (h : nextPiece splitter buffers = (.ok (some piece), rest, splitter')) :
    rest.flatten.length < buffers.flatten.length := by
  induction buffers generalizing splitter with
  | nil =>
    rw [nextPiece] at h
    split at h <;> cases h
  | cons buffer buffers ih =>
    rw [nextPiece] at h
    rw [List.flatten_cons, List.length_append]
    split at h
    · exact Nat.lt_of_lt_of_le (ih h) (Nat.le_add_left _ _)
    · rename_i hfeed
      cases h
      have hshorter := feed_length hfeed
      rw [List.flatten_cons, List.length_append]
      omega
    · cases h

theorem cuts_iff_of_piece {splitter splitter' : Splitter} {buffers rest : List (List UInt8)}
    {piece : List UInt8} (h : nextPiece splitter buffers = (.ok (some piece), rest, splitter'))
    (pieces : List (List UInt8)) :
    Cuts splitter buffers pieces ↔ ∃ more, pieces = piece :: more ∧ Cuts splitter' rest more := by
  constructor
  · intro cuts
    cases cuts with
    | ended hend =>
      rw [h] at hend
      cases hend
    | piece hpiece more =>
      rw [h] at hpiece
      cases hpiece
      exact ⟨_, rfl, more⟩
  · rintro ⟨more, rfl, cuts⟩
    exact .piece h cuts

theorem cuts_iff_of_end {splitter splitter' : Splitter} {buffers rest : List (List UInt8)}
    (h : nextPiece splitter buffers = (.ok none, rest, splitter')) (pieces : List (List UInt8)) :
    Cuts splitter buffers pieces ↔ pieces = [] := by
  constructor
  · intro cuts
    cases cuts with
    | ended => rfl
    | piece hpiece =>
      rw [h] at hpiece
      cases hpiece
  · rintro rfl
    exact .ended h

theorem not_cuts_of_error {splitter splitter' : Splitter} {buffers rest : List (List UInt8)}
    {e : FramingError} (h : nextPiece splitter buffers = (.error e, rest, splitter'))
    (pieces : List (List UInt8)) : ¬Cuts splitter buffers pieces := by
  intro cuts
  cases cuts with
  | ended hend =>
    rw [h] at hend
    cases hend
  | piece hpiece =>
    rw [h] at hpiece
    cases hpiece

def Fresh (registry : Registry) (seen : List String) (records : List Record) : Prop :=
  (∀ record ∈ records, Sorted registry record ∧ record.logicalId ∉ seen) ∧
    (records.map Record.logicalId).Nodup

theorem fresh_nil {seen : List String} : Fresh registry seen [] :=
  ⟨nofun, .nil⟩

theorem fresh_cons {seen : List String} {record : Record} {records : List Record} :
    Fresh registry seen (record :: records) ↔
      (Sorted registry record ∧ record.logicalId ∉ seen) ∧
        Fresh registry (record.logicalId :: seen) records := by
  rw [Fresh, Fresh, List.forall_mem_cons, List.map_cons, List.nodup_cons]
  constructor
  · rintro ⟨⟨hrecord, hrest⟩, hnew, hnodup⟩
    refine ⟨hrecord, ?_, hnodup⟩
    intro other hother
    have hne : other.logicalId ≠ record.logicalId := by
      intro heq
      exact hnew (heq ▸ List.mem_map_of_mem hother)
    exact ⟨(hrest other hother).1, List.not_mem_cons_of_ne_of_not_mem hne (hrest other hother).2⟩
  · rintro ⟨hrecord, hrest, hnodup⟩
    refine ⟨⟨hrecord, ?_⟩, ?_, hnodup⟩
    · intro other hother
      exact ⟨(hrest other hother).1, fun hc => (hrest other hother).2 (List.mem_cons_of_mem _ hc)⟩
    · intro hc
      obtain ⟨other, hother, heq⟩ := List.mem_map.1 hc
      exact (hrest other hother).2 (heq ▸ List.mem_cons_self)

theorem records_eq_iff (limit position : Nat) (seen : List String) (splitter : Splitter)
    (buffers : List (List UInt8)) (enough : buffers.flatten.length < limit)
    (records : List Record) :
    Reader.records registry limit { buffers, splitter, position, seen } = (records, none) ↔
      ∃ pieces, Cuts splitter buffers pieces ∧ Parsed position pieces records ∧
        Fresh registry seen records := by
  induction limit generalizing position seen splitter buffers records with
  | zero => omega
  | succ limit ih =>
    rw [Reader.records, Reader.next, if_neg Bool.false_ne_true]
    rcases hpiece : nextPiece splitter buffers with
      ⟨e | _ | piece, rest, splitter'⟩ <;> dsimp only
    · simp [not_cuts_of_error hpiece]
    · simp only [cuts_iff_of_end hpiece, exists_eq_left]
      constructor
      · intro h
        cases h
        exact ⟨.nil, fresh_nil⟩
      · rintro ⟨parsed, -⟩
        cases parsed
        rfl
    · have hshorter := nextPiece_length hpiece
      simp only [cuts_iff_of_piece hpiece]
      rcases hdecode : decode registry (position + 1) seen piece with ⟨e | record, seen'⟩ <;>
        simp only [Except.map]
      · constructor
        · intro h
          cases h
        · rintro ⟨pieces, ⟨more, rfl, -⟩, parsed, fresh⟩
          cases parsed with
          | @cons _ _ _ record _ hparse hcount _ =>
            have hok := decode_iff_sorted.2 ⟨hparse, hcount, (fresh_cons.1 fresh).1, rfl⟩
            rw [hdecode] at hok
            cases hok
      · obtain ⟨hparse, hcount, hsorted, rfl⟩ := decode_iff_sorted.1 hdecode
        have hrest := ih (position + 1) (record.logicalId :: seen) splitter' rest (by omega)
        constructor
        · intro h
          obtain ⟨rfl, hnone⟩ := Prod.mk.inj h
          obtain ⟨pieces, cuts, parsed, fresh⟩ := (hrest _).1 (Prod.ext rfl hnone)
          exact ⟨piece :: pieces, ⟨pieces, rfl, cuts⟩, .cons hparse hcount parsed,
            fresh_cons.2 ⟨hsorted, fresh⟩⟩
        · rintro ⟨pieces, ⟨more, rfl, cuts⟩, parsed, fresh⟩
          cases parsed with
          | @cons _ _ _ other records hparse' hcount' parsed =>
            obtain ⟨hother, hfresh⟩ := fresh_cons.1 fresh
            -- the piece decodes in one way only
            have hok := decode_iff_sorted.2 ⟨hparse', hcount', hother, rfl⟩
            rw [hdecode] at hok
            obtain rfl : record = other := by
              simpa using congrArg Prod.fst hok
            have hmore := (hrest records).2 ⟨more, cuts, parsed, hfresh⟩
            rw [hmore]

end

/-- A body is read to its end as records exactly if it carries them, each of them is sorted, and no
two have one identifier. -/
theorem recordsOf_eq_iff (registry : Registry) (body : List UInt8) (records : List Record) :
    recordsOf registry body = (records, none) ↔
      Carries body records ∧ (∀ record ∈ records, Sorted registry record) ∧
        (records.map Record.logicalId).Nodup := by
  have hbuffers : (buffers bufferCapacity body).flatten = body := flatten_buffers (by decide) body
  rw [recordsOf, Reader.ofStream, Reader.ofBuffers,
    records_eq_iff _ _ _ _ _ (by rw [hbuffers]; exact Nat.lt_succ_self _)]
  simp only [cuts_iff_pieces, hbuffers]
  constructor
  · rintro ⟨ps, hpieces, parsed, sorted, distinct⟩
    refine ⟨⟨ps, ?_, expects_pieces hpieces, parsed⟩, fun r hr => (sorted r hr).1, distinct⟩
    intro piece hpiece
    obtain ⟨ms, hms⟩ := parsed.accepted piece hpiece
    exact isRecord_of_bracketed
      (pieces_bracketed (show Begun .start from trivial) hpieces piece hpiece) hms
  · rintro ⟨⟨ps, accepted, framing, parsed⟩, sorted, distinct⟩
    have hfresh : Fresh registry [] records :=
      ⟨fun r hr => ⟨sorted r hr, List.not_mem_nil⟩, distinct⟩
    obtain framing | framing := framing
    · exact ⟨ps, pieces_arrayFraming framing accepted, parsed, hfresh⟩
    · exact ⟨ps, (pieces_sequenceFraming framing accepted).1, parsed, hfresh⟩

end Accession.Batch
