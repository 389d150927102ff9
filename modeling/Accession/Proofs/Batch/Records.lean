import Accession.Batch.Reader
set_option autoImplicit false

namespace Accession.Batch

structure Admitted (registry : Registry) (record : Record) : Prop where
  parsed : ∃ piece, Json.parseObject piece = .ok record.body
  identified : logicalId? record.body = some record.logicalId
  typed : recordType? registry record.body = some record.type
  valid : record.type.schema.admits record.body = true

theorem recordType?_mem {registry : Registry} {body : Json.Members} {t : Registry.RecordType}
    (h : recordType? registry body = some t) : t ∈ registry.types := by
  have mem {name : String} (h : registry.get? name = some t) : t ∈ registry.types :=
    List.mem_of_find?_eq_some h
  unfold recordType? at h
  split at h
  · exact mem h
  · exact mem h
  · exact mem h
  · cases h

theorem Admitted.registered {registry : Registry} {record : Record}
    (h : Admitted registry record) : record.type ∈ registry.types :=
  recordType?_mem h.typed

theorem decode_eq_ok_iff {registry : Registry} {position : Nat} {seen seen' : List String}
    {piece : List UInt8} {record : Record} :
    decode registry position seen piece = (.ok record, seen') ↔
      Json.parseObject piece = .ok record.body ∧ record.position = position ∧
        logicalId? record.body = some record.logicalId ∧
        recordType? registry record.body = some record.type ∧
        record.type.schema.admits record.body = true ∧
        record.logicalId ∉ seen ∧ seen' = record.logicalId :: seen := by
  constructor
  · intro h
    unfold decode at h
    split at h
    · simp at h
    · rename_i body hbody
      split at h
      · simp at h
      · rename_i id hid
        split at h
        · simp at h
        · rename_i t ht
          split at h
          · simp at h
          · rename_i hseen
            split at h
            · rename_i hvalid
              simp only [Prod.mk.injEq, Except.ok.injEq] at h
              obtain ⟨rfl, rfl⟩ := h
              exact ⟨hbody, rfl, hid, ht, (t.schema.violations_eq_nil_iff body).1 hvalid,
                by simpa using hseen, rfl⟩
            · simp at h
  · rintro ⟨hparse, rfl, hid, ht, hvalid, hnew, rfl⟩
    have hseen : ¬seen.contains record.logicalId = true := by simpa using hnew
    rw [decode, hparse]
    dsimp only
    rw [hid]
    dsimp only
    rw [ht]
    dsimp only
    rw [if_neg hseen, (record.type.schema.violations_eq_nil_iff _).2 hvalid]

theorem decode_ok {registry : Registry} {position : Nat} {seen seen' : List String}
    {piece : List UInt8} {record : Record}
    (h : decode registry position seen piece = (.ok record, seen')) :
    Admitted registry record ∧ record.logicalId ∉ seen ∧ seen' = record.logicalId :: seen := by
  obtain ⟨hparse, -, hid, ht, hvalid, hnew, hseen⟩ := decode_eq_ok_iff.1 h
  exact ⟨⟨⟨piece, hparse⟩, hid, ht, hvalid⟩, hnew, hseen⟩

namespace Reader

variable {registry : Registry} {reader reader' : Reader} {record : Record}

theorem next_ok (h : reader.next registry = (.ok (some record), reader')) :
    Admitted registry record ∧ record.logicalId ∉ reader.seen ∧
      reader'.seen = record.logicalId :: reader.seen := by
  unfold next at h
  split at h
  · simp at h
  · split at h
    · simp at h
    · simp at h
    · rename_i piece buffers splitter _
      dsimp only at h
      rcases hd : decode registry (reader.position + 1) reader.seen piece with ⟨r, seen⟩
      rw [hd] at h
      cases r with
      | error e => simp [Except.map] at h
      | ok found =>
        simp only [Except.map, Prod.mk.injEq, Except.ok.injEq, Option.some.injEq] at h
        obtain ⟨rfl, rfl⟩ := h
        exact decode_ok hd

theorem records_admitted (registry : Registry) (limit : Nat) (reader : Reader) :
    (∀ record ∈ (reader.records registry limit).1,
        Admitted registry record ∧ record.logicalId ∉ reader.seen) ∧
      ((reader.records registry limit).1.map Record.logicalId).Nodup := by
  induction limit generalizing reader with
  | zero => simp [records]
  | succ limit ih =>
    rw [records]
    split
    · simp
    · simp
    · rename_i record reader' hnext
      obtain ⟨hadmitted, hnew, hseen⟩ := next_ok hnext
      obtain ⟨hrest, hnodup⟩ := ih reader'
      rw [hseen] at hrest
      refine ⟨?_, ?_⟩
      · intro other hmem
        rcases List.mem_cons.1 hmem with rfl | hmem
        · exact ⟨hadmitted, hnew⟩
        · have h := hrest other hmem
          exact ⟨h.1, fun hc => h.2 (List.mem_cons_of_mem _ hc)⟩
      · refine List.nodup_cons.2 ⟨fun hc => ?_, hnodup⟩
        obtain ⟨other, hmem, heq⟩ := List.mem_map.1 hc
        exact (hrest other hmem).2 (heq ▸ List.mem_cons_self)

end Reader

theorem recordsOf_admitted {registry : Registry} {body : List UInt8} {record : Record}
    (h : record ∈ (recordsOf registry body).1) : Admitted registry record :=
  ((Reader.records_admitted registry _ _).1 record h).1

theorem admitted_of_read {registry : Registry} {body : List UInt8} {records : List Record}
    {ending : Option ImportError} (read : recordsOf registry body = (records, ending)) :
    ∀ record ∈ records, Admitted registry record := by
  intro record hrecord
  have hfound : record ∈ (recordsOf registry body).1 := read ▸ hrecord
  exact recordsOf_admitted hfound

theorem recordsOf_nodup (registry : Registry) (body : List UInt8) :
    ((recordsOf registry body).1.map Record.logicalId).Nodup :=
  (Reader.records_admitted registry _ _).2

end Accession.Batch
