import Accession.Proofs.Batch.Cutting
import Accession.Proofs.Batch.Refusals
import Accession.Proofs.Text.Integer
set_option autoImplicit false

namespace Accession

namespace Json

theorem layout_inked (d : List Char) (point : Int) :
    ∃ c ∈ layout d point, Text.isBlank c = false := by
  -- every layout has a point or an exponent
  have hpoint : Text.isBlank '.' = false := by decide
  have hexponent : Text.isBlank 'e' = false := by decide
  unfold layout
  split
  · dsimp only
    split
    · exact ⟨'.', by simp, hpoint⟩
    · exact ⟨'.', by simp, hpoint⟩
  · split
    · exact ⟨'.', by simp, hpoint⟩
    · exact ⟨'e', by simp, hexponent⟩

theorem Number.render_inked (n : Number) : ∃ c ∈ n.render, Text.isBlank c = false := by
  cases n with
  | int n => exact Text.Integer.write_inked n
  | float negative m =>
    have htext : ∃ c ∈ (if m.isZero then ['0', '.', '0'] else
        layout (Nat.toDigits 10 m.shortest.digits)
          (m.shortest.exponent + (Nat.toDigits 10 m.shortest.digits).length)),
        Text.isBlank c = false := by
      split
      · exact ⟨'.', by simp, by decide⟩
      · exact layout_inked _ _
    obtain ⟨c, hc, hink⟩ := htext
    cases negative with
    | true => exact ⟨c, List.mem_cons_of_mem _ hc, hink⟩
    | false => exact ⟨c, hc, hink⟩

end Json

namespace Batch

open Json (Members)

theorem Identified.inked {body : Members} {text : String} (h : Identified body text) :
    ∃ c ∈ text.toList, Text.isBlank c = false := by
  obtain ⟨v, -, ⟨rfl, hblank⟩ | ⟨n, rfl, rfl⟩⟩ := h
  · simpa [Text.blank] using hblank
  · rw [String.toList_ofList]
    exact n.render_inked

namespace Reader

variable {registry : Registry}

/-- The result of the call that a number of calls came before. -/
def result (registry : Registry) (reader : Reader) (calls : Nat) :
    Except ImportError (Option Record) :=
  ((reader.after registry calls).next registry).1

/-- The records that a number of calls yield. Errors are passed over. -/
def yielded (registry : Registry) (reader : Reader) (calls : Nat) : List Record :=
  (List.range calls).filterMap (fun call => (reader.result registry call).toOption.join)

theorem result_yields {reader : Reader} {call : Nat} {record : Record} :
    (reader.result registry call).toOption.join = some record ↔
      reader.result registry call = .ok (some record) := by
  rcases reader.result registry call with e | _ | found <;> simp [Except.toOption]

theorem mem_yielded {reader : Reader} {calls : Nat} {record : Record} :
    record ∈ reader.yielded registry calls ↔
      ∃ call < calls, reader.result registry call = .ok (some record) := by
  simp only [yielded, List.mem_filterMap, List.mem_range, result_yields]

/-- Where a reader stands after a number of calls: it has cut as many pieces off and cuts the others
next, or there is no piece any more and nothing changes. -/
inductive Stands (registry : Registry) (pieces : List (List UInt8)) (calls : Nat)
    (reader : Reader) : Prop where
  | reading (live : reader.ended = false) (count : reader.position = calls)
      (ahead : pieces.drop calls = cut reader.splitter reader.buffers.flatten)
  | stopped {result : Except ImportError (Option Record)} (spent : pieces.length ≤ calls)
      (still : reader.next registry = (result, reader))
      (silent : ∀ record, result ≠ .ok (some record))

section Calls

variable {pieces : List (List UInt8)} {calls : Nat} {reader : Reader}

theorem Stands.next (h : Stands registry pieces calls reader) :
    Stands registry pieces (calls + 1) (reader.next registry).2 := by
  cases h with
  | stopped spent still silent =>
    rw [still]
    exact .stopped (Nat.le_succ_of_le spent) still silent
  | reading live count ahead =>
    rw [cut_nextPiece] at ahead
    rcases hpiece : nextPiece reader.splitter reader.buffers with ⟨e | _ | piece, rest, splitter⟩
    all_goals rw [hpiece] at ahead
    · have spent := Nat.le_succ_of_le (List.drop_eq_nil_iff.1 ahead)
      obtain ⟨hcuts, hnext⟩ := next_of_error registry live hpiece
      obtain ⟨-, message, -, -, hstill⟩ := next_broken hcuts (congrArg Prod.fst hnext)
      exact .stopped spent hstill nofun
    · have spent := Nat.le_succ_of_le (List.drop_eq_nil_iff.1 ahead)
      obtain ⟨-, hnext⟩ := next_of_end registry live hpiece
      exact .stopped spent (next_ended (congrArg Prod.fst hnext)) nofun
    · rw [(next_of_piece registry live hpiece).2]
      have htail : pieces.drop (calls + 1) = cut splitter rest.flatten := by
        rw [← List.tail_drop, ahead, List.tail_cons]
      exact .reading live (congrArg (· + 1) count) htail

theorem Stands.after (h : Stands registry pieces 0 reader) (calls : Nat) :
    Stands registry pieces calls (reader.after registry calls) := by
  induction calls with
  | zero => exact h
  | succ calls ih => exact ih.next

theorem Stands.next_piece (h : Stands registry pieces calls reader) {piece : List UInt8}
    (hpiece : pieces[calls]? = some piece) :
    (reader.next registry).1 = (decode registry (calls + 1) reader.seen piece).1.map some ∧
      (reader.next registry).2.seen = (decode registry (calls + 1) reader.seen piece).2 := by
  cases h with
  | stopped spent still silent =>
    rw [List.getElem?_eq_none spent] at hpiece
    cases hpiece
  | reading live count ahead =>
    rw [cut_nextPiece] at ahead
    rw [← List.head?_drop, ahead] at hpiece
    rcases hnext : nextPiece reader.splitter reader.buffers with ⟨e | _ | found, rest, splitter⟩
    all_goals rw [hnext] at hpiece
    · cases hpiece
    · cases hpiece
    · cases hpiece
      rw [(next_of_piece registry live hnext).2, count]
      exact ⟨rfl, rfl⟩

theorem Stands.next_none (h : Stands registry pieces calls reader) (hnone : pieces[calls]? = none) :
    (∀ record, (reader.next registry).1 ≠ .ok (some record)) ∧
      (reader.next registry).2.seen = reader.seen := by
  cases h with
  | stopped spent still silent =>
    rw [still]
    exact ⟨silent, rfl⟩
  | reading live count ahead =>
    rw [cut_nextPiece] at ahead
    rw [← List.head?_drop, ahead] at hnone
    rcases hnext : nextPiece reader.splitter reader.buffers with ⟨e | _ | found, rest, splitter⟩
    · rw [(next_of_error registry live hnext).2]
      exact ⟨nofun, rfl⟩
    · rw [(next_of_end registry live hnext).2]
      exact ⟨nofun, rfl⟩
    · rw [hnext] at hnone
      cases hnone

theorem Stands.yields (h : Stands registry pieces calls reader) {record : Record}
    (hyield : (reader.next registry).1 = .ok (some record)) :
    Sorted registry record ∧ record.logicalId ∉ reader.seen ∧
      (reader.next registry).2.seen = record.logicalId :: reader.seen ∧
      record.position = calls + 1 ∧
      ∃ piece, pieces[calls]? = some piece ∧ Json.parseObject piece = .ok record.body := by
  cases hpiece : pieces[calls]? with
  | none => exact absurd hyield ((h.next_none hpiece).1 record)
  | some piece =>
    obtain ⟨hresult, hseen⟩ := h.next_piece hpiece
    rw [hseen]
    rw [hresult] at hyield
    rcases hdecode : decode registry (calls + 1) reader.seen piece with ⟨e | found, seen⟩ <;>
      rw [hdecode] at hyield
    · cases hyield
    · cases hyield
      obtain ⟨hparse, hcount, ⟨hsorted, hnew⟩, hseen⟩ := decode_iff_sorted.1 hdecode
      exact ⟨hsorted, hnew, hseen, hcount, piece, rfl, hparse⟩

end Calls

section Seen

theorem decode_seen (registry : Registry) (position : Nat) (seen : List String)
    (piece : List UInt8) :
    (decode registry position seen piece).2 = seen ∨
      ∃ body text, Json.parseObject piece = .ok body ∧ Identified body text ∧
        (decode registry position seen piece).2 = text :: seen := by
  unfold decode
  split
  · exact .inl rfl
  · rename_i body hparse
    split
    · exact .inl rfl
    · rename_i text htext
      have hidentified := logicalId?_eq_some_iff.1 htext
      split
      · exact .inl rfl
      · split
        · exact .inl rfl
        · split <;> exact .inr ⟨body, text, hparse, hidentified, rfl⟩

theorem next_seen (registry : Registry) (reader : Reader) :
    reader.seen ⊆ (reader.next registry).2.seen := by
  unfold next
  split
  · exact List.Subset.refl _
  · split
    · exact List.Subset.refl _
    · exact List.Subset.refl _
    · rename_i piece _ _ _
      change _ ⊆ (decode registry (reader.position + 1) reader.seen piece).2
      obtain hsame | ⟨-, text, -, -, hmore⟩ :=
        decode_seen registry (reader.position + 1) reader.seen piece
      · simp [hsame]
      · simp [hmore]

theorem after_seen (registry : Registry) (reader : Reader) {calls later : Nat}
    (h : calls ≤ later) :
    (reader.after registry calls).seen ⊆ (reader.after registry later).seen := by
  induction h with
  | refl => exact List.Subset.refl _
  | step _ ih => exact List.Subset.trans ih (next_seen registry _)

/-- An object among the first pieces is known by a text. -/
def Named (pieces : List (List UInt8)) (calls : Nat) (text : String) : Prop :=
  ∃ index < calls, ∃ piece body,
    pieces[index]? = some piece ∧ Json.parseObject piece = .ok body ∧ Identified body text

theorem Stands.seen_named {pieces : List (List UInt8)} {reader : Reader}
    (start : Stands registry pieces 0 reader) (fresh : reader.seen = []) (calls : Nat) :
    ∀ text ∈ (reader.after registry calls).seen, Named pieces calls text := by
  induction calls with
  | zero =>
    intro text htext
    rw [Reader.after, fresh] at htext
    cases htext
  | succ calls ih =>
    have earlier : ∀ text ∈ (reader.after registry calls).seen, Named pieces (calls + 1) text := by
      intro text htext
      obtain ⟨index, hindex, hnamed⟩ := ih text htext
      exact ⟨index, Nat.lt_succ_of_lt hindex, hnamed⟩
    rw [Reader.after]
    cases hpiece : pieces[calls]? with
    | none =>
      rw [((start.after calls).next_none hpiece).2]
      exact earlier
    | some piece =>
      rw [((start.after calls).next_piece hpiece).2]
      obtain hsame | ⟨body, text, hparse, hidentified, hmore⟩ :=
        decode_seen registry (calls + 1) (reader.after registry calls).seen piece
      · rw [hsame]
        exact earlier
      · rw [hmore, List.forall_mem_cons]
        exact ⟨⟨calls, Nat.lt_succ_self calls, piece, body, hpiece, hparse, hidentified⟩, earlier⟩

end Seen

theorem Stands.result_of_first {pieces : List (List UInt8)} {reader : Reader}
    (start : Stands registry pieces 0 reader) (fresh : reader.seen = []) {index : Nat}
    {piece : List UInt8} (hpiece : pieces[index]? = some piece) {body : Members} {text : String}
    {t : Registry.RecordType} (hparse : Json.parseObject piece = .ok body)
    (sorted : Sorted registry ⟨index + 1, text, t, body⟩) (first : ¬Named pieces index text) :
    reader.result registry index = .ok (some ⟨index + 1, text, t, body⟩) := by
  have hnew : text ∉ (reader.after registry index).seen :=
    fun hseen => first (start.seen_named fresh index text hseen)
  have hdecode : decode registry (index + 1) (reader.after registry index).seen piece
      = (.ok ⟨index + 1, text, t, body⟩, text :: (reader.after registry index).seen) :=
    decode_iff_sorted.2 ⟨hparse, rfl, ⟨sorted, hnew⟩, rfl⟩
  rw [result, ((start.after index).next_piece hpiece).1, hdecode]
  rfl

theorem Stands.apart {pieces : List (List UInt8)} {reader : Reader}
    (start : Stands registry pieces 0 reader) {call other : Nat} (before : call < other)
    {record later : Record} (hrecord : reader.result registry call = .ok (some record))
    (hlater : reader.result registry other = .ok (some later)) :
    record.logicalId ≠ later.logicalId ∧ record.position < later.position := by
  obtain ⟨-, -, hseen, hposition, -⟩ := (start.after call).yields hrecord
  obtain ⟨-, hnew, -, hposition', -⟩ := (start.after other).yields hlater
  have hfound : record.logicalId ∈ (reader.after registry (call + 1)).seen := by
    rw [Reader.after, hseen]
    exact List.mem_cons_self
  constructor
  · intro hsame
    exact hnew (hsame ▸ after_seen registry reader before hfound)
  · omega

end Reader

/-- What a reader has yielded after any number of calls, those included that refused a piece or found
the framing broken. Every record is known by a text that is not blank, which is its uri, or its id
where the uri is absent or null; it has the registered type that it names, or the default type; the
schema of this type admits it; and its position is that of its piece among all pieces of the stream.
No two records are known by one text, and positions increase. No record is lost either: an object
that names itself and a type that admits it is yielded, unless an earlier piece has its text. -/
theorem yielded_in_order (registry : Registry) (buffers : List (List UInt8)) (calls : Nat) :
    let pieces := cut .start buffers.flatten
    let records := (Reader.ofBuffers buffers).yielded registry calls
    (∀ record ∈ records,
      (∃ c ∈ record.logicalId.toList, Text.isBlank c = false) ∧
      Identified record.body record.logicalId ∧
      record.type ∈ registry.types ∧ Typed registry record.body record.type ∧
      record.type.schema.admits record.body = true ∧
      ∃ index piece, record.position = index + 1 ∧ pieces[index]? = some piece ∧
        Json.parseObject piece = .ok record.body) ∧
    (records.map Record.logicalId).Nodup ∧
    (records.map Record.position).Pairwise (· < ·) ∧
    ∀ index < calls, ∀ piece body text t, pieces[index]? = some piece →
      Json.parseObject piece = .ok body → Identified body text → Typed registry body t →
      t.schema.admits body = true → ¬Reader.Named pieces index text →
      ⟨index + 1, text, t, body⟩ ∈ records := by
  intro pieces records
  have start : Reader.Stands registry pieces 0 (Reader.ofBuffers buffers) := .reading rfl rfl rfl
  have hpairs : records.Pairwise (fun record later =>
      record.logicalId ≠ later.logicalId ∧ record.position < later.position) := by
    refine List.Pairwise.filterMap _ ?_ List.pairwise_lt_range
    intro call other before record hrecord later hlater
    exact start.apart before (Reader.result_yields.1 hrecord) (Reader.result_yields.1 hlater)
  refine ⟨?_, ?_, ?_, ?_⟩
  · intro record hrecord
    obtain ⟨call, -, hyield⟩ := Reader.mem_yielded.1 hrecord
    obtain ⟨hsorted, -, -, hposition, piece, hpiece, hparse⟩ := (start.after call).yields hyield
    exact ⟨hsorted.identified.inked, hsorted.identified,
      recordType?_mem (recordType?_eq_some_iff.2 hsorted.typed), hsorted.typed, hsorted.valid,
      call, piece, hposition, hpiece, hparse⟩
  · exact List.pairwise_map.2 (hpairs.imp And.left)
  · exact List.pairwise_map.2 (hpairs.imp And.right)
  · intro index hindex piece body text t hpiece hparse hidentified htyped hvalid hfirst
    exact Reader.mem_yielded.2 ⟨index, hindex,
      start.result_of_first rfl hpiece hparse ⟨hidentified, htyped, hvalid⟩ hfirst⟩

/-- A record without a text, one that is known by the number 1, another that is known by the text
`1`, and one whose uri is taken before its id. -/
def mixed : List UInt8 :=
  Text.Utf8.encode "\x7b\"id\":\"a\",\"title\":\"A\"\x7d \x7b\"title\":\"B\"\x7d
    \x7b\"id\":1,\"title\":\"C\"\x7d \x7b\"uri\":null,\"id\":\"1\",\"title\":\"D\"\x7d
    \x7b\"uri\":\"e\",\"id\":\"a\",\"title\":\"E\"\x7d"

example :
    ((Reader.ofBuffers (buffers 16 mixed)).yielded Registry.standard 9).map
      (fun record => (record.position, record.logicalId)) = [(1, "a"), (3, "1"), (5, "e")] := by
  decide +kernel

end Batch

end Accession
