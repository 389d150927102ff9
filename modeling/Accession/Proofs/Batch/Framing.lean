import Accession.Batch.Reader
import Accession.Proofs.Batch.Brackets
set_option autoImplicit false

/-!
# The two framings

`ArrayFraming` and `SequenceFraming` say which octets frame a list of records, for any choice of
white space between them. `Cuts` is what the splitter does to a stream, however it is buffered. The
two agree: a framed list of records is cut into these records, and what is cut into records without
an error is one of the framings of them.
-/
namespace Accession.Batch

def Gap (g : List UInt8) : Prop := ∀ b ∈ g, isGap b = true

theorem gap_nil : Gap [] := by
  intro b hb
  cases hb

theorem gap_cons {b : UInt8} {g : List UInt8} (hb : isGap b = true) (hg : Gap g) :
    Gap (b :: g) := by
  intro a ha
  obtain rfl | ha := List.mem_cons.1 ha
  · exact hb
  · exact hg a ha

/-- The rest of an array after a record: the other records, each after a comma, and the closing
bracket. -/
inductive ArrayTail : List (List UInt8) → List UInt8 → Prop where
  | close {g g' : List UInt8} (hg : Gap g) (hg' : Gap g') : ArrayTail [] (g ++ 0x5D :: g')
  | comma {g g' r s : List UInt8} {rs : List (List UInt8)} (hg : Gap g) (hg' : Gap g')
      (tail : ArrayTail rs s) : ArrayTail (r :: rs) (g ++ 0x2C :: (g' ++ (r ++ s)))

inductive ArrayFraming : List (List UInt8) → List UInt8 → Prop where
  | empty {g g' g'' : List UInt8} (hg : Gap g) (hg' : Gap g') (hg'' : Gap g'') :
      ArrayFraming [] (g ++ 0x5B :: (g' ++ 0x5D :: g''))
  | records {g g' r s : List UInt8} {rs : List (List UInt8)} (hg : Gap g) (hg' : Gap g')
      (tail : ArrayTail rs s) : ArrayFraming (r :: rs) (g ++ 0x5B :: (g' ++ (r ++ s)))

inductive SequenceFraming : List (List UInt8) → List UInt8 → Prop where
  | nil {g : List UInt8} (hg : Gap g) : SequenceFraming [] g
  | cons {g r s : List UInt8} {rs : List (List UInt8)} (hg : Gap g)
      (tail : SequenceFraming rs s) : SequenceFraming (r :: rs) (g ++ (r ++ s))

/-- The pieces that are cut off a stream, one call after another, up to an end without an error. -/
inductive Cuts : Splitter → List (List UInt8) → List (List UInt8) → Prop where
  | ended {splitter splitter' : Splitter} {buffers rest : List (List UInt8)}
      (h : nextPiece splitter buffers = (.ok none, rest, splitter')) : Cuts splitter buffers []
  | piece {splitter splitter' : Splitter} {buffers rest pieces : List (List UInt8)}
      {piece : List UInt8} (h : nextPiece splitter buffers = (.ok (some piece), rest, splitter'))
      (more : Cuts splitter' rest pieces) : Cuts splitter buffers (piece :: pieces)

/-- What JSON accepts as an object, without white space around it. -/
def IsRecord (r : List UInt8) : Prop :=
  r.head? = some 0x7B ∧ r.getLast? = some 0x7D ∧ ∃ ms, Json.parseObject r = .ok ms

/-- The pieces of a stream that is taken octet by octet. -/
def pieces : Splitter → List UInt8 → Option (List (List UInt8))
  | splitter, [] =>
    match splitter.finish with
    | .ok () => some []
    | .error _ => none
  | splitter, b :: s =>
    match splitter.push b with
    | .error _ => none
    | .ok (splitter, none) => pieces splitter s
    | .ok (splitter, some piece) => (pieces splitter s).map (piece :: ·)

section Buffers

/-- What is made of a stream octet by octet: of its end, of an octet that is refused, and of a piece
and what is made of the rest. -/
structure Octetwise {β : Type} (made : Splitter → List UInt8 → β) (ended refused : β)
    (taken : List UInt8 → β → β) : Prop where
  nil : ∀ splitter, made splitter [] =
    match splitter.finish with
    | .ok () => ended
    | .error _ => refused
  cons : ∀ splitter b s, made splitter (b :: s) =
    match splitter.push b with
    | .error _ => refused
    | .ok (splitter, none) => made splitter s
    | .ok (splitter, some piece) => taken piece (made splitter s)

namespace Octetwise

variable {β : Type} {made : Splitter → List UInt8 → β} {ended refused : β}
  {taken : List UInt8 → β → β} (octetwise : Octetwise made ended refused taken)

include octetwise

theorem of_feed (splitter : Splitter) (s t : List UInt8) :
    made splitter (s ++ t) =
      match splitter.feed s with
      | .taken splitter' => made splitter' t
      | .piece splitter' piece rest => taken piece (made splitter' (rest ++ t))
      | .refused _ _ => refused := by
  induction s generalizing splitter with
  | nil => rfl
  | cons b s ih =>
    rw [List.cons_append, octetwise.cons, Splitter.feed]
    rcases splitter.push b with e | ⟨splitter', _ | piece⟩
    · rfl
    · exact ih splitter'
    · rfl

theorem of_nextPiece (splitter : Splitter) (buffers : List (List UInt8)) :
    made splitter buffers.flatten =
      match nextPiece splitter buffers with
      | (.ok none, _, _) => ended
      | (.ok (some piece), rest, splitter') => taken piece (made splitter' rest.flatten)
      | (.error _, _, _) => refused := by
  induction buffers generalizing splitter with
  | nil =>
    rw [List.flatten_nil, octetwise.nil, nextPiece]
    rcases splitter.finish with e | ⟨⟩ <;> rfl
  | cons buffer buffers ih =>
    rw [List.flatten_cons, octetwise.of_feed, nextPiece]
    cases splitter.feed buffer with
    | taken splitter' => exact ih splitter'
    | piece splitter' piece rest => rfl
    | refused splitter' e => rfl

end Octetwise

theorem octetwise_pieces :
    Octetwise pieces (some []) none (fun piece => Option.map (piece :: ·)) :=
  ⟨fun _ => rfl, fun _ _ _ => rfl⟩

theorem pieces_nextPiece (splitter : Splitter) (buffers : List (List UInt8)) :
    pieces splitter buffers.flatten =
      match nextPiece splitter buffers with
      | (.ok none, _, _) => some []
      | (.ok (some piece), rest, splitter') => (pieces splitter' rest.flatten).map (piece :: ·)
      | (.error _, _, _) => none :=
  octetwise_pieces.of_nextPiece splitter buffers

theorem cuts_iff_pieces (splitter : Splitter) (buffers ps : List (List UInt8)) :
    Cuts splitter buffers ps ↔ pieces splitter buffers.flatten = some ps := by
  constructor
  · intro h
    induction h with
    | ended h => rw [pieces_nextPiece, h]
    | piece h _ ih =>
      rw [pieces_nextPiece, h]
      dsimp only
      rw [ih, Option.map_some]
  · intro h
    induction ps generalizing splitter buffers with
    | nil =>
      rw [pieces_nextPiece] at h
      rcases hnext : nextPiece splitter buffers with ⟨_ | _ | piece, rest, splitter'⟩ <;>
        rw [hnext] at h
      · cases h
      · exact .ended hnext
      · simp at h
    | cons p ps ih =>
      rw [pieces_nextPiece] at h
      rcases hnext : nextPiece splitter buffers with ⟨_ | _ | piece, rest, splitter'⟩ <;>
        rw [hnext] at h
      · cases h
      · cases h
      · obtain ⟨ps', hps, heq⟩ := Option.map_eq_some_iff.1 h
        obtain ⟨rfl, rfl⟩ := List.cons.inj heq
        exact .piece hnext (ih splitter' rest hps)

end Buffers

section Records

theorem isSpace_of_skipSpace_eq_nil {s : List UInt8} (h : Json.skipSpace s = []) {b : UInt8}
    (hb : b ∈ s) : Json.isSpace b = true := by
  induction s with
  | nil => cases hb
  | cons a s ih =>
    rw [Json.skipSpace, List.dropWhile_cons] at h
    split at h
    · rename_i ha
      obtain rfl | hb := List.mem_cons.1 hb
      · exact ha
      · exact ih h hb
    · cases h

theorem accepted_shape {r : List UInt8} {b : UInt8} {ms : Json.Members}
    (hhead : r.head? = some 0x7B) (hlast : r.getLast? = some b) (hb : isClosing b = true)
    (h : Json.parseObject r = .ok ms) :
    ∃ c, r = 0x7B :: (c ++ [0x7D]) ∧ scan .outside 1 c = some (.outside, 1) := by
  obtain ⟨t, rfl⟩ : ∃ t, r = 0x7B :: t := by
    cases r with
    | nil => cases hhead
    | cons a t =>
      obtain rfl : a = 0x7B := by simpa using hhead
      exact ⟨t, rfl⟩
  obtain ⟨space, ⟨c, rfl, hscan⟩, hspace⟩ := parseObject_passes h
  cases hend : space.getLast? with
  | none =>
    rw [List.getLast?_eq_none_iff] at hend
    rw [hend]
    exact ⟨c, rfl, hscan 0⟩
  | some a =>
    -- the last octet would be white space as well as a bracket
    have ha : Json.isSpace a = true := by
      exact isSpace_of_skipSpace_eq_nil hspace (List.mem_of_getLast? hend)
    have hab : a = b := by
      rw [show (0x7B :: (c ++ 0x7D :: space) : List UInt8) = (0x7B :: (c ++ [0x7D])) ++ space by
        simp, List.getLast?_append, hend] at hlast
      simpa using hlast
    subst hab
    have hplain := isPlain_of_isSpace ha
    simp [isPlain, hb] at hplain

theorem isRecord_shape {r : List UInt8} (h : IsRecord r) :
    ∃ c, r = 0x7B :: (c ++ [0x7D]) ∧ scan .outside 1 c = some (.outside, 1) := by
  obtain ⟨hhead, hlast, ms, hms⟩ := h
  exact accepted_shape hhead hlast rfl hms

end Records

section Delivering

def InRecord : Splitter → Prop
  | .record .. => True
  | _ => False

theorem push_gap {splitter : Splitter} {b : UInt8} (hb : isGap b = true)
    (outside : ¬InRecord splitter) :
    splitter.push b = .ok (splitter, none) := by
  cases splitter with
  | record f d q o => exact absurd trivial outside
  | _ => simp [Splitter.push, hb]

inductive Marks : Splitter → UInt8 → Splitter → Prop where
  | array : Marks .start 0x5B .arrayOpen
  | sequence : Marks .start 0x7B (.begin .sequence 0x7B)
  | first : Marks .arrayOpen 0x7B (.begin .array 0x7B)
  | empty : Marks .arrayOpen 0x5D .arrayClosed
  | next : Marks .arrayComma 0x7B (.begin .array 0x7B)
  | close : Marks .arrayAfterRecord 0x5D .arrayClosed
  | comma : Marks .arrayAfterRecord 0x2C .arrayComma
  | record : Marks .betweenRecords 0x7B (.begin .sequence 0x7B)

theorem push_mark {splitter splitter' : Splitter} {b : UInt8} {piece : Option (List UInt8)}
    (outside : ¬InRecord splitter) (hgap : ¬isGap b = true)
    (hpush : splitter.push b = .ok (splitter', piece)) :
    piece = none ∧ Marks splitter b splitter' := by
  cases splitter with
  | record => exact absurd trivial outside
  | arrayClosed =>
    simp only [Splitter.push, hgap, Bool.false_eq_true, if_false] at hpush
    cases hpush
  | start | arrayOpen | arrayComma | arrayAfterRecord | betweenRecords =>
    simp only [Splitter.push, hgap, Bool.false_eq_true, if_false] at hpush
    repeat' split at hpush
    all_goals cases hpush
    all_goals
      rename_i hb
      obtain rfl := eq_of_beq hb
      exact ⟨rfl, by constructor⟩

/-- Everything that an octet can do which is not refused. -/
inductive Pushes : Splitter → UInt8 → Splitter → Option (List UInt8) → Prop where
  | last {framing : Framing} {depth : Nat} {quotation : Quotation} {octets : List UInt8} {b : UInt8}
      {splitter' : Splitter} (closed : quotation.depth depth b = 0)
      (after : splitter' = framing.after) :
      Pushes (.record framing depth quotation octets) b splitter' (some (b :: octets).reverse)
  | within {framing : Framing} {depth : Nat} {quotation : Quotation} {octets : List UInt8}
      {b : UInt8} (left : quotation.depth depth b ≠ 0) :
      Pushes (.record framing depth quotation octets) b
        (.record framing (quotation.depth depth b) (quotation.next b) (b :: octets)) none
  | gap {splitter : Splitter} {b : UInt8} (outside : ¬InRecord splitter)
      (hb : isGap b = true) : Pushes splitter b splitter none
  | mark {splitter splitter' : Splitter} {b : UInt8} (m : Marks splitter b splitter') :
      Pushes splitter b splitter' none

theorem pushes_of_push {splitter splitter' : Splitter} {b : UInt8} {piece : Option (List UInt8)}
    (hpush : splitter.push b = .ok (splitter', piece)) : Pushes splitter b splitter' piece := by
  by_cases outside : InRecord splitter
  · cases splitter with
    | record framing depth quotation octets =>
      rw [Splitter.push] at hpush
      split at hpush
      · rename_i hdepth
        cases hpush
        exact .last (eq_of_beq hdepth) rfl
      · rename_i hdepth
        cases hpush
        exact .within (by simpa using hdepth)
    | _ => cases outside
  · by_cases hgap : isGap b = true
    · rw [push_gap hgap outside] at hpush
      cases hpush
      exact .gap outside hgap
    · obtain ⟨rfl, m⟩ := push_mark outside hgap hpush
      exact .mark m

theorem outside_of_marks {splitter splitter' : Splitter} {b : UInt8}
    (m : Marks splitter b splitter') : ¬InRecord splitter := by
  cases m <;> exact not_false

theorem pieces_gap (splitter : Splitter) {g : List UInt8} (hg : Gap g)
    (outside : ¬InRecord splitter) (s : List UInt8) :
    pieces splitter (g ++ s) = pieces splitter s := by
  induction g with
  | nil => rfl
  | cons b g ih =>
    rw [List.cons_append, pieces, push_gap (hg b List.mem_cons_self) outside]
    exact ih (fun a ha => hg a (List.mem_cons_of_mem _ ha))

theorem pieces_scan {f : Framing} {d d' : Nat} {q q' : Quotation} {c : List UInt8}
    (h : scan q d c = some (q', d')) (octets s : List UInt8) :
    pieces (.record f d q octets) (c ++ s) = pieces (.record f d' q' (c.reverse ++ octets)) s := by
  induction c generalizing d q octets with
  | nil =>
    cases h
    rfl
  | cons b c ih =>
    rw [scan] at h
    split at h
    · cases h
    · rename_i hdepth
      rw [List.cons_append, pieces, Splitter.push]
      simp only [beq_eq_false_iff_ne.2 hdepth, Bool.false_eq_true, if_false]
      rw [ih h, List.reverse_cons, List.append_assoc]
      rfl

theorem pieces_record {r : List UInt8} (hr : IsRecord r) {splitter : Splitter} {f : Framing}
    (begins : splitter.push 0x7B = .ok (Splitter.begin f 0x7B, none)) (s : List UInt8) :
    pieces splitter (r ++ s) = (pieces f.after s).map (r :: ·) := by
  obtain ⟨c, rfl, hscan⟩ := isRecord_shape hr
  rw [List.cons_append, pieces, begins, Splitter.begin, List.append_assoc]
  dsimp only
  rw [pieces_scan hscan]
  simp [pieces, Splitter.push, Quotation.depth, isOpening, isClosing]

theorem pieces_arrayTail {rs : List (List UInt8)} {s : List UInt8} (h : ArrayTail rs s)
    (records : ∀ r ∈ rs, IsRecord r) : pieces .arrayAfterRecord s = some rs := by
  induction h with
  | close hg hg' =>
    rw [pieces_gap .arrayAfterRecord hg not_false, pieces]
    have := pieces_gap .arrayClosed hg' not_false []
    rw [List.append_nil] at this
    exact this
  | comma hg hg' _ ih =>
    obtain ⟨hr, hrs⟩ := List.forall_mem_cons.1 records
    rw [pieces_gap .arrayAfterRecord hg not_false, pieces]
    change pieces .arrayComma _ = _
    rw [pieces_gap .arrayComma hg' not_false, pieces_record hr (f := .array) rfl]
    change (pieces .arrayAfterRecord _).map _ = _
    rw [ih hrs, Option.map_some]

theorem pieces_arrayFraming {rs : List (List UInt8)} {s : List UInt8} (h : ArrayFraming rs s)
    (records : ∀ r ∈ rs, IsRecord r) : pieces .start s = some rs := by
  cases h with
  | empty hg hg' hg'' =>
    rw [pieces_gap .start hg not_false, pieces]
    change pieces .arrayOpen _ = _
    rw [pieces_gap .arrayOpen hg' not_false, pieces]
    have := pieces_gap .arrayClosed hg'' not_false []
    rw [List.append_nil] at this
    exact this
  | records hg hg' tail =>
    obtain ⟨hr, hrs⟩ := List.forall_mem_cons.1 records
    rw [pieces_gap .start hg not_false, pieces]
    change pieces .arrayOpen _ = _
    rw [pieces_gap .arrayOpen hg' not_false, pieces_record hr (f := .array) rfl]
    change (pieces .arrayAfterRecord _).map _ = _
    rw [pieces_arrayTail tail hrs, Option.map_some]

theorem pieces_sequenceFraming {rs : List (List UInt8)} {s : List UInt8}
    (h : SequenceFraming rs s) (records : ∀ r ∈ rs, IsRecord r) :
    pieces .start s = some rs ∧ pieces .betweenRecords s = some rs := by
  induction h with
  | @nil g hg =>
    have hstart := pieces_gap .start hg not_false []
    have hbetween := pieces_gap .betweenRecords hg not_false []
    rw [List.append_nil] at hstart hbetween
    exact ⟨hstart, hbetween⟩
  | cons hg _ ih =>
    obtain ⟨hr, hrs⟩ := List.forall_mem_cons.1 records
    obtain ⟨-, ih⟩ := ih hrs
    rw [pieces_gap .start hg not_false, pieces_gap .betweenRecords hg not_false,
      pieces_record hr (f := .sequence) rfl, pieces_record hr (f := .sequence) rfl]
    change (pieces .betweenRecords _).map _ = _ ∧ (pieces .betweenRecords _).map _ = _
    rw [ih, Option.map_some]
    exact ⟨rfl, rfl⟩

end Delivering

section Converse

def ArrayRecords (rs : List (List UInt8)) (s : List UInt8) : Prop :=
  ∃ g r rs' s', Gap g ∧ rs = r :: rs' ∧ s = g ++ (r ++ s') ∧ ArrayTail rs' s'

def Framing.Follows : Framing → List (List UInt8) → List UInt8 → Prop
  | .array => ArrayTail
  | .sequence => SequenceFraming

/-- What a stream must still hold for a splitter to cut records off it. -/
def Expects : Splitter → List (List UInt8) → List UInt8 → Prop
  | .start, rs, s => ArrayFraming rs s ∨ SequenceFraming rs s
  | .arrayOpen, rs, s =>
    (rs = [] ∧ ∃ g g', Gap g ∧ Gap g' ∧ s = g ++ 0x5D :: g') ∨ ArrayRecords rs s
  | .arrayComma, rs, s => ArrayRecords rs s
  | .arrayAfterRecord, rs, s => ArrayTail rs s
  | .arrayClosed, rs, s => rs = [] ∧ Gap s
  | .betweenRecords, rs, s => SequenceFraming rs s
  | .record f _ _ octets, rs, s =>
    ∃ c rs' s', rs = (octets.reverse ++ c) :: rs' ∧ s = c ++ s' ∧ f.Follows rs' s'

section Gaps

variable {b : UInt8} (hb : isGap b = true) {rs : List (List UInt8)} {s : List UInt8}

include hb

theorem ArrayTail.gap (h : ArrayTail rs s) : ArrayTail rs (b :: s) := by
  cases h with
  | close hg hg' => exact .close (gap_cons hb hg) hg'
  | comma hg hg' tail => exact .comma (gap_cons hb hg) hg' tail

theorem ArrayFraming.gap (h : ArrayFraming rs s) : ArrayFraming rs (b :: s) := by
  cases h with
  | empty hg hg' hg'' => exact .empty (gap_cons hb hg) hg' hg''
  | records hg hg' tail => exact .records (gap_cons hb hg) hg' tail

theorem SequenceFraming.gap (h : SequenceFraming rs s) : SequenceFraming rs (b :: s) := by
  cases h with
  | nil hg => exact .nil (gap_cons hb hg)
  | cons hg tail => exact .cons (gap_cons hb hg) tail

theorem ArrayRecords.gap (h : ArrayRecords rs s) : ArrayRecords rs (b :: s) := by
  obtain ⟨g, r, rs', s', hg, rfl, rfl, tail⟩ := h
  exact ⟨b :: g, r, rs', s', gap_cons hb hg, rfl, rfl, tail⟩

theorem expects_gap {splitter : Splitter} (outside : ¬InRecord splitter)
    (h : Expects splitter rs s) : Expects splitter rs (b :: s) := by
  cases splitter with
  | start => exact h.imp (.gap hb) (.gap hb)
  | arrayOpen =>
    refine h.imp ?_ (.gap hb)
    rintro ⟨rfl, g, g', hg, hg', rfl⟩
    exact ⟨rfl, b :: g, g', gap_cons hb hg, hg', rfl⟩
  | arrayComma => exact .gap hb h
  | arrayAfterRecord => exact .gap hb h
  | arrayClosed => exact ⟨h.1, gap_cons hb h.2⟩
  | betweenRecords => exact .gap hb h
  | record f d q o => exact absurd trivial outside

end Gaps

theorem expects_begin {f : Framing} {rs : List (List UInt8)} {s : List UInt8}
    (h : Expects (Splitter.begin f 0x7B) rs s) :
    ∃ r rs' s', rs = r :: rs' ∧ 0x7B :: s = r ++ s' ∧ f.Follows rs' s' := by
  obtain ⟨c, rs', s', rfl, rfl, follows⟩ := h
  exact ⟨0x7B :: c, rs', s', rfl, rfl, follows⟩

theorem follows_expects {f : Framing} {rs : List (List UInt8)} {s : List UInt8}
    (h : Expects f.after rs s) : f.Follows rs s := by
  cases f <;> exact h

theorem expects_marks {splitter splitter' : Splitter} {b : UInt8} (m : Marks splitter b splitter')
    {rs : List (List UInt8)} {s : List UInt8} (h : Expects splitter' rs s) :
    Expects splitter rs (b :: s) := by
  cases m with
  | array =>
    obtain ⟨rfl, g, g', hg, hg', rfl⟩ | ⟨g, r, rs', s', hg, rfl, rfl, tail⟩ := h
    · exact .inl (.empty gap_nil hg hg')
    · exact .inl (.records gap_nil hg tail)
  | sequence =>
    obtain ⟨r, rs', s', rfl, hs, follows⟩ := expects_begin h
    rw [hs]
    exact .inr (.cons gap_nil follows)
  | first =>
    obtain ⟨r, rs', s', rfl, hs, follows⟩ := expects_begin h
    exact .inr ⟨[], r, rs', s', gap_nil, rfl, hs, follows⟩
  | empty =>
    obtain ⟨rfl, hg⟩ := h
    exact .inl ⟨rfl, [], s, gap_nil, hg, rfl⟩
  | next =>
    obtain ⟨r, rs', s', rfl, hs, follows⟩ := expects_begin h
    exact ⟨[], r, rs', s', gap_nil, rfl, hs, follows⟩
  | close =>
    obtain ⟨rfl, hg⟩ := h
    exact .close gap_nil hg
  | comma =>
    obtain ⟨g, r, rs', s', hg, rfl, rfl, tail⟩ := h
    exact .comma gap_nil hg tail
  | record =>
    obtain ⟨r, rs', s', rfl, hs, follows⟩ := expects_begin h
    rw [hs]
    exact .cons gap_nil follows

theorem expects_push {splitter splitter' : Splitter} {b : UInt8} {piece : Option (List UInt8)}
    (hpush : splitter.push b = .ok (splitter', piece)) {rs : List (List UInt8)} {s : List UInt8}
    (h : Expects splitter' rs s) : Expects splitter (piece.toList ++ rs) (b :: s) := by
  cases pushes_of_push hpush with
  | last _ after =>
    subst after
    exact ⟨[b], rs, s, by simp, rfl, follows_expects h⟩
  | within =>
    obtain ⟨c, rs', s', rfl, rfl, follows⟩ := h
    exact ⟨b :: c, rs', s', by simp, rfl, follows⟩
  | gap outside hgap => exact expects_gap hgap outside h
  | mark m => exact expects_marks m h

theorem expects_pieces {splitter : Splitter} {s : List UInt8} {ps : List (List UInt8)}
    (h : pieces splitter s = some ps) : Expects splitter ps s := by
  induction s generalizing splitter ps with
  | nil =>
    cases splitter with
    | start =>
      cases h
      exact .inr (.nil gap_nil)
    | betweenRecords =>
      cases h
      exact .nil gap_nil
    | arrayClosed =>
      cases h
      exact ⟨rfl, gap_nil⟩
    | _ => cases h
  | cons b s ih =>
    rw [pieces] at h
    rcases hpush : splitter.push b with e | ⟨splitter', _ | piece⟩ <;> rw [hpush] at h
    · cases h
    · exact expects_push hpush (ih h)
    · obtain ⟨ps', hps, rfl⟩ := Option.map_eq_some_iff.1 h
      exact expects_push hpush (ih hps)

def Bracketed (p : List UInt8) : Prop :=
  p.head? = some 0x7B ∧ ∃ b, p.getLast? = some b ∧ isClosing b = true

/-- In a record there is an open bracket, and the record begins with one. -/
def Begun : Splitter → Prop
  | .record _ depth _ octets => 0 < depth ∧ octets.getLast? = some 0x7B
  | _ => True

theorem isClosing_of_depth {q : Quotation} {depth : Nat} {b : UInt8} (hdepth : 0 < depth)
    (h : q.depth depth b = 0) : isClosing b = true := by
  unfold Quotation.depth at h
  split at h
  · split at h
    · cases h
    · split at h
      · assumption
      · omega
  · omega

theorem begun_marks {splitter splitter' : Splitter} {b : UInt8} (m : Marks splitter b splitter') :
    Begun splitter' := by
  cases m with
  | array | empty | close | comma => trivial
  | sequence | first | next | record => exact ⟨Nat.one_pos, rfl⟩

theorem push_begun {splitter splitter' : Splitter} {b : UInt8} {piece : Option (List UInt8)}
    (begun : Begun splitter) (hpush : splitter.push b = .ok (splitter', piece)) :
    Begun splitter' ∧ ∀ p, piece = some p → Bracketed p := by
  cases pushes_of_push hpush with
  | @last framing _ _ octets _ _ closed after =>
    obtain ⟨hd, hfirst⟩ := begun
    subst after
    refine ⟨by cases framing <;> trivial, ?_⟩
    rintro p ⟨rfl⟩
    refine ⟨?_, b, ?_, isClosing_of_depth hd closed⟩
    · rw [List.head?_reverse, List.getLast?_cons, hfirst]
      rfl
    · rw [List.getLast?_reverse]
      rfl
  | within left =>
    refine ⟨⟨Nat.pos_of_ne_zero left, ?_⟩, nofun⟩
    rw [List.getLast?_cons, begun.2]
    rfl
  | gap => exact ⟨begun, nofun⟩
  | mark m => exact ⟨begun_marks m, nofun⟩

theorem pieces_bracketed {splitter : Splitter} {s : List UInt8} {ps : List (List UInt8)}
    (begun : Begun splitter) (h : pieces splitter s = some ps) : ∀ p ∈ ps, Bracketed p := by
  induction s generalizing splitter ps with
  | nil =>
    rw [pieces] at h
    split at h
    · cases h
      exact nofun
    · cases h
  | cons b s ih =>
    rw [pieces] at h
    rcases hpush : splitter.push b with e | ⟨splitter', _ | piece⟩ <;> rw [hpush] at h
    · cases h
    · exact ih (push_begun begun hpush).1 h
    · obtain ⟨begun', hpiece⟩ := push_begun begun hpush
      obtain ⟨ps', hps, rfl⟩ := Option.map_eq_some_iff.1 h
      exact List.forall_mem_cons.2 ⟨hpiece piece rfl, ih begun' hps⟩

theorem isRecord_of_bracketed {p : List UInt8} {ms : Json.Members} (h : Bracketed p)
    (hms : Json.parseObject p = .ok ms) : IsRecord p := by
  obtain ⟨hhead, b, hlast, hb⟩ := h
  obtain ⟨c, rfl, -⟩ := accepted_shape hhead hlast hb hms
  exact ⟨rfl, by rw [← List.cons_append, List.getLast?_append]; rfl, ms, hms⟩

end Converse

/-- However a stream is buffered, it is cut without an error into pieces that are accepted as objects
exactly if it is one of the two framings of these pieces, each from bracket to bracket. -/
theorem cuts_iff_framing (buffers rs : List (List UInt8)) :
    (Cuts .start buffers rs ∧ ∀ r ∈ rs, ∃ ms, Json.parseObject r = .ok ms) ↔
      (∀ r ∈ rs, IsRecord r) ∧
        (ArrayFraming rs buffers.flatten ∨ SequenceFraming rs buffers.flatten) := by
  rw [cuts_iff_pieces]
  constructor
  · rintro ⟨hpieces, accepted⟩
    refine ⟨?_, expects_pieces hpieces⟩
    intro r hr
    obtain ⟨ms, hms⟩ := accepted r hr
    exact isRecord_of_bracketed (pieces_bracketed (show Begun .start from trivial) hpieces r hr) hms
  · rintro ⟨records, framing⟩
    refine ⟨?_, fun r hr => (records r hr).2.2⟩
    obtain framing | framing := framing
    · exact pieces_arrayFraming framing records
    · exact (pieces_sequenceFraming framing records).1

end Accession.Batch
