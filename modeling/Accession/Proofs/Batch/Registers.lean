import Accession.Proofs.Batch.Framing
import Mathlib.Data.List.Induction
import Mathlib.Tactic.SplitIfs
set_option autoImplicit false

namespace Accession.Batch

inductive Place where
  | start
  | arrayOpen
  | arrayComma
  | arrayAfterRecord
  | arrayClosed
  | betweenRecords
  | record
deriving DecidableEq, Repr

structure Registers where
  place : Place
  inArray : Bool
  depth : Nat
  inString : Bool
  escaped : Bool
  current : List UInt8
deriving DecidableEq, Repr

namespace Registers

def fresh : Registers :=
  ⟨.start, false, 0, false, false, []⟩

inductive Effect where
  | taken (registers : Registers)
  | completed (registers : Registers)
  | refused (error : FramingError)
  /-- A bracket closes where none is counted. -/
  | underflow
deriving Repr

def enter (r : Registers) (b : UInt8) : Registers :=
  { r with place := .record, depth := 1, inString := false, escaped := false, current := [b] }

def pushLiteral (r : Registers) (b : UInt8) : Registers :=
  if r.escaped then { r with escaped := false }
  else if b == 0x5C then { r with escaped := true }
  else if b == 0x22 then { r with inString := false }
  else r

def close (r : Registers) : Effect :=
  match r.depth with
  | 0 => .underflow
  | 1 => .completed
      { r with depth := 0, place := if r.inArray then .arrayAfterRecord else .betweenRecords }
  | depth + 2 => .taken { r with depth := depth + 1 }

def pushRecord (r : Registers) (b : UInt8) : Effect :=
  let r := { r with current := r.current ++ [b] }
  if r.inString then .taken (r.pushLiteral b)
  else if b == 0x22 then .taken { r with inString := true }
  else if isOpening b then .taken { r with depth := r.depth + 1 }
  else if isClosing b then r.close
  else .taken r

def pushMark (r : Registers) (b : UInt8) : Effect :=
  match r.place with
  | .start =>
    if b == 0x5B then .taken { r with inArray := true, place := .arrayOpen }
    else if b == 0x7B then .taken (r.enter b)
    else .refused (.batchExpected b)
  | .arrayOpen =>
    if b == 0x7B then .taken (r.enter b)
    else if b == 0x5D then .taken { r with place := .arrayClosed }
    else .refused (.objectExpected b)
  | .arrayComma =>
    if b == 0x7B then .taken (r.enter b)
    else if b == 0x5D then .refused .trailingComma
    else .refused (.objectExpected b)
  | .arrayAfterRecord =>
    if b == 0x5D then .taken { r with place := .arrayClosed }
    else if b == 0x2C then .taken { r with place := .arrayComma }
    else .refused (.separatorExpected b)
  | .arrayClosed => .refused .dataAfterArray
  | .betweenRecords =>
    if b == 0x7B then .taken (r.enter b) else .refused (.objectExpected b)
  | .record => .refused (.objectExpected b)

def push (r : Registers) (b : UInt8) : Effect :=
  if r.place = .record then r.pushRecord b
  else if isGap b then .taken r
  else r.pushMark b

def take (r : Registers) : List UInt8 × Registers :=
  (r.current, { r with current := [] })

end Registers

/-- A machine that cuts records off a stream, octet by octet: `none` is a machine that broke. -/
abbrev Cutter (σ : Type) := σ → UInt8 → Option (Except FramingError (σ × Option (List UInt8)))

def Splitter.cutter : Cutter Splitter :=
  fun splitter b => some (splitter.push b)

def Registers.Effect.result :
    Effect → Option (Except FramingError (Registers × Option (List UInt8)))
  | .taken r => some (.ok (r, none))
  | .completed r => some (.ok (r.take.2, some r.take.1))
  | .refused e => some (.error e)
  | .underflow => none

def Registers.cutter : Cutter Registers :=
  fun r b => (r.push b).result

structure Course (σ : Type) where
  state : σ
  accepted : List UInt8
  pieces : List (List UInt8)

namespace Course

variable {σ τ : Type}

def push (cutter : Cutter σ) (c : Course σ) (b : UInt8) : Option (Course σ) :=
  match cutter c.state b with
  | none => none
  | some (.error _) => some c
  | some (.ok (state, piece)) => some ⟨state, c.accepted ++ [b], c.pieces ++ piece.toList⟩

def run (cutter : Cutter σ) (state : σ) (fed : List UInt8) : Option (Course σ) :=
  fed.foldlM (push cutter) ⟨state, [], []⟩

def map (f : σ → τ) (c : Course σ) : Course τ :=
  ⟨f c.state, c.accepted, c.pieces⟩

theorem run_append (cutter : Cutter σ) (state : σ) (fed : List UInt8) (b : UInt8) :
    run cutter state (fed ++ [b]) = (run cutter state fed).bind (push cutter · b) := by
  simp [run]

end Course

section Simulation

def Splitter.place : Splitter → Place
  | .start => .start
  | .arrayOpen => .arrayOpen
  | .arrayComma => .arrayComma
  | .arrayAfterRecord => .arrayAfterRecord
  | .arrayClosed => .arrayClosed
  | .betweenRecords => .betweenRecords
  | .record .. => .record

def Splitter.inArray : Splitter → Bool
  | .start | .betweenRecords => false
  | .arrayOpen | .arrayComma | .arrayAfterRecord | .arrayClosed => true
  | .record framing .. => framing == .array

def Splitter.registers (splitter : Splitter) : Registers :=
  match splitter with
  | .record _ depth quotation octets =>
    ⟨.record, splitter.inArray, depth, quotation ≠ .outside, quotation = .escaped, octets.reverse⟩
  | _ => ⟨splitter.place, splitter.inArray, 0, false, false, []⟩

theorem registers_place (splitter : Splitter) : splitter.registers.place = splitter.place := by
  cases splitter <;> rfl

theorem registers_inArray (splitter : Splitter) :
    splitter.registers.inArray = splitter.inArray := by
  cases splitter <;> rfl

theorem registers_record (framing : Framing) (depth : Nat) (quotation : Quotation)
    (octets : List UInt8) :
    (Splitter.record framing depth quotation octets).registers =
      ⟨.record, framing == .array, depth, quotation ≠ .outside, quotation = .escaped,
        octets.reverse⟩ :=
  rfl

theorem registers_after (framing : Framing) :
    framing.after.registers =
      ⟨if framing == .array then .arrayAfterRecord else .betweenRecords, framing == .array, 0,
        false, false, []⟩ := by
  cases framing <;> rfl

theorem place_eq_record_iff (splitter : Splitter) :
    splitter.place = .record ↔ InRecord splitter := by
  cases splitter <;> simp [Splitter.place, InRecord]

def Splitter.shown (result : Except FramingError (Splitter × Option (List UInt8))) :
    Except FramingError (Registers × Option (List UInt8)) :=
  result.map fun (splitter, piece) => (splitter.registers, piece)

theorem shown_ok (splitter : Splitter) (piece : Option (List UInt8)) :
    Splitter.shown (.ok (splitter, piece)) = .ok (splitter.registers, piece) :=
  rfl

theorem cutter_mark {splitter : Splitter} (outside : ¬InRecord splitter) (b : UInt8) :
    Registers.cutter splitter.registers b = some (Splitter.shown (splitter.push b)) := by
  have hplace : splitter.registers.place ≠ .record := by
    rwa [registers_place, Ne, place_eq_record_iff]
  rw [Registers.cutter, Registers.push, if_neg hplace]
  by_cases hgap : isGap b = true
  · rw [if_pos hgap, push_gap hgap outside]
    rfl
  · rw [if_neg hgap]
    cases splitter with
    | record => exact absurd trivial outside
    | arrayClosed =>
      simp only [Splitter.push, hgap, Bool.false_eq_true, if_false]
      rfl
    | start | arrayOpen | arrayComma | arrayAfterRecord | betweenRecords =>
      simp only [Splitter.push, hgap, Bool.false_eq_true, if_false, Registers.pushMark,
        Splitter.registers, Splitter.place]
      split_ifs <;> rfl

section Record

variable (framing : Framing) (depth : Nat) (octets : List UInt8) (b : UInt8)

theorem push_quoted {quotation : Quotation} (quoted : quotation ≠ .outside) :
    (Splitter.record framing (depth + 1) quotation octets).push b =
      .ok (.record framing (depth + 1) (quotation.next b) (b :: octets), none) := by
  cases quotation with
  | outside => exact absurd rfl quoted
  | inside | escaped => rfl

theorem cutter_quoted {quotation : Quotation} (quoted : quotation ≠ .outside) :
    Registers.cutter (Splitter.record framing (depth + 1) quotation octets).registers b =
      some (Splitter.shown ((Splitter.record framing (depth + 1) quotation octets).push b)) := by
  have hcutter : Registers.cutter (Splitter.record framing (depth + 1) quotation octets).registers b
      = (Registers.Effect.taken (Registers.pushLiteral ⟨.record, framing == .array, depth + 1,
        true, quotation = .escaped, octets.reverse ++ [b]⟩ b)).result := by
    cases quotation with
    | outside => exact absurd rfl quoted
    | inside | escaped => rfl
  rw [hcutter, push_quoted framing depth octets b quoted, shown_ok, registers_record]
  cases quotation with
  | outside => exact absurd rfl quoted
  | escaped => simp [Registers.pushLiteral, Registers.Effect.result, Quotation.next]
  | inside =>
    simp only [Registers.pushLiteral, Registers.Effect.result, Quotation.next, List.reverse_cons]
    split_ifs <;> simp_all

theorem cutter_unquoted :
    Registers.cutter (Splitter.record framing (depth + 1) .outside octets).registers b =
      some (Splitter.shown ((Splitter.record framing (depth + 1) .outside octets).push b)) := by
  have hcutter : Registers.cutter (Splitter.record framing (depth + 1) .outside octets).registers b
      = (Registers.pushRecord ⟨.record, framing == .array, depth + 1, false, false,
        octets.reverse⟩ b).result := rfl
  rw [hcutter, Registers.pushRecord, Splitter.push]
  by_cases hquote : b = 0x22
  · subst hquote
    simp [Quotation.depth, Quotation.next, isOpening, isClosing, Registers.Effect.result,
      shown_ok, registers_record]
  by_cases hopen : isOpening b = true
  · simp [Quotation.depth, Quotation.next, hquote, hopen, Registers.Effect.result, shown_ok,
      registers_record]
  by_cases hclose : isClosing b = true
  · cases depth with
    | zero =>
      simp [Quotation.depth, hquote, hopen, hclose, Registers.close, Registers.take,
        Registers.Effect.result, shown_ok, registers_after]
    | succ depth =>
      simp [Quotation.depth, Quotation.next, hquote, hopen, hclose, Registers.close,
        Registers.Effect.result, shown_ok, registers_record]
  · simp [Quotation.depth, Quotation.next, hquote, hopen, hclose, Registers.Effect.result,
      shown_ok, registers_record]

end Record

/-- While a record has an open bracket, the registers do what the splitter does. -/
theorem cutter_registers {splitter : Splitter} (begun : Begun splitter) (b : UInt8) :
    Registers.cutter splitter.registers b = some (Splitter.shown (splitter.push b)) := by
  by_cases outside : InRecord splitter
  · cases splitter with
    | record framing depth quotation octets =>
      cases depth with
      -- without an open bracket the registers would break at a closing one
      | zero => exact absurd begun.1 (Nat.lt_irrefl 0)
      | succ depth =>
        by_cases hquotation : quotation = .outside
        · subst hquotation
          exact cutter_unquoted framing depth octets b
        · exact cutter_quoted framing depth octets b hquotation
    | _ => cases outside
  · exact cutter_mark outside b

theorem push_registers {c : Course Splitter} (begun : Begun c.state) (b : UInt8) :
    Course.push Registers.cutter (c.map Splitter.registers) b =
      (Course.push Splitter.cutter c b).map (Course.map Splitter.registers) := by
  rw [Course.push, Course.push, Course.map, cutter_registers begun, Splitter.cutter]
  rcases c.state.push b with e | ⟨splitter, piece⟩ <;> rfl

theorem push_splitter (c : Course Splitter) (b : UInt8) :
    ∃ c', Course.push Splitter.cutter c b = some c' ∧
      (¬InRecord c.state ∧ c' = c ∨
        ∃ piece, c.state.push b = .ok (c'.state, piece) ∧ c'.accepted = c.accepted ++ [b] ∧
          c'.pieces = c.pieces ++ piece.toList) := by
  rw [Course.push, Splitter.cutter]
  rcases hpush : c.state.push b with e | ⟨splitter, piece⟩
  · refine ⟨c, rfl, .inl ⟨fun inside => ?_, rfl⟩⟩
    cases hstate : c.state with
    | record framing depth quotation octets =>
      rw [hstate, Splitter.push] at hpush
      split at hpush <;> cases hpush
    | _ =>
      rw [hstate] at inside
      cases inside
  · exact ⟨_, rfl, .inr ⟨piece, rfl, rfl, rfl⟩⟩

end Simulation

section Text

mutual

/-- The octets of a text that lie outside string literals. -/
def bare : List UInt8 → List UInt8
  | [] => []
  | b :: s => if b = 0x22 then pastLiteral s else b :: bare s

/-- Those of a text that begins inside a literal. A backslash takes the next octet with it. -/
def pastLiteral : List UInt8 → List UInt8
  | [] => []
  | [_] => []
  | b :: c :: s =>
    if b = 0x22 then bare (c :: s) else if b = 0x5C then pastLiteral s else pastLiteral (c :: s)

end

/-- The opening brackets less the closing ones, outside string literals. -/
def balance (s : List UInt8) : Int :=
  (bare s).countP isOpening - (bare s).countP isClosing

def quotationAfter (s : List UInt8) : Quotation :=
  s.foldl Quotation.next .outside

def Quotation.bare : Quotation → List UInt8 → List UInt8
  | .outside, s => Batch.bare s
  | .inside, s => pastLiteral s
  | .escaped, s => pastLiteral s.tail

def Quotation.kept (q : Quotation) (b : UInt8) : List UInt8 :=
  if q = .outside ∧ b ≠ 0x22 then [b] else []

example : balance [0x7B, 0x22, 0x7D, 0x5C, 0x22, 0x5D, 0x22, 0x5B] = 2 := by decide

theorem bare_nil (q : Quotation) : q.bare [] = [] := by
  cases q <;> rfl

theorem bare_cons (q : Quotation) (b : UInt8) (s : List UInt8) :
    q.bare (b :: s) = q.kept b ++ (q.next b).bare s := by
  cases q with
  | outside =>
    by_cases hb : b = 0x22 <;> simp [Quotation.bare, bare, Quotation.kept, Quotation.next, hb]
  | escaped => rfl
  | inside =>
    simp only [Quotation.bare, Quotation.kept, Quotation.next, reduceCtorEq, false_and, if_false,
      List.nil_append, beq_iff_eq]
    cases s with
    | nil => split_ifs <;> rfl
    | cons c s =>
      rw [pastLiteral]
      split_ifs <;> simp_all

theorem bare_append (q : Quotation) (s : List UInt8) (b : UInt8) :
    q.bare (s ++ [b]) = q.bare s ++ (s.foldl Quotation.next q).kept b := by
  induction s generalizing q with
  | nil => rw [List.nil_append, bare_cons, bare_nil, bare_nil, List.append_nil]; rfl
  | cons a s ih =>
    rw [List.cons_append, bare_cons, bare_cons, ih, List.append_assoc, List.foldl_cons]

theorem quotationAfter_append (s : List UInt8) (b : UInt8) :
    quotationAfter (s ++ [b]) = (quotationAfter s).next b := by
  rw [quotationAfter, List.foldl_append]
  rfl

theorem isClosing_eq_false_of_isOpening {b : UInt8} (h : isOpening b = true) :
    isClosing b = false := by
  simp only [isOpening, Bool.or_eq_true, beq_iff_eq] at h
  obtain rfl | rfl := h <;> rfl

/-- The count of a record goes with the balance, as long as there is an open bracket. -/
theorem balance_append {s : List UInt8} {depth : Nat} (hdepth : 0 < depth)
    (h : (depth : Int) = balance s) (b : UInt8) :
    ((quotationAfter s).depth depth b : Int) = balance (s ++ [b]) := by
  have hbare : bare (s ++ [b]) = bare s ++ (quotationAfter s).kept b := bare_append .outside s b
  rw [balance] at h
  rw [balance, hbare, List.countP_append, List.countP_append]
  cases quotationAfter s with
  | inside | escaped =>
    simp only [Quotation.kept, Quotation.depth]
    simpa using h
  | outside =>
    simp only [Quotation.kept, Quotation.depth]
    by_cases hquote : b = 0x22
    · subst hquote
      simpa [isOpening, isClosing] using h
    by_cases hopen : isOpening b = true
    · have hclose := isClosing_eq_false_of_isOpening hopen
      simp [hquote, hopen, hclose]
      omega
    by_cases hclose : isClosing b = true
    · simp [hquote, hopen, hclose]
      omega
    · simp [hquote, hopen, hclose]
      omega

end Text

section Invariant

/-- Where the registers stand after octets. -/
def placed (fed : List UInt8) : Option Place :=
  (Course.run Registers.cutter .fresh fed).map (·.state.place)

/-- The octets with which `fed` ends are those of one record: they begin with a brace, before which
the registers stood outside of records, and stand in a record after each of them but perhaps the
last. -/
def Entered (fed octets : List UInt8) : Prop :=
  octets.head? = some 0x7B ∧
    ∃ before, fed = before ++ octets ∧ placed before ≠ some .record ∧
      ∀ p, p ≠ [] → p <+: octets → p ≠ octets → placed (before ++ p) = some .record

theorem entered_begin {fed : List UInt8} (outside : placed fed ≠ some .record) :
    Entered (fed ++ [0x7B]) [0x7B] := by
  refine ⟨rfl, fed, rfl, outside, ?_⟩
  intro p hnil hprefix hne
  obtain hp | hp := List.prefix_concat_iff.1 (show p <+: [] ++ [0x7B] from hprefix)
  · exact absurd hp hne
  · exact absurd (List.prefix_nil.1 hp) hnil

theorem entered_append {fed octets : List UInt8} (inside : placed fed = some .record)
    (h : Entered fed octets) (b : UInt8) : Entered (fed ++ [b]) (octets ++ [b]) := by
  obtain ⟨hhead, before, rfl, outside, within⟩ := h
  refine ⟨?_, before, List.append_assoc _ _ _, outside, ?_⟩
  · rw [List.head?_append, hhead]
    rfl
  · intro p hnil hprefix hne
    obtain hp | hp := List.prefix_concat_iff.1 hprefix
    · exact absurd hp hne
    · by_cases heq : p = octets
      · rw [heq]
        exact inside
      · exact within p hnil hp heq

def Splitter.first : Splitter → Option UInt8
  | .start => none
  | .betweenRecords => some 0x7B
  | .arrayOpen | .arrayComma | .arrayAfterRecord | .arrayClosed => some 0x5B
  | .record framing .. => some (if framing == .array then 0x5B else 0x7B)

theorem inArray_iff_first (splitter : Splitter) :
    splitter.inArray = true ↔ splitter.first = some 0x5B := by
  cases splitter with
  | record framing => cases framing <;> simp [Splitter.inArray, Splitter.first]
  | _ => simp [Splitter.inArray, Splitter.first]

theorem first_push {splitter splitter' : Splitter} {b : UInt8} {piece : Option (List UInt8)}
    (hpush : splitter.push b = .ok (splitter', piece)) :
    splitter'.first = splitter.first.or ([b].find? fun a => !isGap a) := by
  cases pushes_of_push hpush with
  | @last framing _ _ _ _ _ _ after =>
    subst after
    cases framing <;> rfl
  | within => rfl
  | gap _ hgap => simp [hgap]
  | mark m => cases m <;> rfl

structure Traced (fed : List UInt8) (c : Course Splitter) : Prop where
  begun : Begun c.state
  registers : Course.run Registers.cutter .fresh fed = some (c.map Splitter.registers)
  record : ∀ framing depth quotation octets, c.state = .record framing depth quotation octets →
    Entered fed octets.reverse ∧ quotationAfter octets.reverse = quotation ∧
      (depth : Int) = balance octets.reverse
  first : c.state.first = c.accepted.find? fun b => !isGap b

def Completes (r r' : Registers) : Prop :=
  r.place = .record ∧ r'.place ≠ .record

section Step

variable {fed : List UInt8} {c : Course Splitter} (traced : Traced fed c)

include traced

theorem Traced.placed_eq : placed fed = some c.state.place := by
  rw [placed, traced.registers, Option.map_some]
  exact congrArg some (registers_place c.state)

theorem Traced.within {framing : Framing} {depth : Nat} {quotation : Quotation}
    {octets : List UInt8} (hstate : c.state = .record framing depth quotation octets) (b : UInt8) :
    Entered (fed ++ [b]) (b :: octets).reverse ∧
      quotationAfter (b :: octets).reverse = quotation.next b ∧
      (quotation.depth depth b : Int) = balance (b :: octets).reverse := by
  have begun := traced.begun
  rw [hstate] at begun
  have hplaced : placed fed = some .record := by
    rw [traced.placed_eq, hstate]
    rfl
  obtain ⟨entered, rfl, hbalance⟩ := traced.record framing depth quotation octets hstate
  rw [List.reverse_cons]
  exact ⟨entered_append hplaced entered b, quotationAfter_append _ b,
    balance_append begun.1 hbalance b⟩

theorem Traced.record_push {b : UInt8} {framing : Framing} {depth : Nat} {quotation : Quotation}
    {octets : List UInt8} {piece : Option (List UInt8)}
    (hpush : c.state.push b = .ok (.record framing depth quotation octets, piece)) :
    Entered (fed ++ [b]) octets.reverse ∧ quotationAfter octets.reverse = quotation ∧
      (depth : Int) = balance octets.reverse := by
  have pushes := pushes_of_push hpush
  generalize hstate : c.state = splitter at pushes
  cases pushes with
  | @last framing' _ _ _ _ _ _ after => cases framing' <;> cases after
  | within => exact traced.within hstate b
  | gap outside => exact absurd trivial outside
  | mark m =>
    have hplaced : placed fed ≠ some .record := by
      rw [traced.placed_eq, Ne, Option.some_inj, place_eq_record_iff, hstate]
      exact outside_of_marks m
    cases m <;> exact ⟨entered_begin hplaced, rfl, rfl⟩

theorem Traced.pieces_push {b : UInt8} {splitter : Splitter} {piece : Option (List UInt8)}
    (hpush : c.state.push b = .ok (splitter, piece)) :
    (¬Completes c.state.registers splitter.registers → piece = none) ∧
      (Completes c.state.registers splitter.registers →
        piece = some (c.state.registers.current ++ [b]) ∧
          Entered (fed ++ [b]) (c.state.registers.current ++ [b]) ∧
          balance (c.state.registers.current ++ [b]) = 0) := by
  have pushes := pushes_of_push hpush
  simp only [Completes, registers_place, place_eq_record_iff, Ne]
  generalize hstate : c.state = state at pushes
  cases pushes with
  | @last framing depth quotation octets _ _ closed after =>
    obtain ⟨entered, -, hbalance⟩ := traced.within hstate b
    rw [List.reverse_cons] at entered hbalance
    rw [closed] at hbalance
    subst after
    refine ⟨fun h => absurd ⟨trivial, by cases framing <;> exact not_false⟩ h, fun _ => ?_⟩
    exact ⟨by rw [List.reverse_cons]; rfl, entered, hbalance.symm⟩
  | within => exact ⟨fun _ => rfl, fun h => absurd trivial h.2⟩
  | gap outside => exact ⟨fun _ => rfl, fun h => absurd h.1 outside⟩
  | mark m => exact ⟨fun _ => rfl, fun h => absurd h.1 (outside_of_marks m)⟩

theorem Traced.push (b : UInt8) :
    ∃ c', Course.push Splitter.cutter c b = some c' ∧ Traced (fed ++ [b]) c' ∧
      (¬Completes c.state.registers c'.state.registers → c'.pieces = c.pieces) ∧
      (Completes c.state.registers c'.state.registers →
        c'.pieces = c.pieces ++ [c.state.registers.current ++ [b]] ∧
          Entered (fed ++ [b]) (c.state.registers.current ++ [b]) ∧
          balance (c.state.registers.current ++ [b]) = 0) := by
  obtain ⟨c', hc', happened⟩ := push_splitter c b
  have hregisters : Course.run Registers.cutter .fresh (fed ++ [b]) =
      some (c'.map Splitter.registers) := by
    rw [Course.run_append, traced.registers, Option.bind_some, push_registers traced.begun, hc',
      Option.map_some]
  refine ⟨c', hc', ?_⟩
  obtain ⟨outside, rfl⟩ | ⟨piece, hpush, haccepted, hpieces⟩ := happened
  · refine ⟨⟨traced.begun, hregisters, ?_, traced.first⟩, fun _ => rfl, fun h => absurd h.1 h.2⟩
    intro framing depth quotation octets hstate
    rw [hstate] at outside
    exact absurd trivial outside
  · obtain ⟨hgoes, hcompletes⟩ := traced.pieces_push hpush
    refine ⟨⟨(push_begun traced.begun hpush).1, hregisters, ?_, ?_⟩, ?_, ?_⟩
    · intro framing depth quotation octets hstate
      exact traced.record_push (hstate ▸ hpush)
    · rw [haccepted, first_push hpush, traced.first, List.find?_append]
    · intro h
      rw [hpieces, hgoes h]
      exact List.append_nil _
    · intro h
      obtain ⟨rfl, entered, hbalance⟩ := hcompletes h
      exact ⟨hpieces, entered, hbalance⟩

end Step

theorem run_traced (fed : List UInt8) :
    ∃ c, Course.run Splitter.cutter .start fed = some c ∧ Traced fed c := by
  induction fed using List.reverseRecOn with
  | nil => exact ⟨⟨.start, [], []⟩, rfl, trivial, rfl, nofun, rfl⟩
  | append_singleton fed b ih =>
    obtain ⟨c, hc, traced⟩ := ih
    obtain ⟨c', hc', traced', -⟩ := traced.push b
    exact ⟨c', by rw [Course.run_append, hc, Option.bind_some, hc'], traced'⟩

theorem Traced.record_iff_depth {fed : List UInt8} {c : Course Splitter} (traced : Traced fed c) :
    c.state.registers.place = .record ↔ 1 ≤ c.state.registers.depth := by
  rw [registers_place, place_eq_record_iff]
  have begun := traced.begun
  cases hstate : c.state with
  | record framing depth quotation octets =>
    rw [hstate] at begun
    exact iff_of_true trivial begun.1
  | _ => exact iff_of_false not_false (Nat.not_lt_zero 0)

theorem Traced.current {fed : List UInt8} {c : Course Splitter} (traced : Traced fed c)
    (inside : c.state.registers.place = .record) :
    Entered fed c.state.registers.current ∧
      (c.state.registers.depth : Int) = balance c.state.registers.current := by
  cases hstate : c.state with
  | record framing depth quotation octets =>
    obtain ⟨entered, -, hbalance⟩ := traced.record framing depth quotation octets hstate
    exact ⟨entered, hbalance⟩
  | _ =>
    rw [hstate] at inside
    cases inside

end Invariant

/-- What the registers hold after any octets, with the refused ones passed over and every complete
record taken at once. They are those of the splitter, and the count never runs below zero. -/
theorem registers_hold (fed : List UInt8) :
    ∃ r, Course.run Registers.cutter .fresh fed = some r ∧
      (Course.run Splitter.cutter .start fed).map (Course.map Splitter.registers) = some r ∧
      (r.state.place = .record ↔ 1 ≤ r.state.depth) ∧
      (r.state.place = .record →
        Entered fed r.state.current ∧ (r.state.depth : Int) = balance r.state.current) ∧
      (r.state.inArray = true ↔ (r.accepted.find? fun b => !isGap b) = some 0x5B) ∧
      ∀ b, ∃ r', Course.run Registers.cutter .fresh (fed ++ [b]) = some r' ∧
        (¬Completes r.state r'.state → r'.pieces = r.pieces) ∧
        (Completes r.state r'.state →
          r'.pieces = r.pieces ++ [r.state.current ++ [b]] ∧
            Entered (fed ++ [b]) (r.state.current ++ [b]) ∧
            balance (r.state.current ++ [b]) = 0) := by
  obtain ⟨c, hc, traced⟩ := run_traced fed
  refine ⟨c.map Splitter.registers, traced.registers, ?_, traced.record_iff_depth, traced.current, ?_, ?_⟩
  · rw [hc, Option.map_some]
  · calc c.state.registers.inArray = true
      _ ↔ c.state.inArray = true := by rw [registers_inArray]
      _ ↔ c.state.first = some 0x5B := inArray_iff_first c.state
      _ ↔ (c.accepted.find? fun b => !isGap b) = some 0x5B := by rw [traced.first]
  · intro b
    obtain ⟨c', -, traced', hpieces⟩ := traced.push b
    exact ⟨c'.map Splitter.registers, traced'.registers, hpieces⟩

end Accession.Batch
