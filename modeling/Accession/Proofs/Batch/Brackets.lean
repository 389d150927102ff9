import Accession.Batch.Splitter
import Accession.Proofs.Json.Numerals
import Accession.Proofs.Json.Values
set_option autoImplicit false

/-!
# Brackets in JSON text

The splitter counts brackets outside string literals and does not parse. `scan` is its count over
octets that never close the last bracket; `Passes` says that a reader went over octets which leave
the count as it was. Every value that `readValue` reads is passed this way, so the brackets of an
object that the reader accepts are balanced as the splitter counts them.
-/
namespace Accession.Batch

open Json

/-- The quotation and the open brackets after octets, unless the last bracket is closed by one. -/
def scan : Quotation → Nat → List UInt8 → Option (Quotation × Nat)
  | q, depth, [] => some (q, depth)
  | q, depth, b :: s =>
    if q.depth depth b = 0 then none else scan (q.next b) (q.depth depth b) s

theorem scan_append (q : Quotation) (depth : Nat) (s s' : List UInt8) :
    scan q depth (s ++ s') = (scan q depth s).bind (fun p => scan p.1 p.2 s') := by
  induction s generalizing q depth with
  | nil => rfl
  | cons b s ih =>
    rw [List.cons_append, scan, scan]
    split
    · rfl
    · exact ih _ _

/-- Between two texts lie octets that close no bracket but those that they open. -/
def Passes (q : Quotation) (s : List UInt8) (q' : Quotation) (s' : List UInt8) : Prop :=
  ∃ c, s = c ++ s' ∧ ∀ depth, scan q (depth + 1) c = some (q', depth + 1)

def isPlain (b : UInt8) : Bool :=
  b != 0x22 && !isOpening b && !isClosing b

namespace Passes

theorem refl (q : Quotation) (s : List UInt8) : Passes q s q s :=
  ⟨[], rfl, fun _ => rfl⟩

theorem trans {q q' q'' : Quotation} {s s' s'' : List UInt8} (h : Passes q s q' s')
    (h' : Passes q' s' q'' s'') : Passes q s q'' s'' := by
  obtain ⟨c, rfl, hc⟩ := h
  obtain ⟨c', rfl, hc'⟩ := h'
  refine ⟨c ++ c', (List.append_assoc _ _ _).symm, ?_⟩
  intro depth
  rw [scan_append, hc]
  exact hc' depth

theorem octet {q q' q'' : Quotation} {b : UInt8} {s s' : List UInt8} (hnext : q.next b = q')
    (hdepth : ∀ depth, q.depth depth b = depth) (h : Passes q' s q'' s') :
    Passes q (b :: s) q'' s' := by
  refine trans ⟨[b], rfl, ?_⟩ h
  intro depth
  rw [scan, hdepth, if_neg (Nat.succ_ne_zero _), hnext]
  rfl

theorem plain {b : UInt8} {s s' : List UInt8} (hb : isPlain b = true)
    (h : Passes .outside s .outside s') : Passes .outside (b :: s) .outside s' := by
  simp only [isPlain, Bool.and_eq_true, bne_iff_ne, Bool.not_eq_true'] at hb
  obtain ⟨⟨hquote, hopen⟩, hclose⟩ := hb
  refine octet ?_ ?_ h
  · simp [Quotation.next, hquote]
  · intro depth
    simp [Quotation.depth, hopen, hclose]

theorem bracket {b b' : UInt8} {s s' : List UInt8} (hb : isOpening b = true)
    (hb' : isClosing b' = true) (h : Passes .outside s .outside (b' :: s')) :
    Passes .outside (b :: s) .outside s' := by
  obtain ⟨c, rfl, hc⟩ := h
  refine ⟨b :: (c ++ [b']), by simp, ?_⟩
  have hquote : ∀ a, isOpening a = true ∨ isClosing a = true → (a == 0x22) = false := by
    intro a ha
    simp only [isOpening, isClosing, Bool.or_eq_true, beq_iff_eq] at ha
    obtain (rfl | rfl) | (rfl | rfl) := ha <;> rfl
  have hnot : isOpening b' = false := by
    simp only [isClosing, Bool.or_eq_true, beq_iff_eq] at hb'
    obtain rfl | rfl := hb' <;> rfl
  intro depth
  have hfirst : Quotation.outside.depth (depth + 1) b = depth + 1 + 1 := by
    simp [Quotation.depth, hb]
  have hlast : Quotation.outside.depth (depth + 1 + 1) b' = depth + 1 := by
    simp [Quotation.depth, hb', hnot]
  have hnext : ∀ a, isOpening a = true ∨ isClosing a = true →
      Quotation.outside.next a = .outside := by
    intro a ha
    simp [Quotation.next, hquote a ha]
  rw [scan, hfirst, if_neg (Nat.succ_ne_zero _), hnext b (.inl hb), scan_append, hc]
  dsimp only [Option.bind_some]
  rw [scan, hlast, if_neg (Nat.succ_ne_zero _), hnext b' (.inr hb')]
  rfl

theorem quoted {b : UInt8} {q : Quotation} {s s' : List UInt8}
    (hnext : Quotation.inside.next b = q) (h : Passes q s .outside s') :
    Passes .inside (b :: s) .outside s' :=
  octet hnext (fun _ => rfl) h

theorem afterBackslash {b : UInt8} {s s' : List UInt8} (h : Passes .inside s .outside s') :
    Passes .escaped (b :: s) .outside s' :=
  octet rfl (fun _ => rfl) h

end Passes

theorem isPlain_of_isSpace {b : UInt8} (h : isSpace b = true) : isPlain b = true := by
  simp only [isSpace, Bool.or_eq_true, beq_iff_eq] at h
  obtain ((rfl | rfl) | rfl) | rfl := h <;> rfl

theorem skipSpace_passes (s : List UInt8) : Passes .outside s .outside (skipSpace s) := by
  induction s with
  | nil => exact .refl _ _
  | cons b s ih =>
    rw [skipSpace, List.dropWhile_cons]
    split
    · rename_i hb
      exact .plain (isPlain_of_isSpace hb) ih
    · exact .refl _ _

theorem readName_passes {name s s' : List UInt8} (hname : name.all isPlain = true)
    (h : readName name s = .ok s') : Passes .outside s .outside s' := by
  induction name generalizing s with
  | nil =>
    cases h
    exact .refl _ _
  | cons c name ih =>
    rw [List.all_cons, Bool.and_eq_true] at hname
    cases s with
    | nil => cases h
    | cons b s =>
      rw [readName] at h
      split at h
      · rename_i hb
        rw [eq_of_beq hb]
        exact .plain hname.1 (ih hname.2 h)
      · cases h

section Numerals

open Numeral
open Binary64 (Magnitude)

theorem isPlain_of_isDigit {b : UInt8} (h : isDigit b = true) : isPlain b = true := by
  simp only [isDigit, Bool.and_eq_true, decide_eq_true_eq, UInt8.le_iff_toNat_le] at h
  have hne : ∀ n : UInt8, (n.toNat < 0x30 ∨ 0x39 < n.toNat) → b ≠ n := by
    rintro n hn rfl
    change 0x30 ≤ b.toNat ∧ b.toNat ≤ 0x39 at h
    omega
  simp [isPlain, isOpening, isClosing, hne]

theorem fitting_passes (n count : Nat) (s : List UInt8) :
    Passes .outside s .outside (fitting n count s).2.2 := by
  induction s generalizing n count with
  | nil => exact .refl _ _
  | cons b s ih =>
    rw [fitting]
    split
    · rename_i h
      rw [Bool.and_eq_true] at h
      exact .plain (isPlain_of_isDigit h.1) (ih _ _)
    · exact .refl _ _

theorem run_passes (count : Nat) (s : List UInt8) :
    Passes .outside s .outside (Numeral.run count s).2 := by
  induction s generalizing count with
  | nil => exact .refl _ _
  | cons b s ih =>
    rw [Numeral.run]
    split
    · rename_i hb
      exact .plain (isPlain_of_isDigit hb) (ih _)
    · exact .refl _ _

theorem exponentSign_passes (s : List UInt8) :
    Passes .outside s .outside (exponentSign s).2 := by
  unfold exponentSign
  split
  · exact .plain rfl (.refl _ _)
  · exact .plain rfl (.refl _ _)
  · exact .refl _ _

theorem exponentDigits_passes {e : Nat} {s s' : List UInt8}
    (h : exponentDigits e s = .error s' ∨ ∃ e', exponentDigits e s = .ok (e', s')) :
    Passes .outside s .outside s' := by
  induction s generalizing e with
  | nil =>
    obtain h | ⟨e', h⟩ := h <;> cases h
    exact .refl _ _
  | cons b s ih =>
    rw [exponentDigits] at h
    split at h
    · obtain h | ⟨e', h⟩ := h <;> cases h
      exact .refl _ _
    · rename_i hb
      refine .plain (isPlain_of_isDigit (by simpa using hb)) ?_
      split at h
      · obtain h | ⟨e', h⟩ := h <;> cases h
        exact .refl _ _
      · exact ih h

variable {digits : Nat} {shift : Int} {negative : Bool} {m : Magnitude} {n : Number}
  {s s' : List UInt8}

theorem exponent_passes (h : exponent digits shift s = .ok (m, s')) :
    Passes .outside s .outside s' := by
  refine .trans (exponentSign_passes s) ?_
  unfold exponent at h
  dsimp only at h
  generalize (exponentSign s).1 = sign at h
  generalize (exponentSign s).2 = t at h ⊢
  cases t with
  | nil => cases h
  | cons b t =>
    dsimp only at h
    split at h
    · cases h
    · rename_i hb
      refine .plain (isPlain_of_isDigit (by simpa using hb)) ?_
      split at h
      · rename_i hdigits
        rw [finish_rest h]
        exact exponentDigits_passes (.inr ⟨_, hdigits⟩)
      · rename_i hdigits
        split at h
        · cases h
        · cases h
          exact .trans (exponentDigits_passes (.inl hdigits)) (run_passes 0 _)

theorem isPlain_of_startsExponent {b : UInt8} (h : startsExponent b = true) :
    isPlain b = true := by
  simp only [startsExponent, Bool.or_eq_true, beq_iff_eq] at h
  obtain rfl | rfl := h <;> rfl

theorem exponentOrEnd_passes (h : exponentOrEnd digits shift s = .ok (m, s')) :
    Passes .outside s .outside s' := by
  cases s with
  | nil =>
    rw [finish_rest h]
    exact .refl _ _
  | cons b s =>
    rw [exponentOrEnd] at h
    split at h
    · rename_i hb
      exact .plain (isPlain_of_startsExponent hb) (exponent_passes h)
    · rw [finish_rest h]
      exact .refl _ _

theorem fraction_passes (h : fraction digits shift s = .ok (m, s')) :
    Passes .outside s .outside s' := by
  have hfitting := fitting_passes digits 0 s
  unfold fraction at h
  generalize fitting digits 0 s = p at h hfitting
  obtain ⟨digits, count, t⟩ := p
  refine .trans hfitting ?_
  dsimp only at h ⊢
  split at h
  · exact .trans (run_passes 0 t) (exponentOrEnd_passes h)
  · split at h
    · split at h <;> cases h
    · exact exponentOrEnd_passes h

theorem fractionOrEnd_passes (h : fractionOrEnd digits shift s = .ok (m, s')) :
    Passes .outside s .outside s' := by
  cases s with
  | nil =>
    rw [finish_rest h]
    exact .refl _ _
  | cons b s =>
    rw [fractionOrEnd] at h
    split at h
    · rename_i hb
      rw [eq_of_beq hb]
      exact .plain rfl (fraction_passes h)
    · split at h
      · rename_i hb
        exact .plain (isPlain_of_startsExponent hb) (exponent_passes h)
      · rw [finish_rest h]
        exact .refl _ _

theorem afterInteger_passes {k : Nat} (h : afterInteger negative k s = .ok (n, s')) :
    Passes .outside s .outside s' := by
  cases s with
  | nil =>
    rw [integer_rest h]
    exact .refl _ _
  | cons b s =>
    rw [afterInteger] at h
    split at h
    · rename_i hb
      rw [eq_of_beq hb]
      obtain ⟨m, h⟩ := float_ok h
      exact .plain rfl (fraction_passes h)
    · split at h
      · rename_i hb
        obtain ⟨m, h⟩ := float_ok h
        exact .plain (isPlain_of_startsExponent hb) (exponent_passes h)
      · rw [integer_rest h]
        exact .refl _ _

theorem numeral_passes (h : Numeral.read negative s = .ok (n, s')) :
    Passes .outside s .outside s' := by
  cases s with
  | nil => cases h
  | cons b s =>
    rw [Numeral.read] at h
    split at h
    · rename_i hb
      rw [eq_of_beq hb]
      split at h
      · cases h
      · exact .plain rfl (afterInteger_passes h)
    · split at h
      · cases h
      · rename_i hb
        refine .plain (isPlain_of_isDigit (by simpa using hb)) ?_
        have hfitting := fitting_passes (digit b) 1 s
        generalize fitting (digit b) 1 s = p at h hfitting
        obtain ⟨k, count, t⟩ := p
        refine .trans hfitting ?_
        dsimp only at h ⊢
        split at h
        · obtain ⟨m, h⟩ := float_ok h
          exact .trans (run_passes 0 t) (fractionOrEnd_passes h)
        · exact afterInteger_passes h

end Numerals

section Literals

open Literal

theorem hex_inside {b : UInt8} {n : Nat} (h : Text.Hex.value? b = some n) :
    Quotation.inside.next b = .inside := by
  have hne : b ≠ 0x5C ∧ b ≠ 0x22 := by
    constructor <;> rintro rfl <;> cases h
  simp [Quotation.next, hne]

theorem Passes.unit {a b c d : UInt8} {n : Nat} {s s' : List UInt8}
    (hunit : unit? a b c d = some n) (h : Passes .inside s .outside s') :
    Passes .inside (a :: b :: c :: d :: s) .outside s' := by
  simp only [unit?, Option.bind_eq_bind, Option.bind_eq_some_iff] at hunit
  obtain ⟨_, ha, _, hb, _, hc, _, hd, -⟩ := hunit
  exact .quoted (hex_inside ha) (.quoted (hex_inside hb)
    (.quoted (hex_inside hc) (.quoted (hex_inside hd) h)))

theorem Passes.escape {b e : UInt8} {s s' : List UInt8} (hb : ¬(b != 0x5C) = true)
    (h : Passes .inside s .outside s') : Passes .inside (b :: e :: s) .outside s' := by
  obtain rfl : b = 0x5C := by simpa using hb
  exact .quoted rfl (.afterBackslash h)

theorem octets_passes {done spelled s s' : List UInt8}
    (h : octets done s = .ok (spelled, s')) : Passes .inside s .outside s' := by
  fun_induction octets done s <;> try (cases h; done)
  case case2 b s hb =>
    cases h
    rw [eq_of_beq hb]
    exact .quoted rfl (.refl _ _)
  case case4 b s hquote _ hescape ih =>
    refine .quoted ?_ (ih h)
    simp only [bne_iff_ne, beq_iff_eq] at hquote hescape
    simp [Quotation.next, hquote, hescape]
  case case6 hb e s o _ ih => exact .escape hb (ih h)
  case case10 hb e _ _ _ _ _ _ _ _ hunit _ _ ih => exact .escape hb (.unit hunit (ih h))
  case case16 hb e _ _ _ _ _ _ _ hunit _ _ _ hb' _ _ _ _ _ _ _ _ hunit' _ ih =>
    exact .escape hb (.unit hunit (.escape hb' (.unit hunit' (ih h))))

theorem literal_passes {text : String} {s s' : List UInt8}
    (h : Literal.read s = .ok (text, s')) : Passes .inside s .outside s' := by
  simp only [Literal.read, bind, Except.bind] at h
  split at h
  · cases h
  · rename_i p hoctets
    have hpasses := octets_passes hoctets
    split at h
    · cases h
      exact hpasses
    · cases h

end Literals

section Walks

variable {σ : Type} {fuel : Nat} {first : Bool} {acc acc' : σ} {s s' : List UInt8}

theorem skipSpace_eq_passes {t : List UInt8} (h : skipSpace s = t) :
    Passes .outside s .outside t :=
  h ▸ skipSpace_passes s

theorem front_passes {t : List UInt8} (h : Front first s t) : Passes .outside s .outside t := by
  cases first with
  | true => exact skipSpace_eq_passes h
  | false =>
    obtain ⟨u, hcomma, hu⟩ := h
    exact .trans (skipSpace_eq_passes hcomma) (.plain rfl (skipSpace_eq_passes hu))

theorem items_passes {item : σ → List UInt8 → Except Fault (σ × List UInt8)}
    (step : ∀ {acc s acc' s'}, item acc s = .ok (acc', s') → Passes .outside s .outside s')
    (h : items item fuel first acc s = .ok (acc', s')) :
    Passes .outside s .outside (0x5D :: s') := by
  induction fuel generalizing first acc s with
  | zero => cases h
  | succ fuel ih =>
    obtain ⟨hskip, -⟩ | ⟨t, acc₁, s₁, hfront, hitem, hrest⟩ := items_ok h
    · exact skipSpace_eq_passes hskip
    · exact .trans (front_passes hfront) (.trans (step hitem) (ih hrest))

theorem members_passes {member : String → σ → List UInt8 → Except Fault (σ × List UInt8)}
    (step : ∀ {key acc s acc' s'}, member key acc s = .ok (acc', s') →
      Passes .outside s .outside s')
    (h : members member fuel first acc s = .ok (acc', s')) :
    Passes .outside s .outside (0x7D :: s') := by
  induction fuel generalizing first acc s with
  | zero => cases h
  | succ fuel ih =>
    obtain ⟨hskip, -⟩ | ⟨t, key, u, acc₁, s₁, hfront, hkey, hmember, hrest⟩ := members_ok h
    · exact skipSpace_eq_passes hskip
    · have hliteral : Passes .outside (0x22 :: t) .outside u :=
        .octet rfl (fun _ => rfl) (literal_passes hkey)
      exact .trans (front_passes hfront) (.trans hliteral (.trans (step hmember) (ih hrest)))

end Walks

section Values

variable {fuel depth : Nat} {v : Value} {s s' : List UInt8}

theorem readColon_passes (h : readColon s = .ok s') : Passes .outside s .outside s' := by
  rw [readColon] at h
  split at h
  · cases h
  · rename_i b t hskip
    refine .trans (skipSpace_eq_passes hskip) ?_
    split at h
    · rename_i hb
      cases h
      rw [eq_of_beq hb]
      exact .plain rfl (.refl _ _)
    · cases h

theorem name_passes {b : UInt8} {name t : List UInt8} {w : Value} (hb : isPlain b = true)
    (hname : name.all isPlain = true)
    (h : (readName name t).map (fun s => (w, s)) = .ok (v, s')) :
    Passes .outside (b :: t) .outside s' :=
  .plain hb (readName_passes hname (name_ok h).1)

theorem member_passes (step : ∀ {s v s'}, readValue fuel depth s = .ok (v, s') →
      Passes .outside s .outside s') {key : String} {acc acc' : Members}
    (h : (do
      let s ← readColon s
      let (v, s) ← readValue fuel depth s
      return (Members.insert key v acc, s)) = Except.ok (acc', s')) :
    Passes .outside s .outside s' := by
  obtain ⟨t, v, hcolon, hv, -⟩ := member_ok h
  exact .trans (readColon_passes hcolon) (step hv)

theorem readValue_passes (h : readValue fuel depth s = .ok (v, s')) :
    Passes .outside s .outside s' := by
  fun_induction readValue fuel depth s generalizing v s' with
  | case1 => cases h
  | case2 depth s b t hskip hb =>
    rw [eq_of_beq hb] at hskip
    exact .trans (skipSpace_eq_passes hskip) (name_passes rfl rfl h)
  | case3 depth s b t hskip _ hb =>
    rw [eq_of_beq hb] at hskip
    exact .trans (skipSpace_eq_passes hskip) (name_passes rfl rfl h)
  | case4 depth s b t hskip _ _ hb =>
    rw [eq_of_beq hb] at hskip
    exact .trans (skipSpace_eq_passes hskip) (name_passes rfl rfl h)
  | case5 depth s b t hskip _ _ _ hb =>
    rw [eq_of_beq hb] at hskip
    obtain ⟨n, h, -⟩ := map_ok h
    exact .trans (skipSpace_eq_passes hskip) (.plain rfl (numeral_passes h))
  | case6 depth s b t hskip _ _ _ _ _ =>
    obtain ⟨n, h, -⟩ := map_ok h
    exact .trans (skipSpace_eq_passes hskip) (numeral_passes h)
  | case7 depth s b t hskip _ _ _ _ _ hb =>
    rw [eq_of_beq hb] at hskip
    obtain ⟨text, h, -⟩ := map_ok h
    exact .trans (skipSpace_eq_passes hskip) (.octet rfl (fun _ => rfl) (literal_passes h))
  | case8 => cases h
  | case9 s b t hskip _ _ _ _ _ _ hb depth ih =>
    rw [eq_of_beq hb] at hskip
    obtain ⟨vs, h, -⟩ := map_ok (f := fun vs : List Value => Value.arr vs.reverse) h
    refine .trans (skipSpace_eq_passes hskip) (.bracket rfl rfl (items_passes ?_ h))
    intro acc s acc' s' hitem
    obtain ⟨v, hv, -⟩ := item_ok hitem
    exact ih s hv
  | case10 => cases h
  | case11 s b t hskip _ _ _ _ _ _ _ hb depth ih =>
    rw [eq_of_beq hb] at hskip
    obtain ⟨ms, h, -⟩ := map_ok h
    exact .trans (skipSpace_eq_passes hskip) (.bracket rfl rfl
      (members_passes (member_passes (fun {s _ _} hv => ih s hv)) h))
  | case12 => cases h

/-- The octets of an accepted object that starts with its bracket: the brackets inside are balanced,
and after the closing bracket there is only white space. -/
theorem parseObject_passes {t : List UInt8} {ms : Members}
    (h : parseObject (0x7B :: t) = .ok ms) :
    ∃ space, Passes .outside t .outside (0x7D :: space) ∧ skipSpace space = [] := by
  obtain ⟨_, space, hskip, hread, hspace⟩ := parseObject_ok h
  obtain rfl : t = _ := (List.cons.inj hskip).2
  rw [maxDepth, readValue_obj] at hread
  obtain ⟨_, hmembers, -⟩ := map_ok hread
  exact ⟨space, members_passes (member_passes readValue_passes) hmembers, hspace⟩

end Values

end Accession.Batch
