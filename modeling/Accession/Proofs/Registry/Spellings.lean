import Accession.Proofs.Registry.Registration
import Accession.Proofs.Registry.Uris
set_option autoImplicit false

namespace Accession.Text.Path

theorem join_cons (part : List Char) {parts : List (List Char)} (h : parts ≠ []) :
    join (part :: parts) = part ++ '/' :: join parts := by
  cases parts with
  | nil => exact absurd rfl h
  | cons other rest => simp [join, List.intercalate]

theorem join_concat {parts : List (List Char)} (h : parts ≠ []) (last : List Char) :
    join (parts ++ [last]) = join parts ++ '/' :: last := by
  induction parts with
  | nil => exact absurd rfl h
  | cons part rest ih =>
    by_cases hrest : rest = []
    · subst hrest
      simp [join, List.intercalate]
    · have happend : rest ++ [last] ≠ [] := by simp
      rw [List.cons_append, join_cons part happend, ih hrest, join_cons part hrest,
        List.append_assoc, List.cons_append]

end Accession.Text.Path

namespace Accession.Registry

open Text.Integer (write Decorated Bare)
open Text.Path (split join)

theorem spelled_inj (t : RecordType) {repository id repository' id' : List Char}
    (hrepository : t.scope = .repository → '/' ∉ repository) (hid : '/' ∉ id)
    (hrepository' : t.scope = .repository → '/' ∉ repository') (hid' : '/' ∉ id') :
    spelled t repository id = spelled t repository' id' ↔
      front t repository = front t repository' ∧ id = id' := by
  constructor
  · intro h
    obtain ⟨path, hpath, hparts⟩ := split_spelled t hrepository hid
    obtain ⟨path', hpath', hparts'⟩ := split_spelled t hrepository' hid'
    rw [hpath, hpath'] at h
    obtain rfl := (List.cons.inj h).2
    obtain ⟨hfront, hlast⟩ := List.append_inj' (hparts.symm.trans hparts') rfl
    exact ⟨List.append_cancel_right hfront, (List.cons.inj hlast).1⟩
  · rintro ⟨hfront, rfl⟩
    rw [front, front] at hfront
    rw [spelled, spelled]
    cases hscope : t.scope with
    | repository =>
      rw [hscope] at hfront
      simp only [List.cons.injEq, and_true, true_and] at hfront
      rw [hfront]
    | global => rfl

section

variable {registry : Registry} {uri : String} {r : Reference}

theorem positive?_eq_some {part : List Char} {n : Int} (h : positive? part = some n) :
    0 < n ∧ Decorated n part := by
  obtain ⟨hread, hpos⟩ := Option.filter_eq_some_iff.1 h
  have hn : 0 < n := of_decide_eq_true hpos
  obtain ⟨hread, -⟩ := Option.filter_eq_some_iff.1 hread
  rw [Text.Integer.read?_eq_some_iff hn, String.toList_ofList] at hread
  exact ⟨hn, hread⟩

theorem place?_eq_some {parts : List (List Char)} {repository : Option Int} {segment : String}
    (h : place? parts = some (repository, segment)) :
    parts ≠ [] ∧
      ((repository = none ∧ parts.head? ≠ some "repositories".toList ∧
          join parts = segment.toList) ∨
        ∃ n part, repository = some n ∧ 0 < n ∧ Decorated n part ∧
          join parts = "repositories".toList ++ '/' :: (part ++ '/' :: segment.toList)) := by
  unfold place? at h
  split at h
  · cases h
  · rename_i first rest
    refine ⟨List.cons_ne_nil _ _, ?_⟩
    split at h
    · rename_i hword
      obtain rfl : first = "repositories".toList := eq_of_beq hword
      split at h
      · rename_i part segment' segments
        obtain ⟨n, hn, hplace⟩ := Option.map_eq_some_iff.1 h
        cases hplace
        obtain ⟨hpos, hpart⟩ := positive?_eq_some hn
        refine .inr ⟨n, part, rfl, hpos, hpart, ?_⟩
        have htext : (String.ofList (join (segment' :: segments))).toList
            = join (segment' :: segments) := String.toList_ofList
        rw [htext, Text.Path.join_cons _ (List.cons_ne_nil _ _),
          Text.Path.join_cons _ (List.cons_ne_nil _ _)]
      · cases h
    · rename_i hword
      cases h
      refine .inl ⟨rfl, ?_, ?_⟩
      · intro hhead
        exact hword (beq_iff_eq.2 (Option.some.inj hhead))
      · rw [String.toList_ofList]

/-- What reads as a reference: a uri of the type that it names, with some spelling of its numbers. -/
structure Spells (t : RecordType) (r : Reference) (repository id : List Char) (uri : String) :
    Prop where
  text : uri.toList = spelled t repository id
  id : 0 < r.id ∧ Decorated r.id id
  repository : ∀ n, r.repository = some n → 0 < n ∧ Decorated n repository
  scope : t.scope.agrees r.repository = true
  word : t.scope = .global → (split (uri.toList.drop 1)).head? ≠ some "repositories".toList

theorem parseReference?_spells (h : registry.parseReference? uri = some r) :
    ∃ t ∈ registry.types, t.name = r.typeName ∧ ∃ repository id, Spells t r repository id uri := by
  unfold parseReference? at h
  split at h
  · rename_i path huri
    simp only [bind, Option.bind_eq_some_iff] at h
    obtain ⟨last, hlast, id, hid, ⟨repository, segment⟩, hplace, t, ht, h⟩ := h
    obtain rfl := Option.some.inj h
    obtain ⟨hpos, hdecorated⟩ := positive?_eq_some hid
    have hfound := List.find?_some ht
    simp only [Bool.and_eq_true, beq_iff_eq] at hfound
    obtain ⟨rfl, hagrees⟩ := hfound
    obtain ⟨hsome, hparts⟩ := place?_eq_some hplace
    -- the id is the last part, and what is in front of it is put together again
    have hsplit : split path = (split path).dropLast ++ [last] :=
      (List.dropLast_append_getLast? last hlast).symm
    have hpath : path = join (split path).dropLast ++ '/' :: last := by
      rw [← Text.Path.join_concat hsome, ← hsplit, Text.Path.join_split]
    refine ⟨t, List.mem_of_find?_eq_some ht, rfl, ?_⟩
    obtain ⟨rfl, hhead, hjoin⟩ | ⟨n, part, rfl, hn, hpart, hjoin⟩ := hparts
    · have hscope : t.scope = .global := by
        cases hscope : t.scope with
        | global => rfl
        | repository =>
          rw [hscope] at hagrees
          cases hagrees
      refine ⟨[], last, ?_, ⟨hpos, hdecorated⟩, nofun, hagrees, ?_⟩
      · rw [huri, hpath, hjoin, spelled, hscope]
      · intro _
        rw [huri, List.drop_succ_cons, List.drop_zero, hsplit,
          List.head?_append_of_ne_nil _ hsome]
        exact hhead
    · have hscope : t.scope = .repository := by
        cases hscope : t.scope with
        | repository => rfl
        | global =>
          rw [hscope] at hagrees
          cases hagrees
      refine ⟨part, last, ?_, ⟨hpos, hdecorated⟩, ?_, hagrees, ?_⟩
      · rw [huri, hpath, hjoin, spelled, hscope]
        simp
      · intro m hm
        cases hm
        exact ⟨hn, hpart⟩
      · intro hglobal
        rw [hscope] at hglobal
        cases hglobal
  · cases h

/-- The parts of a uri that are numbers: the last one, and the one after the word in front. -/
def numerals (uri : String) : List (List Char) :=
  let parts := split (uri.toList.drop 1)
  (if parts.head? = some "repositories".toList then (parts.drop 1).take 1 else [])
    ++ parts.getLast?.toList

namespace Spells

variable {t : RecordType} {repository id : List Char} (h : Spells t r repository id uri)

include h

theorem shown : ∃ n, shownRepository t n = r.repository := by
  have hagrees := h.scope
  simp only [shownRepository]
  cases hscope : t.scope with
  | repository =>
    rw [hscope] at hagrees
    obtain ⟨n, hn⟩ := Option.isSome_iff_exists.1 hagrees
    exact ⟨n, hn.symm⟩
  | global =>
    rw [hscope] at hagrees
    exact ⟨0, (Option.isNone_iff_eq_none.1 hagrees).symm⟩

theorem slash_not_mem : t.scope = .repository → '/' ∉ repository := by
  intro hscope
  obtain ⟨n, hn⟩ := h.shown
  rw [shownRepository, hscope] at hn
  exact (h.repository n hn.symm).2.slash_not_mem

theorem numerals_eq : numerals uri = (front t repository).drop 1 ++ [id] := by
  obtain ⟨path, hpath, hparts⟩ := split_spelled t h.slash_not_mem h.id.2.slash_not_mem
  have hword := h.word
  rw [numerals]
  rw [h.text, hpath, List.drop_succ_cons, List.drop_zero, hparts] at hword ⊢
  rw [List.getLast?_concat]
  rw [front] at hword ⊢
  cases hscope : t.scope with
  | repository => simp
  | global =>
    rw [hscope] at hword
    rw [if_neg (hword rfl)]
    rfl

theorem eq_uriFor_iff {n : Int} (hn : shownRepository t n = r.repository) :
    uri = uriFor t n r.id ↔ ∀ part ∈ numerals uri, Bare part := by
  have hwritten := Text.Integer.slash_not_mem_write
  rw [← String.toList_inj, toList_uriFor, h.text,
    spelled_inj t h.slash_not_mem h.id.2.slash_not_mem (fun _ => hwritten n) (hwritten r.id),
    h.id.2.eq_write_iff h.id.1, h.numerals_eq, front, front]
  rw [shownRepository] at hn
  cases hscope : t.scope with
  | repository =>
    rw [hscope] at hn
    obtain ⟨hpos, hrepository⟩ := h.repository n hn.symm
    simp [hrepository.eq_write_iff hpos]
  | global => simp

end Spells

end

end Accession.Registry
