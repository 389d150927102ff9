import Accession.Proofs.Text.Integer
import Accession.Registry.Reference
import Accession.Registry.Standard
set_option autoImplicit false

namespace Accession.Text.Path

theorem split_of_not_mem {part : List Char} (h : '/' ∉ part) : split part = [part] := by
  induction part with
  | nil => rfl
  | cons c cs ih =>
    simp only [List.mem_cons, not_or] at h
    simp [split, Ne.symm h.1, ih h.2]

theorem split_append (cs rest : List Char) : split (cs ++ '/' :: rest) = split cs ++ split rest := by
  induction cs with
  | nil => simp [split]
  | cons c cs ih =>
    by_cases h : c = '/'
    · simp [split, h, ih]
    · cases hs : split cs with
      | nil => exact absurd hs (split_ne_nil cs)
      | cons part parts => simp [split, h, ih, hs]

end Accession.Text.Path

namespace Accession.Registry

open Text.Integer (write)
open Text.Path (split)

def isId (n : Int) : Bool :=
  0 < n && n ≤ Text.Integer.max64

theorem positive?_write (n : Int) :
    positive? (write n).toList = if isId n then some n else none := by
  rw [positive?, String.ofList_toList, Text.Integer.read64?, Text.Integer.readWithin?,
    Text.Integer.read?_write]
  have hmin : Text.Integer.min64 ≤ 0 := by decide
  rw [Option.filter_filter, Option.filter_some]
  congr 1
  simp only [isId, Bool.and_eq_true, decide_eq_true_eq, eq_iff_iff]
  omega

theorem place?_repository (repository : Int) (segment : List Char) :
    place? ("repositories".toList :: (write repository).toList :: Text.Path.split segment)
      = if isId repository then some (some repository, String.ofList segment) else none := by
  have hjoin := Text.Path.join_split segment
  cases hs : Text.Path.split segment with
  | nil => exact absurd hs (Text.Path.split_ne_nil segment)
  | cons first rest =>
    rw [hs] at hjoin
    simp only [place?, beq_self_eq_true, if_true, positive?_write, hjoin]
    split <;> rfl

theorem place?_global {segment : List Char}
    (apart : (Text.Path.split segment).head? ≠ some "repositories".toList) :
    place? (Text.Path.split segment) = some (none, String.ofList segment) := by
  have hjoin := Text.Path.join_split segment
  cases hs : Text.Path.split segment with
  | nil => exact absurd hs (Text.Path.split_ne_nil segment)
  | cons first rest =>
    rw [hs] at hjoin apart
    have hne : first ≠ "repositories".toList := fun h => apart (congrArg some h)
    simp only [place?, beq_eq_false_iff_ne.2 hne, Bool.false_eq_true, if_false, hjoin]

/-- The repository that a uri of a type in a repository shows. -/
def shownRepository (t : RecordType) (repository : Int) : Option Int :=
  match t.scope with
  | .repository => some repository
  | .global => none

/-- A uri with its numbers as they stand there. -/
def spelled (t : RecordType) (repository id : List Char) : List Char :=
  match t.scope with
  | .repository =>
    '/' :: ("repositories".toList ++ '/' :: (repository ++ '/' ::
      (t.uriSegment.toList ++ '/' :: id)))
  | .global => '/' :: (t.uriSegment.toList ++ '/' :: id)

theorem toList_uriFor (t : RecordType) (repository id : Int) :
    (uriFor t repository id).toList = spelled t (write repository).toList (write id).toList := by
  rw [uriFor, spelled]
  cases t.scope <;> simp [String.toList_append]

def front (t : RecordType) (repository : List Char) : List (List Char) :=
  match t.scope with
  | .repository => ["repositories".toList, repository]
  | .global => []

section

variable (t : RecordType) {repository id : List Char}
  (hrepository : t.scope = .repository → '/' ∉ repository) (hid : '/' ∉ id)

include hrepository hid

theorem split_spelled :
    ∃ path, spelled t repository id = '/' :: path ∧
      split path = front t repository ++ split t.uriSegment.toList ++ [id] := by
  have hword : split "repositories".toList = ["repositories".toList] := by decide
  rw [spelled, front]
  cases hscope : t.scope with
  | repository =>
    refine ⟨_, rfl, ?_⟩
    rw [Text.Path.split_append, Text.Path.split_append, Text.Path.split_append, hword,
      Text.Path.split_of_not_mem (hrepository hscope), Text.Path.split_of_not_mem hid]
    rfl
  | global =>
    refine ⟨_, rfl, ?_⟩
    rw [Text.Path.split_append, Text.Path.split_of_not_mem hid]
    rfl

end

theorem parseReference?_of_split (registry : Registry) {uri : String} {path : List Char}
    {parts : List (List Char)} {id : Int} (hpath : uri.toList = '/' :: path)
    (hparts : Text.Path.split path = parts ++ [(write id).toList]) :
    registry.parseReference? uri =
      if isId id then
        (place? parts).bind (fun place =>
          (registry.types.find? (fun u => u.uriSegment == place.2 && u.scope.agrees place.1)).map
            (fun u => ⟨u.name, id, place.1⟩))
      else none := by
  rw [parseReference?, hpath]
  simp only [hparts, List.getLast?_append, List.getLast?_singleton, Option.some_or,
    List.dropLast_concat, Option.bind_eq_bind, Option.bind_some, positive?_write]
  split
  · simp only [Option.bind_some]
    rcases place? parts with _ | ⟨repository, segment⟩
    · rfl
    · simp only [Option.bind_some, Option.map_eq_bind]
      rfl
  · rfl

/-- What the uri of a record reads back as. Uris of types in a repository start with the word
"repositories", so a segment of a global type must not. -/
theorem parseReference?_uriFor (registry : Registry) (t : RecordType) (repository id : Int)
    (apart : t.scope = .global →
      (Text.Path.split t.uriSegment.toList).head? ≠ some "repositories".toList) :
    registry.parseReference? (uriFor t repository id) =
      if isId id = true ∧ (t.scope = .repository → isId repository = true) then
        (registry.types.find? (fun u => u.uriSegment == t.uriSegment
            && u.scope.agrees (shownRepository t repository))).map
          (fun u => ⟨u.name, id, shownRepository t repository⟩)
      else none := by
  have hwritten := Text.Integer.slash_not_mem_write
  obtain ⟨path, hpath, hparts⟩ :=
    split_spelled t (fun _ => hwritten repository) (hwritten id)
  rw [parseReference?_of_split registry ((toList_uriFor t repository id).trans hpath) hparts, front]
  cases hscope : t.scope with
  | repository =>
    rw [List.cons_append, List.cons_append, List.nil_append, place?_repository]
    by_cases h : isId id = true <;> by_cases hr : isId repository = true <;>
      simp [h, hr, shownRepository, hscope]
  | global =>
    rw [List.nil_append, place?_global (apart hscope)]
    by_cases h : isId id = true <;> simp [h, shownRepository, hscope]

theorem find?_shown {types : List RecordType}
    (apart : ∀ t ∈ types, ∀ u ∈ types, t.scope = u.scope → t.uriSegment = u.uriSegment → t = u)
    {t : RecordType} (registered : t ∈ types) (repository : Int) :
    types.find? (fun u => u.uriSegment == t.uriSegment
      && u.scope.agrees (shownRepository t repository)) = some t := by
  have hagrees : ∀ u : RecordType,
      u.scope.agrees (shownRepository t repository) = true ↔ t.scope = u.scope := by
    intro u
    unfold shownRepository
    cases t.scope <;> cases u.scope <;> simp [Scope.agrees]
  cases hfound : types.find? (fun u => u.uriSegment == t.uriSegment
      && u.scope.agrees (shownRepository t repository)) with
  | none =>
    have hnot := List.find?_eq_none.1 hfound t registered
    simp [(hagrees t).2 rfl] at hnot
  | some u =>
    have hu := List.find?_some hfound
    simp only [Bool.and_eq_true, beq_iff_eq, hagrees] at hu
    rw [apart t registered u (List.mem_of_find?_eq_some hfound) hu.2 hu.1.symm]

theorem parseReference?_of_apart {registry : Registry}
    (apart : ∀ t ∈ registry.types, ∀ u ∈ registry.types,
      t.scope = u.scope → t.uriSegment = u.uriSegment → t = u)
    (unprefixed : ∀ t ∈ registry.types, t.scope = .global →
      (Text.Path.split t.uriSegment.toList).head? ≠ some "repositories".toList)
    {t : RecordType} (registered : t ∈ registry.types) (repository id : Int) :
    registry.parseReference? (uriFor t repository id) =
      if isId id = true ∧ (t.scope = .repository → isId repository = true) then
        some ⟨t.name, id, shownRepository t repository⟩
      else none := by
  rw [parseReference?_uriFor registry t repository id (unprefixed t registered),
    find?_shown apart registered]
  rfl

/-- A uri of a standard type names the record that it was made for, or nothing at all. -/
theorem parseReference?_standard {t : RecordType} (ht : t ∈ standard.types) (repository id : Int) :
    standard.parseReference? (uriFor t repository id) =
      if isId id = true ∧ (t.scope = .repository → isId repository = true) then
        some ⟨t.name, id, shownRepository t repository⟩
      else none :=
  parseReference?_of_apart (by decide) (by decide) ht repository id

/-- For every registry in which no two types have one scope and one segment, and in which no segment
of a global type begins with the word that the uris of repositories begin with: the uri of a record
of any registered type reads back as the type, the id, and the repository exactly if the type has
one. Segments may be of several parts or empty and may hold the words of other segments; ids are
those of 64 bits above zero. -/
theorem uriFor_reads_back (registry : Registry)
    (apart : ∀ t ∈ registry.types, ∀ u ∈ registry.types,
      t.scope = u.scope → t.uriSegment = u.uriSegment → t = u)
    (unprefixed : ∀ t ∈ registry.types, t.scope = .global →
      (Text.Path.split t.uriSegment.toList).head? ≠ some "repositories".toList)
    (t : RecordType) (registered : t ∈ registry.types) (repository id : Int)
    (hrepository : 0 < repository ∧ repository ≤ Text.Integer.max64)
    (hid : 0 < id ∧ id ≤ Text.Integer.max64) :
    registry.parseReference? (uriFor t repository id) =
      some ⟨t.name, id, match t.scope with
        | .repository => some repository
        | .global => none⟩ := by
  have hids : isId id = true ∧ (t.scope = .repository → isId repository = true) := by
    simp [isId, hid, hrepository]
  rw [parseReference?_of_apart apart unprefixed registered, if_pos hids]
  rfl

def entangled : Registry :=
  ⟨[{ name := "bare", table := "bare", uriSegment := "", scope := .repository },
    { name := "item", table := "items", uriSegment := "items", scope := .repository },
    { name := "copy", table := "copies", uriSegment := "repositories/2/items"
      scope := .repository },
    { name := "shared", table := "shared", uriSegment := "items", scope := .global },
    { name := "void", table := "voids", uriSegment := "", scope := .global },
    { name := "index", table := "indexes", uriSegment := "items//repositories/2"
      scope := .global }], "item"⟩

theorem uriFor_reads_back_entangled :
    (∀ t ∈ entangled.types, ∀ u ∈ entangled.types,
      t.scope = u.scope → t.uriSegment = u.uriSegment → t = u) ∧
    (∀ t ∈ entangled.types, t.scope = .global →
      (Text.Path.split t.uriSegment.toList).head? ≠ some "repositories".toList) ∧
    entangled.types.map (fun t => uriFor t 2 Text.Integer.max64)
      = ["/repositories/2//9223372036854775807", "/repositories/2/items/9223372036854775807",
        "/repositories/2/repositories/2/items/9223372036854775807",
        "/items/9223372036854775807", "//9223372036854775807",
        "/items//repositories/2/9223372036854775807"] ∧
    entangled.types.map (fun t => entangled.parseReference? (uriFor t 2 Text.Integer.max64))
      = entangled.types.map (fun t => some ⟨t.name, Text.Integer.max64, match t.scope with
        | .repository => some 2
        | .global => none⟩) := by
  have apart : ∀ t ∈ entangled.types, ∀ u ∈ entangled.types,
      t.scope = u.scope → t.uriSegment = u.uriSegment → t = u := by decide
  have unprefixed : ∀ t ∈ entangled.types, t.scope = .global →
      (Text.Path.split t.uriSegment.toList).head? ≠ some "repositories".toList := by decide
  refine ⟨apart, unprefixed, by decide +kernel, ?_⟩
  apply List.map_congr_left
  intro t registered
  exact uriFor_reads_back entangled apart unprefixed t registered 2 Text.Integer.max64
    (by decide) (by decide)

end Accession.Registry
