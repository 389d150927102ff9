import Accession.Proofs.Batch.Integrity
import Accession.Proofs.Registry.Spellings
set_option autoImplicit false

namespace Accession

structure Reference.Of (r : Reference) (t : Registry.RecordType) (row : Store.Row) : Prop where
  type : r.typeName = t.name
  id : r.id = row.id
  repository : r.repository = none ∨ r.repository = row.repository

namespace Registry

open Text.Integer (Bare)

section

variable {registry : Registry} {uri uri' : String} {r r' : Reference}

theorem parseReference?_uriFor_iff (names : (registry.types.map RecordType.name).Nodup)
    (h : registry.parseReference? uri = some r) :
    ∃ t n, registry.get? r.typeName = some t ∧ shownRepository t n = r.repository ∧
      (uri = uriFor t n r.id ↔ ∀ part ∈ numerals uri, Bare part) := by
  obtain ⟨t, ht, hname, repository, id, hspells⟩ := parseReference?_spells h
  have hget : registry.get? r.typeName = some t := hname ▸ get?_of_mem names ht
  obtain ⟨n, hn⟩ := hspells.shown
  exact ⟨t, n, hget, hn, hspells.eq_uriFor_iff hn⟩

theorem uriFor_congr {t : RecordType} {n m : Int} (h : shownRepository t n = shownRepository t m)
    (id : Int) : uriFor t n id = uriFor t m id := by
  rw [shownRepository, shownRepository] at h
  rw [uriFor, uriFor]
  cases hscope : t.scope with
  | repository =>
    rw [hscope] at h
    rw [Option.some.inj h]
  | global => rfl

theorem eq_of_bare (names : (registry.types.map RecordType.name).Nodup)
    (h : registry.parseReference? uri = some r) (h' : registry.parseReference? uri' = some r')
    {t : RecordType} {row : Store.Row} (of : r.Of t row) (of' : r'.Of t row)
    (bare : ∀ part ∈ numerals uri, Bare part) (bare' : ∀ part ∈ numerals uri', Bare part) :
    uri = uri' := by
  obtain ⟨u, n, hu, hn, huri⟩ := parseReference?_uriFor_iff names h
  obtain ⟨u', n', hu', hn', huri'⟩ := parseReference?_uriFor_iff names h'
  rw [of.type] at hu
  rw [of'.type] at hu'
  obtain rfl : u = u' := Option.some.inj (hu.symm.trans hu')
  have hsame : shownRepository u n = shownRepository u n' := by
    have hrepository := of.repository
    have hrepository' := of'.repository
    rw [← hn, shownRepository] at hrepository
    rw [← hn', shownRepository] at hrepository'
    rw [shownRepository, shownRepository]
    cases hscope : u.scope with
    | repository =>
      rw [hscope] at hrepository hrepository'
      exact (hrepository.resolve_left (Option.some_ne_none n)).trans
        (hrepository'.resolve_left (Option.some_ne_none n')).symm
    | global => rfl
  rw [huri.2 bare, huri'.2 bare', of.id, of'.id, uriFor_congr hsame]

end

end Registry

namespace Batch

open Json (Value)
open Registry (RecordType ofTypes numerals refValue? shownRepository standard uriFor)
open Text.Integer (Bare)

/-- For every registry and every text that reads as a reference: the text is the uri that is made
for the record that it names exactly if no number in it has a plus sign or zeros in front. Whatever
the storage, a reference that was resolved is stored as the uri of a record of the batch, or it is
stored as it was spelled, and then it is such a uri if and only if its numbers are bare. Two
references that name one row of one type, with bare numbers, are the same text. -/
theorem canonical_iff_bare (defaultName : String) (types : List RecordType) :
    let registry := ofTypes defaultName types
    (∀ uri r, registry.parseReference? uri = some r →
      ∃ t n, registry.get? r.typeName = some t ∧ shownRepository t n = r.repository ∧
        (uri = uriFor t n r.id ↔ ∀ part ∈ numerals uri, Bare part)) ∧
    (∀ {ω : Type} (storage : Storage ω) (repository : Int) created site v v' w w',
      rewrite ⟨registry, repository⟩ storage created site v w = (.ok v', w') →
      ∃ reference uri, refValue? v = some reference ∧ refValue? v' = some uri ∧
        ((∃ record, created.get? reference = some record ∧ uri = record.uri) ∨
          (created.get? reference = none ∧ uri = reference ∧
            ∃ r t n, registry.parseReference? uri = some r ∧
              registry.get? r.typeName = some t ∧ shownRepository t n = r.repository ∧
              (uri = uriFor t n r.id ↔ ∀ part ∈ numerals uri, Bare part)))) ∧
    (∀ uri uri' r r' t row, registry.parseReference? uri = some r →
      registry.parseReference? uri' = some r' → r.Of t row → r'.Of t row →
      (∀ part ∈ numerals uri, Bare part) → (∀ part ∈ numerals uri', Bare part) → uri = uri') := by
  intro registry
  have names := Registry.names_nodup defaultName types
  refine ⟨fun uri r h => Registry.parseReference?_uriFor_iff names h, ?_,
    fun uri uri' r r' t row h h' of of' => Registry.eq_of_bare names h h' of of'⟩
  intro ω storage repository created site v v' w w' h
  obtain ⟨reference, uri, hreference, huri, hresolve, -⟩ := rewrite_resolves h
  refine ⟨reference, uri, hreference, huri, ?_⟩
  obtain ⟨r, hr, -, ⟨record, hget, hrecord, -⟩ | ⟨hget, hsame, -⟩⟩ := resolve_found hresolve
  · exact .inl ⟨record, hget, hrecord⟩
  · obtain ⟨t, n, ht, hn, hbare⟩ := Registry.parseReference?_uriFor_iff names hr
    exact .inr ⟨hget, hsame, r, t, n, hr, ht, hn, hbare⟩

theorem canonical_iff_bare_objects :
    let uri := "/repositories/1/archival_objects/12"
    let respelled := "/repositories/1/archival_objects/+012"
    standard.parseReference? uri = some ⟨"archival_object", 12, some 1⟩ ∧
    standard.parseReference? respelled = some ⟨"archival_object", 12, some 1⟩ ∧
    (∃ t n, standard.get? "archival_object" = some t ∧ shownRepository t n = some 1 ∧
      uri = uriFor t n 12) ∧
    ∃ t n, standard.get? "archival_object" = some t ∧ shownRepository t n = some 1 ∧
      respelled ≠ uriFor t n 12 := by
  intro uri respelled
  have huri : standard.parseReference? uri = some ⟨"archival_object", 12, some 1⟩ := by
    decide +kernel
  have hrespelled : standard.parseReference? respelled = some ⟨"archival_object", 12, some 1⟩ := by
    decide +kernel
  obtain ⟨t, n, ht, hn, hbare⟩ :=
    (canonical_iff_bare "archival_object" Registry.standardTypes).1 uri _ huri
  obtain ⟨t', n', ht', hn', hbare'⟩ :=
    (canonical_iff_bare "archival_object" Registry.standardTypes).1 respelled _ hrespelled
  refine ⟨huri, hrespelled, ⟨t, n, ht, hn, hbare.2 (by decide +kernel)⟩, t', n', ht', hn', ?_⟩
  intro hsame
  exact absurd (hbare'.1 hsame) (by decide +kernel)

def respelling : Import where
  repository := 1
  body := Text.Utf8.encode ("\x7b\"id\":\"p\",\"title\":\"P\"\x7d"
    ++ "\x7b\"id\":\"c\",\"title\":\"C\",\"parent\":\"/repositories/1/archival_objects/1\"\x7d"
    ++ "\x7b\"id\":\"d\",\"title\":\"D\",\"parent\":\"/repositories/1/archival_objects/+01\"\x7d")

/-- What is read with a plus sign is no uri that is ever made, and it is stored as it is. -/
theorem spelling_kept :
    standard.parseReference? "/agents/people/+7" = some ⟨"agent_person", 7, none⟩ ∧
    (standard.get? "agent_person").map (fun t => uriFor t 1 7) = some "/agents/people/7" ∧
    ((after standard shelves [.repository "main" "Main", .batch respelling]).rowsOf
        "archival_objects").map (fun row => (row.id, row.json))
      = [(1, "\x7b\"title\":\"P\",\"jsonmodel_type\":\"archival_object\"\x7d"),
        (2, "\x7b\"parent\":\"/repositories/1/archival_objects/1\",\"title\":\"C\","
          ++ "\"jsonmodel_type\":\"archival_object\"\x7d"),
        (3, "\x7b\"parent\":\"/repositories/1/archival_objects/+01\",\"title\":\"D\","
          ++ "\"jsonmodel_type\":\"archival_object\"\x7d")] := by
  decide +kernel

end Batch

end Accession
