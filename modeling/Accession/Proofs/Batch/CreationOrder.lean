import Accession.Proofs.Batch.Frames
import Mathlib.Data.Finset.Card
set_option autoImplicit false

namespace Accession.Batch

open Text.Utf8 (encode)

theorem ReadsBack.parse {v : Json.Value} (h : ReadsBack Json.maxDepth v) :
    Json.parse (encode v.render) = .ok v := by
  have hread := Json.readValue_exact (Json.octets v).length v Json.maxDepth h.distinct h.whole
    h.height (Nat.le_refl _) [] trivial
  rw [List.append_nil] at hread
  rw [Json.encode_render, Json.parse, hread]
  rfl

namespace Created.Follows

variable {calls : List (String × Persisted)} {created : Created} (h : Follows calls created)

include h

theorem size_eq : created.size = (calls.map (·.1)).toFinset.card := by
  have hkeys : (created.toList.map (·.1)).toFinset = (calls.map (·.1)).toFinset := by
    ext k
    rw [List.mem_toFinset, List.mem_toFinset, h.mem_keys_iff]
  rw [← hkeys, List.toFinset_card_of_nodup (nodup_keys h.indexed), List.length_map]
  rfl

theorem parse_toJson (ids : ∀ call ∈ calls,
    Text.Integer.min64 ≤ call.2.id ∧ call.2.id ≤ Text.Integer.max64) :
    Json.parse (encode created.toJson.render) = .ok created.toJson := by
  have hranged : Frame.Ranged created.toList := fun entry hentry => ids entry (h.mem_calls hentry)
  exact ReadsBack.parse (Frame.readsBack_saved (nodup_keys h.indexed) hranged)

end Created.Follows

/-- Whatever is inserted into the empty map, identifiers being repeated in any order. The index has
the place of every entry under its identifier and nothing else. A further insertion succeeds exactly
if its identifier is new, and otherwise leaves the map as it is. What is looked up is the record of
the first insertion. The entries are these records, one for each identifier, in the order of the
first insertions; what is written of the map, ids being of 64 bits, reads as an object with these
members in this order. -/
theorem first_insertions_kept (calls : List (String × Persisted)) :
    let created := Created.ofList calls
    let asked := calls.map (·.1)
    (∀ k i, created.index[k]? = some i ↔
      ∃ _ : i < created.entries.size, created.entries[i].1 = k) ∧
    (∀ k v, ((created.insert k v).2 = true ↔ k ∉ asked) ∧
      ((created.insert k v).2 = false → (created.insert k v).1 = created)) ∧
    (∀ k, created.get? k = calls.lookup k) ∧
    (∀ k, created.contains k = (created.get? k).isSome) ∧
    created.size = asked.toFinset.card ∧
    (∀ k v, (k, v) ∈ created.toList ↔ calls.lookup k = some v) ∧
    (created.toList.map (·.1)).Pairwise (fun k k' => asked.idxOf k < asked.idxOf k') ∧
    ((∀ call ∈ calls, Text.Integer.min64 ≤ call.2.id ∧ call.2.id ≤ Text.Integer.max64) →
      Json.parse (encode created.toJson.render) = .ok (.obj (created.toList.map
        (fun entry => (entry.1, .arr [.str entry.2.uri, .num (.int entry.2.id)]))))) := by
  intro created asked
  have follows : Created.Follows calls created := Created.follows_ofList calls
  refine ⟨?_, ?_, follows.firsts, Created.contains_eq_isSome follows.indexed, follows.size_eq,
    fun _ _ => follows.mem_toList_iff, follows.ordered, follows.parse_toJson⟩
  · intro k i
    rw [follows.indexed k i, Option.map_eq_some_iff]
    simp only [Array.getElem?_eq_some_iff]
    constructor
    · rintro ⟨entry, ⟨inside, rfl⟩, hkey⟩
      exact ⟨inside, hkey⟩
    · rintro ⟨inside, hkey⟩
      exact ⟨_, ⟨inside, rfl⟩, hkey⟩
  · intro k v
    rw [← follows.get?_eq_none_iff]
    obtain ⟨htaken, hsame⟩ | ⟨hnew, hinserted⟩ := Created.insert_cases follows.indexed k v
    · rw [hsame]
      exact ⟨iff_of_false Bool.false_ne_true (Option.isSome_iff_ne_none.1 htaken), fun _ => rfl⟩
    · rw [hinserted]
      exact ⟨iff_of_true rfl hnew, nofun⟩

def repeated : List (String × Persisted) :=
  [("b\"", ⟨"/agents/people/1", -9223372036854775808⟩), ("a", ⟨"/agents/people/2", 2⟩),
    ("b\"", ⟨"/agents/people/3", 3⟩)]

theorem first_insertions_kept_repeated :
    (∀ call ∈ repeated, Text.Integer.min64 ≤ call.2.id ∧ call.2.id ≤ Text.Integer.max64) ∧
      (Created.ofList repeated).get? "b\"" = some ⟨"/agents/people/1", -9223372036854775808⟩ ∧
      ((Created.ofList repeated).insert "a" ⟨"", 4⟩).1 = Created.ofList repeated ∧
      (Created.ofList repeated).size = 2 ∧
      Json.parse (encode (Created.ofList repeated).toJson.render)
        = .ok (.obj [("b\"", .arr [.str "/agents/people/1", .num (.int (-9223372036854775808))]),
            ("a", .arr [.str "/agents/people/2", .num (.int 2)])]) := by
  have ids : ∀ call ∈ repeated,
      Text.Integer.min64 ≤ call.2.id ∧ call.2.id ≤ Text.Integer.max64 := by decide
  obtain ⟨-, hinsert, hget, -, hsize, -, -, hparse⟩ := first_insertions_kept repeated
  obtain ⟨hnew, hsame⟩ := hinsert "a" ⟨"", 4⟩
  have htaken : ((Created.ofList repeated).insert "a" ⟨"", 4⟩).2 = false :=
    Bool.eq_false_iff.2 (fun h => hnew.1 h (by decide))
  have hlist : (Created.ofList repeated).toList = repeated.take 2 := by decide +kernel
  have hread := hparse ids
  rw [hlist] at hread
  exact ⟨ids, hget "b\"", hsame htaken, hsize.trans (by decide), hread⟩

end Accession.Batch
