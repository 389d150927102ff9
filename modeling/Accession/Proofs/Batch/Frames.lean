import Accession.Batch.Frame
import Accession.Batch.ReceivedFrame
import Accession.Proofs.Batch.CreatedMap
import Accession.Proofs.Json.Exact
import Accession.Proofs.Json.Printable
import Accession.Proofs.Uuid
set_option autoImplicit false

namespace Accession.Batch

open Json (Value Members Fault octets memberOctets quoted separator)
open Text.Utf8 (encode)
open ReceivedFrame (Kind Collected)

section Members

/-- A value that reads back as it is where that many brackets may be opened. -/
structure ReadsBack (depth : Nat) (v : Value) : Prop where
  distinct : v.Distinct
  whole : v.Whole
  height : v.height ≤ depth

theorem members_collected (fuel depth : Nat) (kind : Kind) (s : List UInt8) (ms : Members)
    (keys : "kind" ∉ ms.keys)
    (readable : ∀ m ∈ ms, ReadsBack depth m.2) :
    ∀ (walk : Nat) (first : Bool) (read : List (String × Value)), ms.length < walk →
      (memberOctets first ms).length ≤ fuel →
      Json.members (ReceivedFrame.member fuel depth) walk first (some kind, read)
          (memberOctets first ms ++ 0x7D :: s)
        = .ok ((some kind, ms.reverse ++ read), s) := by
  induction ms with
  | nil =>
    intro walk first read hwalk _
    obtain ⟨walk, rfl⟩ : ∃ k, walk = k + 1 := ⟨walk - 1, by rw [List.length_nil] at hwalk; omega⟩
    exact Json.members_close _ walk first (some kind, read) s
  | cons m rest ih =>
    obtain ⟨key, v⟩ := m
    intro walk first read hwalk hfuel
    obtain ⟨walk, rfl⟩ : ∃ k, walk = k + 1 := ⟨walk - 1, by rw [List.length_cons] at hwalk; omega⟩
    rw [Members.keys, List.map_cons, List.mem_cons, not_or] at keys
    obtain ⟨hvalue, hrest⟩ := List.forall_mem_cons.1 readable
    rw [memberOctets] at hfuel ⊢
    simp only [List.length_append, List.length_cons] at hfuel hwalk
    have hv := Json.readValue_exact fuel v depth hvalue.distinct hvalue.whole hvalue.height
      (by omega) _ (Json.marked_memberOctets rest s)
    have hmember : ReceivedFrame.member fuel depth key (some kind, read)
        (0x3A :: (octets v ++ (memberOctets false rest ++ 0x7D :: s)))
        = .ok ((some kind, (key, v) :: read), memberOctets false rest ++ 0x7D :: s) := by
      rw [ReceivedFrame.member, if_neg (by simpa using Ne.symm keys.1),
        show Json.readColon (0x3A :: (octets v ++ (memberOctets false rest ++ 0x7D :: s)))
          = .ok (octets v ++ (memberOctets false rest ++ 0x7D :: s)) from rfl]
      simp only [bind, Except.bind, hv]
      rfl
    rw [List.append_assoc, List.append_assoc, List.cons_append, List.append_assoc,
      Json.members_next key hmember, ih keys.2 hrest walk false ((key, v) :: read) (by omega)
        (by omega), List.reverse_cons, List.append_assoc]
    rfl

theorem read_octets {name : String} {kind : Kind} (named : Kind.ofName? name = some kind)
    {ms : Members} (readable : ∀ m ∈ ms, ReadsBack (Json.maxDepth - 1) m.2)
    (keys : "kind" ∉ ms.keys) {frame : ReceivedFrame}
    (shaped : ReceivedFrame.ofFields? ms kind = some frame) :
    ReceivedFrame.read (octets (.obj (("kind", .str name) :: ms))) = .ok frame := by
  have hlength := Json.length_members_le false ms
  have hline : octets (.obj (("kind", .str name) :: ms)) = 0x7B :: (separator true
      ++ (quoted "kind" ++ 0x3A :: (quoted name ++ (memberOctets false ms ++ [0x7D])))) := by
    rw [octets, memberOctets, octets]
    simp only [List.append_assoc, List.cons_append]
  -- the fuel is the number of octets, so it is enough for the members and for each value
  obtain ⟨walk, hwalk⟩ : ∃ walk, (octets (.obj (("kind", .str name) :: ms))).length = walk + 1 :=
    ⟨_, by rw [hline, List.length_cons]⟩
  have hfuel : (memberOctets false ms).length < walk := by
    rw [hline] at hwalk
    simp only [List.length_cons, List.length_append] at hwalk
    omega
  have hkind : ReceivedFrame.member (walk + 1) (Json.maxDepth - 1) "kind" (none, [])
      (0x3A :: (quoted name ++ (memberOctets false ms ++ [0x7D])))
      = .ok ((some kind, []), memberOctets false ms ++ [0x7D]) := by
    have hcolon (s : List UInt8) : Json.readColon (0x3A :: s) = .ok s := rfl
    have hread : ReceivedFrame.readKind (quoted name ++ (memberOctets false ms ++ [0x7D]))
        = .ok (kind, memberOctets false ms ++ [0x7D]) := by
      rw [ReceivedFrame.readKind, Json.quoted_append, Json.skipSpace_of_not_space rfl]
      simp only [Json.Literal.read_quoted, named]
    rw [ReceivedFrame.member, if_pos (by rfl), if_neg (by exact Bool.false_ne_true), hcolon]
    simp only [bind, Except.bind, hread]
    rfl
  unfold ReceivedFrame.read
  dsimp only
  rw [hwalk, hline, Json.skipSpace_of_not_space rfl]
  simp only [bind, Except.bind]
  rw [Json.members_next "kind" hkind,
    members_collected (walk + 1) (Json.maxDepth - 1) kind [] ms keys readable walk false [] (by omega)
      (by omega)]
  simp only [List.append_nil, List.reverse_reverse, Option.bind_some, shaped]
  rfl

end Members

section Lines

theorem lines_append {text : List UInt8} (h : 0x0A ∉ text) (rest : List UInt8) :
    ReceivedFrame.lines (text ++ 0x0A :: rest) = text :: ReceivedFrame.lines rest := by
  induction text with
  | nil => rfl
  | cons b text ih =>
    rw [List.mem_cons, not_or] at h
    rw [List.cons_append, ReceivedFrame.lines, if_neg (by simpa using Ne.symm h.1), ih h.2]

theorem encode_line (frame : Frame) : encode frame.line = octets frame.toJson ++ [0x0A] := by
  rw [Frame.line, Json.encode_push, Json.encode_render]
  rfl

theorem lines_frames (frames : List Frame) :
    ReceivedFrame.lines (frames.flatMap (fun frame => encode frame.line))
      = frames.map (fun frame => octets frame.toJson) ++ [[]] := by
  induction frames with
  | nil => rfl
  | cons frame rest ih =>
    rw [List.flatMap_cons, encode_line, List.append_assoc, List.singleton_append,
      lines_append (Json.printable_octets _).no_line_feed, ih]
    rfl

end Lines

namespace Frame

def received : Frame → ReceivedFrame
  | .progress importId ticks monitor =>
    .progress importId ticks monitor.attempt.toNat monitor.recordsProcessed.toNat
      monitor.bytesSpooled.toNat
  | .outcome importId result =>
    .outcome importId (result.saved.toList.map (fun entry => (entry.1, entry.2.toJson)))
      result.errors

section Values

variable {depth : Nat}

theorem readsBack_str (s : String) : ReadsBack depth (.str s) :=
  ⟨trivial, trivial, Nat.zero_le depth⟩

theorem readsBack_num {n : Int} (low : Text.Integer.min64 ≤ n)
    (high : n ≤ Text.Integer.maxUnsigned64) : ReadsBack depth (.num (.int n)) :=
  ⟨trivial, ⟨low, high⟩, Nat.zero_le depth⟩

theorem readsBack_natural {n : Nat} (h : n ≤ Text.Integer.maxUnsigned64) :
    ReadsBack depth (natural n) :=
  readsBack_num (Int.le_trans (by decide : Text.Integer.min64 ≤ 0) (Int.natCast_nonneg n))
    (Int.ofNat_le.2 h)

theorem readsBack_arr {items : List Value} (h : ∀ v ∈ items, ReadsBack depth v) :
    ReadsBack (depth + 1) (.arr items) where
  distinct := (Json.distinctItems_iff items).2 (fun v hv => (h v hv).distinct)
  whole := (Json.wholeItems_iff items).2 (fun v hv => (h v hv).whole)
  height := Nat.succ_le_succ ((Json.itemsHeight_le items depth).2 (fun v hv => (h v hv).height))

theorem readsBack_obj {ms : Members} (keys : ms.keys.Nodup) (h : ∀ m ∈ ms, ReadsBack depth m.2) :
    ReadsBack (depth + 1) (.obj ms) where
  distinct := (Members.distinct_iff ms).2 ⟨keys, fun m hm => (h m hm).distinct⟩
  whole := (Json.wholeMembers_iff ms).2 (fun m hm => (h m hm).whole)
  height := Nat.succ_le_succ ((Json.membersHeight_le ms depth).2 (fun m hm => (h m hm).height))

theorem naturalUpTo?_natural {limit n : Nat} (h : n ≤ limit) :
    ReceivedFrame.naturalUpTo? limit (natural n) = some n :=
  if_pos h

theorem texts?_map (texts : List String) :
    ReceivedFrame.texts? (.arr (texts.map .str)) = some (some texts) := by
  have hmap : (texts.map Value.str).mapM Value.asString? = some texts := by
    induction texts with
    | nil => rfl
    | cons s rest ih =>
      rw [List.map_cons, List.mapM_cons, ih]
      rfl
  rw [ReceivedFrame.texts?, hmap]
  rfl

end Values

section Saved

/-- Records with ids of 64 bits. -/
def Ranged (entries : List (String × Persisted)) : Prop :=
  ∀ entry ∈ entries, Text.Integer.min64 ≤ entry.2.id ∧ entry.2.id ≤ Text.Integer.max64

theorem readsBack_saved {depth : Nat} {entries : List (String × Persisted)}
    (distinct : (entries.map (·.1)).Nodup) (ranged : Ranged entries) :
    ReadsBack (depth + 2) (.obj (entries.map (fun entry => (entry.1, entry.2.toJson)))) := by
  have hmax : Text.Integer.max64 ≤ Text.Integer.maxUnsigned64 := by decide
  apply readsBack_obj
  · rw [Members.keys, List.map_map]
    exact distinct
  · intro m hm
    obtain ⟨entry, hentry, rfl⟩ := List.mem_map.1 hm
    obtain ⟨hlow, hhigh⟩ := ranged entry hentry
    apply readsBack_arr
    intro v hv
    rw [List.mem_cons, List.mem_singleton] at hv
    obtain rfl | rfl := hv
    · exact readsBack_str _
    · exact readsBack_num hlow (Int.le_trans hhigh hmax)

theorem persisted?_toJson {record : Persisted}
    (low : Text.Integer.min64 ≤ record.id) (high : record.id ≤ Text.Integer.max64) :
    ReceivedFrame.persisted? record.toJson = some record := by
  have hid : (Value.num (.int record.id)).asInt64? = some record.id := by
    rw [Value.asInt64?, if_pos]
    simp only [Bool.and_eq_true, decide_eq_true_eq]
    exact ⟨low, high⟩
  simp only [Persisted.toJson, ReceivedFrame.persisted?, Value.asString?, hid, bind,
    Option.bind_some]
  rfl

theorem savedRecords?_toJson (importId : Uuid) {entries : List (String × Persisted)}
    (ranged : Ranged entries) (errors : Option (List String)) :
    ReceivedFrame.savedRecords? (.outcome importId
      (entries.map (fun entry => (entry.1, entry.2.toJson))) errors) = some entries := by
  rw [ReceivedFrame.savedRecords?]
  induction entries with
  | nil => rfl
  | cons entry rest ih =>
    obtain ⟨⟨hlow, hhigh⟩, hrest⟩ := List.forall_mem_cons.1 ranged
    rw [List.map_cons, List.mapM_cons, ih hrest, persisted?_toJson hlow hhigh]
    rfl

end Saved

/-- The numbers of a frame are of 64 bits, and what it shows as saved has distinct identifiers. -/
def Fits : Frame → Prop
  | .progress _ ticks _ => ticks ≤ Text.Integer.maxUnsigned64
  | .outcome _ result => (result.saved.toList.map (·.1)).Nodup ∧ Ranged result.saved.toList

theorem read_toJson {frame : Frame} (fits : frame.Fits) :
    ReceivedFrame.read (octets frame.toJson) = .ok frame.received := by
  cases frame with
  | progress importId ticks monitor =>
    have hticks : ticks ≤ Text.Integer.maxUnsigned64 := fits
    have hattempt : monitor.attempt.toNat ≤ Text.Integer.maxUnsigned32 :=
      Nat.le_of_lt_succ monitor.attempt.toNat_lt
    have hspooled : monitor.bytesSpooled.toNat ≤ Text.Integer.maxUnsigned64 :=
      Nat.le_of_lt_succ monitor.bytesSpooled.toNat_lt
    have hprocessed : monitor.recordsProcessed.toNat ≤ Text.Integer.maxUnsigned64 :=
      Nat.le_of_lt_succ monitor.recordsProcessed.toNat_lt
    have named : Kind.ofName? "progress" = some .progress := rfl
    refine read_octets named ?_ ?_ ?_
    · simp only [List.forall_mem_cons]
      exact ⟨readsBack_str _, readsBack_natural hticks, readsBack_str _,
        readsBack_natural (Nat.le_trans hattempt (by decide)), readsBack_natural hspooled,
        readsBack_natural hprocessed, nofun⟩
    · exact (by decide : "kind" ∉ ["import_id", "ticks", "phase", "attempt", "bytes_spooled",
        "records_processed"])
    · simp [ReceivedFrame.ofFields?, ReceivedFrame.sole?, ReceivedFrame.progress?,
        ReceivedFrame.uuid?, Uuid.parse?_render, naturalUpTo?_natural hticks,
        naturalUpTo?_natural hattempt, naturalUpTo?_natural hspooled,
        naturalUpTo?_natural hprocessed, received]
  | outcome importId result =>
    obtain ⟨hdistinct, hranged⟩ := fits
    have named : Kind.ofName? "outcome" = some .outcome := rfl
    have hsaved : ReadsBack (Json.maxDepth - 1) result.saved.toJson :=
      readsBack_saved hdistinct hranged
    cases herrors : result.errors with
    | none =>
      have hmembers : result.members = [("saved", result.saved.toJson)] := by
        rw [Outcome.members, herrors]
      rw [toJson, hmembers]
      refine read_octets named ?_ ?_ ?_
      · simp only [List.forall_mem_cons]
        exact ⟨readsBack_str _, hsaved, nofun⟩
      · exact (by decide : "kind" ∉ ["import_id", "saved"])
      · simp [ReceivedFrame.ofFields?, ReceivedFrame.sole?, ReceivedFrame.soleOrNull?,
          ReceivedFrame.outcome?, ReceivedFrame.uuid?, Uuid.parse?_render, ReceivedFrame.texts?,
          received, Created.toJson, Value.asMembers?, herrors]
    | some errors =>
      have hmembers : result.members
          = [("saved", result.saved.toJson), ("errors", .arr (errors.map .str))] := by
        rw [Outcome.members, herrors]
      have htexts : ReadsBack (Json.maxDepth - 1) (.arr (errors.map .str)) := by
        apply readsBack_arr
        intro v hv
        obtain ⟨s, -, rfl⟩ := List.mem_map.1 hv
        exact readsBack_str s
      rw [toJson, hmembers]
      refine read_octets named ?_ ?_ ?_
      · simp only [List.forall_mem_cons]
        exact ⟨readsBack_str _, hsaved, htexts, nofun⟩
      · exact (by decide : "kind" ∉ ["import_id", "saved", "errors"])
      · simp [ReceivedFrame.ofFields?, ReceivedFrame.sole?, ReceivedFrame.soleOrNull?,
          ReceivedFrame.outcome?, ReceivedFrame.uuid?, Uuid.parse?_render, texts?_map, received,
          Created.toJson, Value.asMembers?, herrors]

end Frame

theorem parseAll_lines {frames : List Frame} (fits : ∀ frame ∈ frames, frame.Fits) :
    ReceivedFrame.parseAll (frames.flatMap (fun frame => encode frame.line))
      = .ok (frames.map Frame.received) := by
  have hkept : (frames.map (fun frame => octets frame.toJson)).filter
      (fun line => !line.all ReceivedFrame.isSpace)
      = frames.map (fun frame => octets frame.toJson) := by
    rw [List.filter_eq_self]
    intro line hline
    obtain ⟨frame, -, rfl⟩ := List.mem_map.1 hline
    cases frame <;> rfl
  rw [ReceivedFrame.parseAll, lines_frames, List.filter_append, hkept,
    show [([] : List UInt8)].filter (fun line => !line.all ReceivedFrame.isSpace) = [] from rfl,
    List.append_nil]
  clear hkept
  induction frames with
  | nil => rfl
  | cons frame rest ih =>
    obtain ⟨hframe, hrest⟩ := List.forall_mem_cons.1 fits
    rw [List.map_cons, List.mapM_cons, Frame.read_toJson hframe, ih hrest]
    rfl

/-- Whatever progress frames an answer has and whatever its outcome shows, each of them is a line
with a line feed at its end and nowhere else. The lines one after another read as frames with the
same values in the same order, and the records of the outcome are the saved ones in the order of
their creation. -/
theorem answer_reads_back (importId : Uuid) (shown : List (Nat × Monitor))
    (records : List (String × Persisted)) (message : Option String)
    (ticks : ∀ s ∈ shown, s.1 ≤ Text.Integer.maxUnsigned64)
    (ids : ∀ r ∈ records, Text.Integer.min64 ≤ r.2.id ∧ r.2.id ≤ Text.Integer.max64) :
    let saved := Created.ofList records
    let result := match message with
      | none => Outcome.success saved
      | some message => Outcome.ofMessage saved message
    let frames := shown.map (fun s => Frame.progress importId s.1 s.2)
      ++ [Frame.outcome importId result]
    (∀ frame ∈ frames, ∃ text, encode frame.line = text ++ [0x0A] ∧ 0x0A ∉ text) ∧
      ∃ members,
        ReceivedFrame.parseAll (frames.flatMap (fun frame => encode frame.line))
            = .ok (shown.map (fun s => .progress importId s.1 s.2.attempt.toNat
                  s.2.recordsProcessed.toNat s.2.bytesSpooled.toNat)
                ++ [.outcome importId members result.errors]) ∧
          ReceivedFrame.savedRecords? (.outcome importId members result.errors)
            = some saved.toList := by
  intro saved result frames
  have hsaved : result.saved = saved := by
    cases message <;> rfl
  have hranged : Frame.Ranged saved.toList :=
    fun entry hentry => ids entry (Created.mem_ofList hentry)
  have hdistinct := Created.nodup_keys (Created.indexed_ofList records)
  have hfits : ∀ frame ∈ frames, frame.Fits := by
    intro frame hframe
    obtain hframe | hframe := List.mem_append.1 hframe
    · obtain ⟨s, hs, rfl⟩ := List.mem_map.1 hframe
      exact ticks s hs
    · rw [List.mem_singleton.1 hframe, Frame.Fits, hsaved]
      exact ⟨hdistinct, hranged⟩
  refine ⟨?_, saved.toList.map (fun entry => (entry.1, entry.2.toJson)), ?_, ?_⟩
  · intro frame _
    exact ⟨_, encode_line frame, (Json.printable_octets _).no_line_feed⟩
  · rw [parseAll_lines hfits, List.map_append, List.map_map, List.map_singleton, Frame.received,
      hsaved]
    rfl
  · exact Frame.savedRecords?_toJson importId hranged result.errors

def strange : List (String × Persisted) :=
  [("a\n\r\t\"\\\x00\x08\x7f", ⟨"\u2028/\u00e9", -9223372036854775808⟩), ("", ⟨"\n", 0⟩)]

theorem answer_reads_back_strange :
    (∀ s ∈ [(Text.Integer.maxUnsigned64, Monitor.start)], s.1 ≤ Text.Integer.maxUnsigned64) ∧
      (∀ r ∈ strange, Text.Integer.min64 ≤ r.2.id ∧ r.2.id ≤ Text.Integer.max64) ∧
      ∃ members,
        ReceivedFrame.parseAll
            (encode (Frame.progress .zero Text.Integer.maxUnsigned64 .start).line
              ++ encode (Frame.outcome .zero (.ofMessage (.ofList strange) "no\nroom")).line)
            = .ok [.progress .zero Text.Integer.maxUnsigned64 0 0 0,
                .outcome .zero members (some ["Server error: no\nroom"])] ∧
          ReceivedFrame.savedRecords?
            (.outcome .zero members (some ["Server error: no\nroom"])) = some strange := by
  have ticks : ∀ s ∈ [(Text.Integer.maxUnsigned64, Monitor.start)],
      s.1 ≤ Text.Integer.maxUnsigned64 := by decide
  have ids : ∀ r ∈ strange, Text.Integer.min64 ≤ r.2.id ∧ r.2.id ≤ Text.Integer.max64 := by decide
  obtain ⟨-, members, hparse, hsaved⟩ := answer_reads_back .zero
    [(Text.Integer.maxUnsigned64, Monitor.start)] strange (some "no\nroom") ticks ids
  have hlist : (Created.ofList strange).toList = strange := by decide +kernel
  rw [hlist] at hsaved
  rw [List.map_singleton, List.singleton_append, List.flatMap_cons, List.flatMap_singleton]
    at hparse
  exact ⟨ticks, ids, members, hparse, hsaved⟩

end Accession.Batch
