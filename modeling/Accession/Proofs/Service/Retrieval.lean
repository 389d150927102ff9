import Accession.Proofs.Batch.Filing
import Accession.Proofs.Json.Literals
import Accession.Service.Application
set_option autoImplicit false

namespace Accession.Text

def isPlain (c : Char) : Bool :=
  c.toNat < 0x80 && c != '%' && c != '?' && c != '#'

theorem Percent.decode_of_not_mem {s : List UInt8} (h : 0x25 ∉ s) : Percent.decode s = s := by
  induction s with
  | nil => rfl
  | cons b s ih =>
    rw [List.mem_cons, not_or] at h
    have hne : (b == 0x25) = false := beq_eq_false_iff_ne.2 (Ne.symm h.1)
    unfold Percent.decode
    rw [if_neg (by simp [hne]), ih h.2]

theorem Percent.decode?_of_plain {s : String} (h : s.toList.all isPlain = true) :
    Percent.decode? s = some s := by
  have hpercent : 0x25 ∉ Utf8.encode s := by
    intro hmem
    obtain ⟨c, hc, hb⟩ := List.mem_flatMap.1 hmem
    have hplain := List.all_eq_true.1 h c hc
    simp only [isPlain, Bool.and_eq_true, decide_eq_true_eq, bne_iff_ne] at hplain
    obtain ⟨⟨⟨hascii, hne⟩, -⟩, -⟩ := hplain
    rw [Json.Literal.encodeChar_ascii hascii, List.mem_singleton] at hb
    have htoNat := congrArg UInt8.toNat hb
    rw [Utf8.toNat_ofNat (by omega)] at htoNat
    exact hne (Char.toNat_inj.1 htoNat.symm)
  have hdecode := Utf8.decode_flatMap_encodeChar s.toList
  rw [Percent.decode?, Percent.decode_of_not_mem hpercent, Utf8.decode?, Utf8.encode, hdecode]
  exact congrArg some String.ofList_toList

namespace Integer

theorem isPlain_write (n : Int) : (write n).toList.all isPlain = true := by
  have hdigits : ∀ k : Nat, ∀ c ∈ Nat.toDigits 10 k, isPlain c = true := by
    intro k c hc
    have hdigit := isDigit_of_mem_toDigits hc
    simp only [isDigit, Bool.and_eq_true, decide_eq_true_eq, Char.le_def,
      UInt32.le_iff_toNat_le] at hdigit
    have hlow : 0x30 ≤ c.toNat := hdigit.1
    have hhigh : c.toNat ≤ 0x39 := hdigit.2
    have hne : ∀ d : Char, d.toNat < 0x30 ∨ 0x39 < d.toNat → c ≠ d := by
      rintro d hd rfl
      omega
    simp only [isPlain, Bool.and_eq_true, decide_eq_true_eq, bne_iff_ne]
    exact ⟨⟨⟨by omega, hne '%' (by decide)⟩, hne '?' (by decide)⟩, hne '#' (by decide)⟩
  rw [List.all_eq_true]
  intro c hc
  cases n with
  | ofNat k =>
    rw [write, String.toList_ofList] at hc
    exact hdigits k c hc
  | negSucc k =>
    rw [write, String.toList_ofList, List.mem_cons] at hc
    obtain rfl | hc := hc
    · rfl
    · exact hdigits _ c hc

theorem isEmpty_write (n : Int) : (write n).isEmpty = false := by
  rw [← Bool.not_eq_true, String.isEmpty_iff]
  intro hempty
  have hread := read?_write n
  rw [hempty] at hread
  cases hread

theorem read64?_write {n : Int} (h : Registry.isId n = true) : read64? (write n) = some n := by
  rw [Registry.isId, Bool.and_eq_true, decide_eq_true_eq, decide_eq_true_eq] at h
  have hmin : min64 ≤ 0 := by decide
  rw [read64?, readWithin?, read?_write, Option.filter_some, if_pos]
  rw [Bool.and_eq_true, decide_eq_true_eq, decide_eq_true_eq]
  exact ⟨by omega, h.2⟩

end Integer

end Accession.Text

namespace Accession.Service

open Registry (RecordType isId uriFor standard)
open Text (isPlain)

theorem Route.withoutQuery_of_plain {path : List Char} (h : path.all isPlain = true) :
    withoutQuery path = path := by
  induction path with
  | nil => rfl
  | cons c cs ih =>
    rw [List.all_cons, Bool.and_eq_true] at h
    obtain ⟨hplain, hcs⟩ := h
    rw [isPlain, Bool.and_eq_true, Bool.and_eq_true] at hplain
    have hkept : (c != '?' && c != '#') = true := Bool.and_eq_true_iff.2 ⟨hplain.1.2, hplain.2⟩
    rw [withoutQuery, List.takeWhile_cons, if_pos hkept]
    exact congrArg (c :: ·) (ih hcs)

theorem Route.ofTarget?_of_split {target : String} {rest : List Char}
    (htarget : target.toList = '/' :: rest) (h : rest.all isPlain = true) :
    ofTarget? target = ofParts? ((Text.Path.split rest).map String.ofList) := by
  have hplain : ('/' :: rest).all isPlain = true := by
    rw [List.all_cons, h]
    rfl
  rw [ofTarget?, htarget, pathOfTarget?, withoutQuery_of_plain hplain]
  rfl

theorem segments : ∀ t ∈ standard.types,
    (t.scope = .repository → '/' ∉ t.uriSegment.toList ∧
      t.uriSegment.toList.all isPlain = true) ∧
    (t.scope = .global → ∃ kind ∈ ["people", "families", "corporate_entities", "software"],
      t.uriSegment = "agents/" ++ kind ∧ '/' ∉ kind.toList ∧
        kind.toList.all isPlain = true) := by
  decide

/-- The uri of a record is routed to the request for that record. -/
theorem ofTarget?_uriFor {t : RecordType} (ht : t ∈ standard.types) (repository id : Int) :
    (t.scope = .repository ∧ Route.ofTarget? (uriFor t repository id)
      = some (.record (Text.Integer.write repository) t.uriSegment (Text.Integer.write id))) ∨
    (t.scope = .global ∧ ∃ kind, t.uriSegment = "agents/" ++ kind ∧
      kind.toList.all isPlain = true ∧
      Route.ofTarget? (uriFor t repository id) = some (.agent kind (Text.Integer.write id))) := by
  obtain ⟨hlocal, hglobal⟩ := segments t ht
  have hidplain := Text.Integer.isPlain_write id
  have hidsplit := Text.Path.split_of_not_mem (Text.Integer.slash_not_mem_write id)
  have hidtext := Text.Integer.isEmpty_write id
  cases hscope : t.scope with
  | repository =>
    obtain ⟨hslash, hplain⟩ := hlocal hscope
    have hrplain := Text.Integer.isPlain_write repository
    have hrsplit := Text.Path.split_of_not_mem (Text.Integer.slash_not_mem_write repository)
    have hsplit := Text.Path.split_of_not_mem hslash
    have hword : Text.Path.split "repositories".toList = ["repositories".toList] := by decide
    have htarget : (uriFor t repository id).toList = '/' :: ("repositories".toList ++ '/' ::
        ((Text.Integer.write repository).toList ++ '/' ::
          (t.uriSegment.toList ++ '/' :: (Text.Integer.write id).toList))) := by
      simp [uriFor, hscope, String.toList_append]
    refine .inl ⟨rfl, ?_⟩
    rw [Route.ofTarget?_of_split htarget, Text.Path.split_append, Text.Path.split_append,
      Text.Path.split_append, hword, hrsplit, hsplit, hidsplit]
    · simp [Route.ofParts?, hidtext]
    · have hfirst : "repositories".toList.all isPlain = true := by decide
      have hbetween : isPlain '/' = true := by decide
      simp only [List.all_append, List.all_cons, hfirst, hbetween, hplain, hrplain, hidplain,
        Bool.and_self]
  | global =>
    obtain ⟨kind, -, hsegment, hslash, hplain⟩ := hglobal hscope
    have hword : Text.Path.split "agents".toList = ["agents".toList] := by decide
    have hsplit := Text.Path.split_of_not_mem hslash
    have htarget : (uriFor t repository id).toList = '/' :: ("agents".toList ++ '/' ::
        (kind.toList ++ '/' :: (Text.Integer.write id).toList)) := by
      simp [uriFor, hscope, hsegment, String.toList_append]
    refine .inr ⟨rfl, kind, hsegment, hplain, ?_⟩
    rw [Route.ofTarget?_of_split htarget, Text.Path.split_append, Text.Path.split_append, hword,
      hsplit, hidsplit]
    · simp [Route.ofParts?, hidtext]
    · have hfirst : "agents".toList.all isPlain = true := by decide
      have hbetween : isPlain '/' = true := by decide
      simp only [List.all_append, List.all_cons, hfirst, hbetween, hplain, hidplain,
        Bool.and_self]

namespace Parameter

theorem text_of_plain {name sent : String} (h : sent.toList.all isPlain = true) :
    text name sent = .ok sent := by
  rw [text, Text.Percent.decode?_of_plain h]

theorem number_write {refused : String → ParameterError} {n : Int} (h : isId n = true) :
    number refused (Text.Integer.write n) = .ok n := by
  rw [number, Text.Integer.read64?_write h]

end Parameter

section

variable {ω : Type} (app : Application ω) (around : Circumstances) (state : State ω)

theorem handle_reading {request : Request} {route : Route} {response : Response}
    (hmethod : request.method = "GET") (hroute : Route.ofTarget? request.target = some route)
    (hmethods : route.methods = .reading)
    (hanswer : answer app around route request state = (state, response)) :
    handle app around request state = (state, response) := by
  rw [handle, hroute]
  simp [hmethod, hmethods, hanswer, Route.Methods.admits]

theorem handle_uri {t : RecordType} (ht : t ∈ standard.types) {repository id : Int}
    (hid : isId id = true) (hrepository : t.scope = .repository → isId repository = true)
    {request : Request} (hmethod : request.method = "GET")
    (htarget : request.target = uriFor t repository id) :
    handle app around request state = (state, showRecord app (uriFor t repository id) state) := by
  obtain ⟨hlocal, -⟩ := segments t ht
  have hidtext : Parameter.text "id" (Text.Integer.write id) = .ok (Text.Integer.write id) :=
    Parameter.text_of_plain (Text.Integer.isPlain_write id)
  obtain ⟨hscope, hroute⟩ | ⟨hscope, kind, hsegment, hkind, hroute⟩ :=
    ofTarget?_uriFor ht repository id
  · refine handle_reading app around state hmethod (htarget ▸ hroute) rfl ?_
    rw [answer, Parameter.text_of_plain (Text.Integer.isPlain_write repository),
      Parameter.text_of_plain (hlocal hscope).2, hidtext]
    simp only [bind, Except.bind, Parameter.number_write hid,
      Parameter.number_write (hrepository hscope)]
    rw [uriFor, hscope]
    rfl
  · refine handle_reading app around state hmethod (htarget ▸ hroute) rfl ?_
    rw [answer, Parameter.text_of_plain hkind, hidtext]
    simp only [bind, Except.bind, Parameter.number_write hid]
    have hword : "/agents/" = "/" ++ "agents/" := rfl
    rw [uriFor, hscope, hsegment, hword]
    simp only [String.append_assoc]
    rfl

end

end Accession.Service

namespace Accession.Batch

open Json (Members)
open Registry (standard)
open Service (Application Circumstances State Request)
open Store (Database)

theorem Filed.handle {repository : Int} {record : Record} {earlier : List (String × Persisted)}
    {persisted : Persisted} {db : Database} (filed : Filed repository record earlier persisted db)
    {shown : Members} (fetched : db.fetchRecord standard persisted.uri = .ok (some shown))
    {ω : Type} {app : Application ω} (around : Circumstances) {state : State ω} {request : Request}
    (hregistry : app.registry = standard) (hdb : app.database state.store = db)
    (hmethod : request.method = "GET") (htarget : request.target = persisted.uri) :
    Service.handle app around request state = (state, .json 200 (.obj shown)) := by
  have huri := htarget.trans filed.uri
  rw [Service.handle_uri app around state filed.registered filed.id filed.owner hmethod huri,
    ← filed.uri, Service.showRecord, hregistry, hdb, fetched]

/-- Every entry that an import reports as saved is a record of its body, and stays one: whatever is
created and imported afterwards, its uri is found in the storage and by the service, and what is
shown of it, read from its text, is member by member the record that was sent. -/
theorem saved_reads_back (db : Database) (numbered : db.Numbered) (i : Import)
    (earlier later : List (String × Persisted)) (logicalId : String) (persisted : Persisted)
    (saved : (i.outcome standard db).saved.toList = earlier ++ (logicalId, persisted) :: later)
    (events : List Event) :
    ∃ record ∈ (recordsOf standard i.body).1, record.logicalId = logicalId ∧
      ((∀ m ∈ record.body, m.2.Whole) → ∃ shown,
        (after standard (i.database standard db) events).fetchRecord standard persisted.uri
          = .ok (some shown) ∧
        (∀ {ω : Type} (app : Application ω) (around : Circumstances) (state : State ω)
          (request : Request), app.registry = standard →
          app.database state.store = after standard (i.database standard db) events →
          request.method = "GET" → request.target = persisted.uri →
          Service.handle app around request state = (state, .json 200 (.obj shown))) ∧
        Json.parseObject (Text.Utf8.encode (Json.Value.obj shown).render) = .ok shown ∧
        (Members.keys shown).Nodup ∧
        ∀ name, shown.get? name = record.shown (urisAmong earlier) persisted.uri name) := by
  obtain ⟨record, hrecord, hid, hfiled⟩ :=
    i.allFiled numbered earlier logicalId persisted later saved
  have hlasting : Filed i.repository record earlier persisted
      (after standard (i.database standard db) events) :=
    { hfiled with shelved := shelved_after hfiled.shelved events }
  refine ⟨record, hrecord, hid, fun whole => ?_⟩
  obtain ⟨piece, hpiece⟩ := (recordsOf_admitted hrecord).parsed
  obtain ⟨shown, hfetch, hreadable, hmembers⟩ :=
    hlasting.fetchRecord (.of_parseObject hpiece whole)
  exact ⟨shown, hfetch,
    fun app around state request hregistry hdb hmethod htarget =>
      hlasting.handle hfetch around hregistry hdb hmethod htarget,
    hreadable.parseObject_render, ((Members.distinct_iff _).1 hreadable.distinct).1, hmembers⟩

/-- The part of the family is shown under its uri with the uri of the whole, also after the family
was sent once more. -/
theorem saved_reads_back_family :
    founded.Numbered ∧
      (family.outcome standard founded).saved.toList
        = [("p", ⟨"/repositories/1/archival_objects/1", 1⟩)]
          ++ ("c", ⟨"/repositories/1/archival_objects/2", 2⟩) :: [] ∧
      ∃ shown, (after standard (family.database standard founded) [.batch family]).fetchRecord
            standard "/repositories/1/archival_objects/2" = .ok (some shown) ∧
        (shown.get? "parent").bind Registry.refValue?
          = some "/repositories/1/archival_objects/1" := by
  have saved : (family.outcome standard founded).saved.toList
      = [("p", ⟨"/repositories/1/archival_objects/1", 1⟩)]
        ++ ("c", ⟨"/repositories/1/archival_objects/2", 2⟩) :: [] := by decide +kernel
  obtain ⟨record, hrecord, hid, hread⟩ :=
    saved_reads_back founded numbered_founded family _ _ _ _ saved [.batch family]
  have texts : ∀ record ∈ (recordsOf standard family.body).1, ∀ m ∈ record.body,
      m.2.asString?.isSome = true := by decide +kernel
  have whole : ∀ m ∈ record.body, m.2.Whole := by
    intro m hm
    have htext := texts record hrecord m hm
    cases hv : m.2 with
    | str s => exact True.intro
    | null | bool | num | arr | obj =>
      rw [hv] at htext
      cases htext
  have hparent : ∀ record ∈ (recordsOf standard family.body).1, record.logicalId = "c" →
      (record.shown (urisAmong [("p", ⟨"/repositories/1/archival_objects/1", 1⟩)])
          "/repositories/1/archival_objects/2" "parent").bind Registry.refValue?
        = some "/repositories/1/archival_objects/1" := by decide +kernel
  obtain ⟨shown, hfetch, -, -, -, hmembers⟩ := hread whole
  refine ⟨numbered_founded, saved, shown, hfetch, ?_⟩
  rw [hmembers]
  exact hparent record hrecord hid

end Accession.Batch
