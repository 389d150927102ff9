import Accession.Proofs.Batch.Lifecycle
import Accession.Proofs.Json.Rereading
import Accession.Proofs.Service.Retrieval
import Accession.Proofs.Store.Layout
import Mathlib.Data.List.Nodup
set_option autoImplicit false

namespace Accession.Text

section Trimming

def Trimmed (s : String) : Prop :=
  (∀ c, s.toList.head? = some c → isBlank c = false) ∧
    ∀ c, s.toList.getLast? = some c → isBlank c = false

theorem isBlank_head_dropWhile {cs : List Char} {c : Char}
    (h : (cs.dropWhile isBlank).head? = some c) : isBlank c = false := by
  have hnot := List.head?_dropWhile_not isBlank cs
  rw [h] at hnot
  exact hnot

/-- The second text is the first one without the blank characters at its ends. -/
structure Trims (s t : String) : Prop where
  trimmed : Trimmed t
  between : ∃ before after, before.all isBlank = true ∧ after.all isBlank = true ∧
    s.toList = before ++ (t.toList ++ after)

theorem trims_trim (s : String) : Trims s (trim s) := by
  have hsuffix := List.dropWhile_suffix isBlank (l := (s.toList.dropWhile isBlank).reverse)
  constructor
  · rw [Trimmed, trim, String.toList_ofList, trimEnds]
    constructor
    · intro c hc
      rw [List.head?_reverse] at hc
      obtain ⟨front, hfront⟩ := hsuffix
      have hhead : (s.toList.dropWhile isBlank).head? = some c := by
        rw [← List.getLast?_reverse, ← hfront, List.getLast?_append, hc]
        rfl
      exact isBlank_head_dropWhile hhead
    · intro c hc
      rw [List.getLast?_reverse] at hc
      exact isBlank_head_dropWhile hc
  · refine ⟨s.toList.takeWhile isBlank,
      ((s.toList.dropWhile isBlank).reverse.takeWhile isBlank).reverse, List.all_takeWhile, ?_, ?_⟩
    · rw [List.all_reverse, List.all_takeWhile]
    · rw [trim, String.toList_ofList, trimEnds, ← List.reverse_append,
        List.takeWhile_append_dropWhile, List.reverse_reverse, List.takeWhile_append_dropWhile]

end Trimming

end Accession.Text

namespace Accession.Store

/-- A table of repositories that were created one after another. -/
structure Repositories.Sound (rs : Repositories) : Prop where
  texts : ∀ r ∈ rs.rows, (Text.Trimmed r.code ∧ r.code ≠ "") ∧ (Text.Trimmed r.name ∧ r.name ≠ "")
  codes : (rs.rows.map Repository.code).Nodup
  order : (rs.rows.map Repository.id).Pairwise (· < ·)
  given : ∀ r ∈ rs.rows, 1 ≤ r.id ∧ r.id ≤ rs.lastId
  count : rs.lastId = rs.rows.length
  room : rs.lastId ≤ maxId

namespace Repositories

variable {rs : Repositories} {code name : String}

theorem containsCode_eq_true_iff : rs.containsCode code = true ↔ ∃ r ∈ rs.rows, r.code = code := by
  simp [containsCode]

theorem sound_empty : Sound {} :=
  ⟨nofun, .nil, .nil, nofun, rfl, by decide⟩

theorem Sound.push (sound : rs.Sound) (hcode : Text.Trimmed code ∧ code ≠ "")
    (hname : Text.Trimmed name ∧ name ≠ "") (unused : rs.containsCode code = false)
    (room : rs.lastId < maxId) : (rs.push code name).Sound where
  texts r hr := by
    obtain hr | hr := List.mem_append.1 hr
    · exact sound.texts r hr
    · obtain rfl := List.mem_singleton.1 hr
      exact ⟨hcode, hname⟩
  codes := by
    rw [Repositories.push, List.map_append, List.nodup_append]
    refine ⟨sound.codes, List.nodup_singleton _, ?_⟩
    intro used hused other hother
    obtain ⟨r, hr, rfl⟩ := List.mem_map.1 hused
    obtain rfl := List.mem_singleton.1 hother
    intro heq
    rw [containsCode_eq_true_iff.2 ⟨r, hr, heq⟩] at unused
    cases unused
  order := by
    rw [Repositories.push, List.map_append, List.pairwise_append]
    refine ⟨sound.order, List.pairwise_singleton _ _, ?_⟩
    intro id hid other hother
    obtain ⟨r, hr, rfl⟩ := List.mem_map.1 hid
    obtain rfl := List.mem_singleton.1 hother
    exact Int.lt_add_one_of_le (sound.given r hr).2
  given r hr := by
    have hcount := sound.count
    obtain hr | hr := List.mem_append.1 hr
    · obtain ⟨hlow, hhigh⟩ := sound.given r hr
      exact ⟨hlow, Int.le_trans hhigh (Int.le_add_one (Int.le_refl _))⟩
    · obtain rfl := List.mem_singleton.1 hr
      exact ⟨by dsimp only; omega, Int.le_refl _⟩
  count := by
    simp [Repositories.push, sound.count]
  room := room

theorem Sound.find?_id (sound : rs.Sound) {r : Repository} (hr : r ∈ rs.rows) :
    rs.find? r.id = some r := by
  have hids : (rs.rows.map Repository.id).Nodup := sound.order.imp Int.ne_of_lt
  cases hfind : rs.find? r.id with
  | none =>
    have hnone := List.find?_eq_none.1 hfind r hr
    simp at hnone
  | some other =>
    have hid : other.id = r.id := by simpa using List.find?_some hfind
    rw [List.inj_on_of_nodup_map hids (List.mem_of_find?_eq_some hfind) hr hid]

end Repositories

theorem repositories_createSchema (registry : Registry) :
    (createSchema registry {}).2.repositories = some {} := by
  have absent : ∀ t ∈ registry.types,
      ({ repositories := some {} } : Database).table? t.table = none := fun _ _ => rfl
  obtain ⟨result, new, hadds, -⟩ := Schema.createTypes_adds (.refl _) absent []
  have hrun : createSchema registry {} = (result, _) := hadds
  rw [hrun]
  rfl

end Accession.Store

namespace Accession.Service

open Batch (FaultPlan RetryPolicy Watched)
open Store (Connection Repositories Repository createSchema maxId)
open Text (Trimmed)

section Requests

/-- A request for a new repository that can be read. -/
structure Posts (request : Request) (new : NewRepository) : Prop where
  method : request.method = "POST"
  route : Route.ofTarget? request.target = some .repositories
  body : NewRepository.ofRequest request = .ok new

def NewRepository.toJson (new : NewRepository) : Json.Value :=
  .obj [(codeKey, .str new.code), (nameKey, .str new.name)]

def posting (new : NewRepository) : Request where
  method := "POST"
  target := "/repositories"
  headers := [("content-type", "application/json")]
  body := [.octets (Text.Utf8.encode new.toJson.render)]

section Reading

open Json

theorem valueOf_quoted (key text : String) (s : List UInt8) :
    NewRepository.valueOf key NewRepository.readText (0x3A :: (quoted text ++ s))
      = .ok (text, s) := by
  have hcolon : readColon (0x3A :: (quoted text ++ s)) = .ok (quoted text ++ s) := by
    rw [readColon, skipSpace_of_not_space rfl]
    rfl
  have hread : NewRepository.readText (quoted text ++ s) = .ok (text, s) := by
    rw [quoted_append, NewRepository.readText, skipSpace_of_not_space rfl]
    exact Literal.read_quoted text s
  rw [NewRepository.valueOf, hcolon]
  simp only [bind, Except.bind, hread]
  rfl

theorem read_toJson (new : NewRepository) :
    NewRepository.read (Text.Utf8.encode new.toJson.render) = .ok new := by
  let members : Members := [(NewRepository.codeKey, .str new.code),
    (NewRepository.nameKey, .str new.name)]
  have hlength := length_members_le true members
  have htext : Text.Utf8.encode new.toJson.render
      = 0x7B :: (memberOctets true members ++ [0x7D]) := by
    rw [encode_render]
    rfl
  obtain ⟨walk, hwalk⟩ :
      ∃ walk, (0x7B :: (memberOctets true members ++ [0x7D])).length = walk + 3 := by
    refine ⟨(memberOctets true members).length - 1, ?_⟩
    simp only [List.length_cons, List.length_append, List.length_nil, members] at hlength ⊢
    omega
  rw [htext, NewRepository.read, skipSpace_of_not_space rfl, hwalk]
  have hcode : ∀ s, NewRepository.member NewRepository.codeKey {} (0x3A :: (quoted new.code ++ s))
      = .ok ({ code := some new.code }, s) := by
    intro s
    rw [NewRepository.member, if_pos (by decide)]
    simp only [Option.isSome_none, Bool.false_eq_true, if_false, valueOf_quoted, bind, Except.bind]
    rfl
  have hname : ∀ s, NewRepository.member NewRepository.nameKey { code := some new.code }
      (0x3A :: (quoted new.name ++ s))
        = .ok ({ code := some new.code, name := some new.name }, s) := by
    intro s
    rw [NewRepository.member, if_neg (by decide), if_pos (by decide)]
    simp only [Option.isSome_none, Bool.false_eq_true, if_false, valueOf_quoted, bind, Except.bind]
    rfl
  simp only [members, memberOctets, octets, List.append_assoc, List.cons_append, List.append_nil]
  simp only [bind, Except.bind]
  rw [members_next _ (hcode _), members_next _ (hname _), members_close]
  rfl

end Reading

theorem posts_posting {new : NewRepository}
    (fits : (Text.Utf8.encode new.toJson.render).length ≤ bodyLimit) : Posts (posting new) new where
  method := rfl
  route := show Route.ofTarget? "/repositories" = some .repositories by decide
  body := by
    have hreceive : receive bodyLimit (posting new).body
        = .ok (Text.Utf8.encode new.toJson.render) := by
      simp [posting, receive, Nat.not_lt.2 fits, Except.map]
    have hdeclares : declaresJson (some "application/json") = true := by decide
    have hheader : (posting new).contentType? = some "application/json" := rfl
    rw [NewRepository.ofRequest, hheader, hdeclares]
    simp only [Bool.not_true, Bool.false_eq_true, if_false, hreceive, bind, Except.bind,
      read_toJson]
    rfl

end Requests

/-- How a service is set up, over a database whose imports run in transactions or not. -/
structure Setup where
  registry : Registry
  transactional : Bool := true
  policy : RetryPolicy := {}
  interval : Nat := 1000

/-- A request with what it meets, the failures of the storage included. -/
structure Visit where
  request : Request
  around : Circumstances
  faults : FaultPlan := FaultPlan.empty

namespace Setup

variable (setup : Setup)

def application (faults : FaultPlan) : Application (Watched Connection) where
  registry := setup.registry
  storage := (Connection.storage setup.transactional).watched faults
  database w := w.inner.database
  withDatabase database w := { w with inner := { w.inner with database } }
  policy := setup.policy
  interval := setup.interval

def start : State (Watched Connection) where
  store := { inner := { database := (createSchema setup.registry {}).2 } }

def serve (state : State (Watched Connection)) (visit : Visit) :
    State (Watched Connection) × Response :=
  handle (setup.application visit.faults) visit.around visit.request state

def after (state : State (Watched Connection)) (visits : List Visit) : State (Watched Connection) :=
  visits.foldl (fun state visit => (setup.serve state visit).1) state

end Setup

def State.repositories (state : State (Watched Connection)) : Option Repositories :=
  state.store.inner.database.repositories

section Creating

variable {setup : Setup} {state : State (Watched Connection)} {rs : Repositories}

theorem createRepository_eq {ω : Type} {app : Application ω} {request : Request} {state : State ω}
    {new : NewRepository} (body : NewRepository.ofRequest request = .ok new)
    (founded : (app.database state.store).repositories = some rs) :
    createRepository app request state =
      let code := Text.trim new.code
      let name := Text.trim new.name
      if code = "" then (state, refusal (.badRequest "repo_code must not be empty"))
      else if name = "" then (state, refusal (.badRequest "name must not be empty"))
      else if maxId ≤ rs.lastId then (state, failed (.database Store.full))
      else if rs.containsCode code then
        (state, refusal (.conflict ("Repository code '" ++ code ++ "' is already in use")))
      else
        ({ state with
            store := app.withDatabase
              ({ app.database state.store with repositories := some (rs.push code name) })
              state.store },
          .json 201 (.obj [("id", .num (.int (rs.lastId + 1))),
            ("uri", .str (repositoryUri (rs.lastId + 1)))])) := by
  rw [createRepository, body]
  simp only [String.isEmpty_iff]
  split
  · rfl
  split
  · rfl
  rw [Store.Database.createRepository_eq founded]
  by_cases hfull : maxId ≤ rs.lastId
  · rw [if_pos hfull, if_pos hfull]
  rw [if_neg hfull, if_neg hfull]
  by_cases hused : rs.containsCode (Text.trim new.code) = true
  · rw [if_pos hused, if_pos hused]
  · rw [if_neg hused, if_neg hused]

theorem serve_posts {visit : Visit} {new : NewRepository} (posts : Posts visit.request new) :
    setup.serve state visit
      = createRepository (setup.application visit.faults) visit.request state := by
  rw [Setup.serve, handle, posts.route]
  simp [Route.methods, Route.Methods.admits, posts.method, answer]

/-- What comes of a request for a repository with a trimmed code and name, where there are others. -/
inductive Answers (rs : Repositories) (code name : String) (state : State (Watched Connection)) :
    State (Watched Connection) → Response → Prop where
  | blank (message : String) (hblank : code = "" ∨ name = "") :
      Answers rs code name state state (refusal (.badRequest message))
  | full (hcode : code ≠ "") (hname : name ≠ "") (hfull : maxId ≤ rs.lastId) :
      Answers rs code name state state (failed (.database Store.full))
  | used (message : String) (hcode : code ≠ "") (hname : name ≠ "") (room : rs.lastId < maxId)
      (hused : rs.containsCode code = true) :
      Answers rs code name state state (refusal (.conflict message))
  | created (after : State (Watched Connection)) (hcode : code ≠ "") (hname : name ≠ "")
      (room : rs.lastId < maxId) (unused : rs.containsCode code = false)
      (pushed : after.repositories = some (rs.push code name)) :
      Answers rs code name state after (.json 201 (.obj [("id", .num (.int (rs.lastId + 1))),
        ("uri", .str (repositoryUri (rs.lastId + 1)))]))

namespace Answers

variable {code name : String} {after : State (Watched Connection)} {response : Response}
  (answers : Answers rs code name state after response)

include answers

theorem status_eq_created_iff :
    response.status = 201 ↔
      code ≠ "" ∧ name ≠ "" ∧ rs.containsCode code = false ∧ rs.lastId < maxId := by
  cases answers with
  | blank message hblank =>
    refine iff_of_false nofun ?_
    rintro ⟨hcode, hname, -⟩
    exact hblank.elim hcode hname
  | full hcode hname hfull => exact iff_of_false nofun fun h => Int.not_le.2 h.2.2.2 hfull
  | used message hcode hname room hused =>
    refine iff_of_false nofun ?_
    rintro ⟨-, -, unused, -⟩
    rw [hused] at unused
    cases unused
  | created _ hcode hname room unused => exact iff_of_true rfl ⟨hcode, hname, unused, room⟩

theorem of_created (h : response.status = 201) :
    after.repositories = some (rs.push code name) ∧
      response = .json 201 (.obj [("id", .num (.int (rs.lastId + 1))),
        ("uri", .str (repositoryUri (rs.lastId + 1)))]) := by
  cases answers with
  | blank | full | used => cases h
  | created _ _ _ _ _ pushed => exact ⟨pushed, rfl⟩

theorem of_blank (h : code = "" ∨ name = "") : response.status = 400 ∧ after = state := by
  cases answers with
  | blank => exact ⟨rfl, rfl⟩
  | full hcode hname | used _ hcode hname | created _ hcode hname =>
    exact absurd h (not_or.2 ⟨hcode, hname⟩)

theorem of_used (hcode : code ≠ "") (hname : name ≠ "") (hused : rs.containsCode code = true) :
    after = state ∧ (rs.lastId < maxId → response.status = 409) := by
  cases answers with
  | blank _ hblank => exact absurd hblank (not_or.2 ⟨hcode, hname⟩)
  | full _ _ hfull => exact ⟨rfl, fun room => absurd hfull (Int.not_le.2 room)⟩
  | used => exact ⟨rfl, fun _ => rfl⟩
  | created _ _ _ _ unused =>
    rw [hused] at unused
    cases unused

end Answers

theorem serve_answers {visit : Visit} {new : NewRepository} (posts : Posts visit.request new)
    (founded : state.repositories = some rs) :
    Answers rs (Text.trim new.code) (Text.trim new.name) state (setup.serve state visit).1
      (setup.serve state visit).2 := by
  rw [serve_posts posts, createRepository_eq posts.body founded]
  dsimp only
  by_cases hcode : Text.trim new.code = ""
  · rw [if_pos hcode]
    exact .blank _ (.inl hcode)
  by_cases hname : Text.trim new.name = ""
  · rw [if_neg hcode, if_pos hname]
    exact .blank _ (.inr hname)
  by_cases hfull : maxId ≤ rs.lastId
  · rw [if_neg hcode, if_neg hname, if_pos hfull]
    exact .full hcode hname hfull
  have room := Int.not_le.1 hfull
  by_cases hused : rs.containsCode (Text.trim new.code) = true
  · rw [if_neg hcode, if_neg hname, if_neg hfull, if_pos hused]
    exact .used _ hcode hname room hused
  · rw [if_neg hcode, if_neg hname, if_neg hfull, if_neg hused]
    exact .created _ hcode hname room (Bool.eq_false_iff.2 hused) rfl

end Creating

section Serving

variable (setup : Setup) (visit : Visit) (state : State (Watched Connection))

section

open Batch

/-- An import stores records and has nothing to do with repositories. -/
theorem repositories_result (job : Job) (faults : FaultPlan) (body : List Chunk)
    (store : Watched Connection) :
    (job.result ((Connection.storage setup.transactional).watched faults) body
        store).2.inner.database.repositories
      = store.inner.database.repositories := by
  rw [Job.result]
  cases received body with
  | error message => rfl
  | ok octets =>
    have hstep : ∀ record ∈ (recordsOf job.target.registry octets).1, ∀ created c persisted db,
        created.get? record.logicalId = none → created.Indexed →
        c.database.repositories = store.inner.database.repositories →
        Stores job.target created c record persisted db →
        db.repositories = store.inner.database.repositories := by
      rintro record - created c persisted db - - holds ⟨_, _, -, hinsert, -⟩
      exact (Store.Database.repositories_insert hinsert).trans holds
    obtain ⟨outcome, world, hrun, hkept, -, -⟩ := attempts_end job.target setup.transactional faults
      octets (P := fun _ db => db.repositories = store.inner.database.repositories) hstep job.policy
      (job.policy.attempts - 1) 1 ⟨store, []⟩ rfl
    have hresult : run job.target ((Connection.storage setup.transactional).watched faults)
        job.policy octets ⟨store, []⟩ = (outcome, world) := hrun
    dsimp only
    rw [hresult]
    exact hkept

end

theorem repositories_importBatch (repository : Int) (request : Request) :
    (importBatch (setup.application visit.faults) visit.around repository request
      state).1.repositories = state.repositories := by
  rw [importBatch]
  split
  · rfl
  · rfl
  · let job : Batch.Job :=
      { importId := visit.around.importId, target := ⟨setup.registry, repository⟩,
        policy := setup.policy }
    obtain ⟨steps, hwork, -⟩ := job.work_run
      ((Connection.storage setup.transactional).watched visit.faults)
      { lastError := state.lastError } request.body state.store
    have hkept := repositories_result setup job visit.faults request.body state.store
    dsimp only [Setup.application]
    rw [hwork]
    exact hkept

variable {setup visit state} {rs : Repositories}

theorem answer_repositories {route : Route} (elsewhere : route ≠ .repositories) :
    (answer (setup.application visit.faults) visit.around route visit.request
      state).1.repositories = state.repositories := by
  cases route with
  | repositories => exact absurd rfl elsewhere
  | health => rfl
  | repository | record | agent =>
    rw [answer]
    split <;> rfl
  | batchImports owner =>
    rw [answer]
    split
    · rfl
    · exact repositories_importBatch setup visit state _ visit.request

theorem serve_sound (visit : Visit) (founded : state.repositories = some rs) (sound : rs.Sound) :
    ∃ rs', (setup.serve state visit).1.repositories = some rs' ∧ rs'.Sound ∧
      rs.rows <+: rs'.rows ∧ rs'.rows.length ≤ rs.rows.length + 1 := by
  have unchanged : ∀ {after : State (Watched Connection)}, after.repositories = some rs →
      ∃ rs', after.repositories = some rs' ∧ rs'.Sound ∧ rs.rows <+: rs'.rows ∧
        rs'.rows.length ≤ rs.rows.length + 1 := by
    intro after h
    exact ⟨rs, h, sound, List.prefix_rfl, Nat.le_succ _⟩
  cases hroute : Route.ofTarget? visit.request.target with
  | none =>
    rw [Setup.serve, handle, hroute]
    exact unchanged founded
  | some route =>
    by_cases hadmits : route.methods.admits visit.request.method = true
    · have hstate : (setup.serve state visit).1 = (answer (setup.application visit.faults)
          visit.around route visit.request state).1 := by
        rw [Setup.serve, handle, hroute]
        simp [hadmits]
      by_cases hposted : route = .repositories
      · subst hposted
        cases hbody : NewRepository.ofRequest visit.request with
        | error e =>
          rw [hstate, answer, createRepository, hbody]
          exact unchanged founded
        | ok new =>
          have posts : Posts visit.request new := ⟨eq_of_beq hadmits, hroute, hbody⟩
          have answers : Answers rs (Text.trim new.code) (Text.trim new.name) state
            (setup.serve state visit).1 (setup.serve state visit).2 := serve_answers posts founded
          generalize (setup.serve state visit).1 = after at answers ⊢
          generalize (setup.serve state visit).2 = response at answers
          cases answers with
          | blank | full | used => exact unchanged founded
          | created _ hcode hname room unused pushed =>
            refine ⟨_, pushed, ?_, List.prefix_append _ _, ?_⟩
            · exact sound.push ⟨(Text.trims_trim new.code).trimmed, hcode⟩
                ⟨(Text.trims_trim new.name).trimmed, hname⟩ unused room
            · rw [Repositories.push, List.length_append]
              exact Nat.le_refl _
      · rw [hstate]
        exact unchanged ((answer_repositories hposted).trans founded)
    · rw [Setup.serve, handle, hroute]
      simp only [hadmits]
      exact unchanged founded

theorem after_sound (setup : Setup) (founded : state.repositories = some rs) (sound : rs.Sound)
    (visits : List Visit) :
    ∃ rs', (setup.after state visits).repositories = some rs' ∧ rs'.Sound ∧
      rs.rows <+: rs'.rows ∧ rs'.rows.length ≤ rs.rows.length + visits.length := by
  induction visits generalizing state rs with
  | nil => exact ⟨rs, founded, sound, List.prefix_rfl, Nat.le_refl _⟩
  | cons visit visits ih =>
    obtain ⟨mid, hmid, hsound, hprefix, hlength⟩ := serve_sound visit founded sound
    obtain ⟨rs', hrs', hsound', hprefix', hlength'⟩ := ih hmid hsound
    refine ⟨rs', hrs', hsound', hprefix.trans hprefix', ?_⟩
    rw [List.length_cons]
    omega

end Serving

section Showing

variable {setup : Setup} {state : State (Watched Connection)} {rs : Repositories}

theorem ofTarget?_repositoryUri (id : Int) :
    Route.ofTarget? (repositoryUri id) = some (.repository (Text.Integer.write id)) := by
  have hplain := Text.Integer.isPlain_write id
  have hsplit := Text.Path.split_of_not_mem (Text.Integer.slash_not_mem_write id)
  have hword : Text.Path.split "repositories".toList = ["repositories".toList] := by decide
  have htarget : (repositoryUri id).toList
      = '/' :: ("repositories".toList ++ '/' :: (Text.Integer.write id).toList) := by
    simp [repositoryUri, String.toList_append]
  rw [Route.ofTarget?_of_split htarget, Text.Path.split_append, hword, hsplit]
  · simp [Route.ofParts?, Text.Integer.isEmpty_write]
  · have hfirst : "repositories".toList.all Text.isPlain = true := by decide
    have hbetween : Text.isPlain '/' = true := by decide
    simp only [List.all_append, List.all_cons, hfirst, hbetween, hplain, Bool.and_self]

theorem serve_shows (founded : state.repositories = some rs) (sound : rs.Sound) {r : Repository}
    (hr : r ∈ rs.rows) {visit : Visit} (hmethod : visit.request.method = "GET")
    (htarget : visit.request.target = repositoryUri r.id) :
    setup.serve state visit = (state, .json 200 (.obj [("uri", .str (repositoryUri r.id)),
      ("id", .num (.int r.id)), ("repo_code", .str r.code), ("name", .str r.name),
      ("created_at", .str (visit.around.createdAt r.id))])) := by
  have hid : Registry.isId r.id = true := by
    obtain ⟨hlow, hhigh⟩ := sound.given r hr
    rw [Registry.isId, Bool.and_eq_true, decide_eq_true_eq, decide_eq_true_eq]
    exact ⟨hlow, Int.le_trans hhigh sound.room⟩
  have hparameter : Parameter.repository (Text.Integer.write r.id) = .ok r.id := by
    rw [Parameter.repository, Parameter.text_of_plain (Text.Integer.isPlain_write r.id)]
    exact Parameter.number_write hid
  have hfound : state.store.inner.database.repository? r.id = .ok (some r) := by
    rw [Store.Database.repository?, Store.Database.repositoryTable,
      show state.store.inner.database.repositories = some rs from founded]
    exact congrArg Except.ok (sound.find?_id hr)
  refine handle_reading _ _ state hmethod (htarget ▸ ofTarget?_repositoryUri r.id) rfl ?_
  rw [answer, hparameter]
  dsimp only
  rw [showRepository, show (setup.application visit.faults).database state.store
    = state.store.inner.database from rfl, hfound]
  rfl

end Showing

/-- Whatever was asked of a service since its schema was created, the codes and names that it stores
are trimmed and not empty, and no code is stored twice. A request for a repository is then answered
by 201 exactly if its code and name are not blank, the code is not in use once trimmed, and an id is
left, of which every visit takes one at most. The id is larger than all there are, and its uri shows
the trimmed code and name whatever is asked in between. A blank code or name is answered by 400 and
a code in use by 409, and either leaves everything as it was. -/
theorem repositories_sound (setup : Setup) (visits : List Visit) :
    ∃ rs, (setup.after setup.start visits).repositories = some rs ∧
      rs.rows.length ≤ visits.length ∧
      (∀ r ∈ rs.rows, (Trimmed r.code ∧ r.code ≠ "") ∧ (Trimmed r.name ∧ r.name ≠ "")) ∧
      (rs.rows.map Repository.code).Nodup ∧
      ∀ (visit : Visit) (new : NewRepository), Posts visit.request new →
        let state := setup.after setup.start visits
        let after := (setup.serve state visit).1
        let response := (setup.serve state visit).2
        let code := Text.trim new.code
        let name := Text.trim new.name
        (response.status = 201 ↔
          code ≠ "" ∧ name ≠ "" ∧ (∀ r ∈ rs.rows, r.code ≠ code) ∧ rs.rows.length < maxId) ∧
        (response.status = 201 → ∃ id, (∀ r ∈ rs.rows, r.id < id) ∧
          response = .json 201 (.obj [("id", .num (.int id)), ("uri", .str (repositoryUri id))]) ∧
          ∀ (later : List Visit) (reading : Visit), reading.request.method = "GET" →
            reading.request.target = repositoryUri id →
            (setup.serve (setup.after after later) reading).2
              = .json 200 (.obj [("uri", .str (repositoryUri id)), ("id", .num (.int id)),
                ("repo_code", .str code), ("name", .str name),
                ("created_at", .str (reading.around.createdAt id))])) ∧
        (code = "" ∨ name = "" → response.status = 400 ∧ after = state) ∧
        (code ≠ "" → name ≠ "" → (∃ r ∈ rs.rows, r.code = code) →
          after = state ∧ (rs.rows.length < maxId → response.status = 409)) := by
  have hstart : setup.start.repositories = some {} :=
    Store.repositories_createSchema setup.registry
  obtain ⟨rs, founded, sound, -, hlength⟩ :=
    after_sound setup hstart Repositories.sound_empty visits
  refine ⟨rs, founded, by simpa using hlength, sound.texts, sound.codes, ?_⟩
  intro visit new posts state after response code name
  have answers : Answers rs code name state after response := serve_answers posts founded
  have unused_iff : rs.containsCode code = false ↔ ∀ r ∈ rs.rows, r.code ≠ code := by
    rw [← Bool.not_eq_true, Repositories.containsCode_eq_true_iff]
    simp
  rw [← sound.count, ← unused_iff, ← Repositories.containsCode_eq_true_iff]
  refine ⟨answers.status_eq_created_iff, ?_, answers.of_blank, answers.of_used⟩
  intro hstatus
  obtain ⟨hcode, hname, unused, room⟩ := answers.status_eq_created_iff.1 hstatus
  obtain ⟨pushed, hresponse⟩ := answers.of_created hstatus
  have hsound := sound.push ⟨(Text.trims_trim new.code).trimmed, hcode⟩
    ⟨(Text.trims_trim new.name).trimmed, hname⟩ unused room
  refine ⟨rs.lastId + 1, fun r hr => Int.lt_add_one_of_le (sound.given r hr).2, hresponse, ?_⟩
  intro later reading hmethod htarget
  -- later visits only add rows, and ids are distinct, so the row is found again
  obtain ⟨rs', founded', sound', hprefix, -⟩ := after_sound setup pushed hsound later
  have hr := hprefix.subset (List.mem_append_right _ (List.mem_singleton_self _))
  rw [serve_shows founded' sound' hr hmethod htarget]

def desk : Setup := { registry := Registry.standard }

def asking (code name : String) : Visit where
  request := posting ⟨code, name⟩
  around := ⟨Uuid.zero, fun _ => "", 0⟩

/-- A code is taken whatever stands around it in the request. -/
theorem repositories_sound_padded :
    (desk.after desk.start [asking "\u00a0MSS " "Manuscripts"]).repositories
        = some ⟨[⟨1, "MSS", "Manuscripts"⟩], 1⟩ ∧
      Posts (asking "MSS\n" "Again").request ⟨"MSS\n", "Again"⟩ ∧
      (desk.serve (desk.after desk.start [asking "\u00a0MSS " "Manuscripts"])
        (asking "MSS\n" "Again")).2.status = 409 := by
  have stored : (desk.after desk.start [asking "\u00a0MSS " "Manuscripts"]).repositories
      = some ⟨[⟨1, "MSS", "Manuscripts"⟩], 1⟩ := by decide +kernel
  have posts : Posts (asking "MSS\n" "Again").request ⟨"MSS\n", "Again"⟩ :=
    posts_posting (by decide +kernel)
  obtain ⟨rs, founded, -, -, -, hposts⟩ :=
    repositories_sound desk [asking "\u00a0MSS " "Manuscripts"]
  obtain rfl := Option.some.inj (founded.symm.trans stored)
  obtain ⟨-, -, -, hused⟩ := hposts (asking "MSS\n" "Again") _ posts
  obtain ⟨-, hconflict⟩ := hused (by decide) (by decide) (by decide)
  exact ⟨stored, posts, hconflict (by decide)⟩

end Accession.Service
