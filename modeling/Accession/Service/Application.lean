import Accession.Batch.Job
import Accession.Service.Error
import Accession.Service.NewRepository
import Accession.Service.Route
import Accession.Store.ReadBack
import Accession.Store.Repositories
set_option autoImplicit false

namespace Accession.Service

open Batch (Storage RetryPolicy)
open Store (Database)

structure Application (ω : Type) where
  registry : Registry
  storage : Storage ω
  database : ω → Database
  withDatabase : Database → ω → ω
  policy : RetryPolicy := {}
  interval : Nat := 1000

structure State (ω : Type) where
  store : ω
  lastError : Option String := none

/-- What a request meets that no earlier request decides. -/
structure Circumstances where
  importId : Uuid
  createdAt : Int → String
  /-- In seconds. -/
  uptime : Nat

def moduleName : String := "arcs-backend"
def version : String := "0.1.0"

section

variable {ω : Type} (app : Application ω) (around : Circumstances)

def refusal (e : Error) : Response :=
  .json e.status e.toJson

def failed (f : Failure) : Response :=
  refusal (.failed f)

def noRepository (id : Int) : Response :=
  refusal (.notFound ("Repository " ++ Text.Integer.write id))

def repositoryUri (id : Int) : String :=
  "/repositories/" ++ Text.Integer.write id

def health (state : State ω) : Response :=
  .json 200 (.obj ([("status", .str "ok"), ("module", .str moduleName), ("version", .str version),
    ("uptime_seconds", .num (.int around.uptime))]
    ++ match state.lastError with
      | none => []
      | some message => [("last_error", .str message)]))

def createRepository (request : Request) (state : State ω) : State ω × Response :=
  match NewRepository.ofRequest request with
  | .error e => (state, .text e.status e.message)
  | .ok new =>
    let code := Text.trim new.code
    let name := Text.trim new.name
    if code.isEmpty then (state, refusal (.badRequest "repo_code must not be empty"))
    else if name.isEmpty then (state, refusal (.badRequest "name must not be empty"))
    else
      match (app.database state.store).createRepository code name with
      | .error (.invalidInput m) => (state, refusal (.conflict m))
      | .error f => (state, failed f)
      | .ok (id, database) =>
        ({ state with store := app.withDatabase database state.store },
          .json 201 (.obj [("id", .num (.int id)), ("uri", .str (repositoryUri id))]))

def showRepository (id : Int) (state : State ω) : Response :=
  match (app.database state.store).repository? id with
  | .error f => failed f
  | .ok none => noRepository id
  | .ok (some r) =>
    .json 200 (.obj [("uri", .str r.uri), ("id", .num (.int r.id)), ("repo_code", .str r.code),
      ("name", .str r.name), ("created_at", .str (around.createdAt r.id))])

def showRecord (uri : String) (state : State ω) : Response :=
  match (app.database state.store).fetchRecord app.registry uri with
  | .error f => failed f
  | .ok none => refusal (.notFound uri)
  | .ok (some body) => .json 200 (.obj body)

def importBatch (repository : Int) (request : Request) (state : State ω) : State ω × Response :=
  match (app.database state.store).repositoryExists repository with
  | .error f => (state, failed f)
  | .ok false => (state, noRepository repository)
  | .ok true =>
    let job : Batch.Job :=
      { importId := around.importId, target := ⟨app.registry, repository⟩, policy := app.policy }
    let place : Batch.Workplace := { lastError := state.lastError }
    let (worker, store) := job.work app.storage place request.body state.store
    let pace : Batch.Pace := { interval := max 1 app.interval }
    let lines := (Batch.frames around.importId pace worker).map (fun f => f.2.line)
    ({ store, lastError := (place.after worker.steps).lastError }, .text 200 (String.join lines))

def badParameter (state : State ω) (e : ParameterError) : State ω × Response :=
  (state, .text 400 e.message)

def answer (route : Route) (request : Request) (state : State ω) : State ω × Response :=
  match route with
  | .health => (state, health around state)
  | .repositories => createRepository app request state
  | .repository id =>
    match Parameter.repository id with
    | .error e => badParameter state e
    | .ok id => (state, showRepository app around id state)
  | .batchImports owner =>
    match Parameter.repository owner with
    | .error e => badParameter state e
    | .ok id => importBatch app around id request state
  | .record owner segment id =>
    let uri : Except ParameterError String := do
      let owner ← Parameter.text "repo_id" owner
      let segment ← Parameter.text "segment" segment
      let id ← Parameter.text "id" id
      let owner ← Parameter.number (.notNumberAt 0) owner
      let id ← Parameter.number (.notNumberAt 2) id
      return repositoryUri owner ++ "/" ++ segment ++ "/" ++ Text.Integer.write id
    match uri with
    | .error e => badParameter state e
    | .ok uri => (state, showRecord app uri state)
  | .agent kind id =>
    let uri : Except ParameterError String := do
      let kind ← Parameter.text "kind" kind
      let id ← Parameter.text "id" id
      let id ← Parameter.number (.notNumberAt 1) id
      return "/agents/" ++ kind ++ "/" ++ Text.Integer.write id
    match uri with
    | .error e => badParameter state e
    | .ok uri => (state, showRecord app uri state)

/-- The answer to any request; one that asks for headers alone gets no body. -/
def handle (request : Request) (state : State ω) : State ω × Response :=
  match Route.ofTarget? request.target with
  | none => (state, .empty 404)
  | some route =>
    if !route.methods.admits request.method then (state, .notAllowed route.methods.shown)
    else
      let (state, response) := answer app around route request state
      (state, if request.method == "HEAD" then response.withoutBody else response)

end

end Accession.Service
