import Accession.Batch.Created
import Accession.Batch.Reader
import Accession.Batch.Storage
import Accession.Registry.Reference
set_option autoImplicit false

/-!
# Storing one record

A record refers to others by the logical identifiers of earlier records of its batch or by the uris
of stored records. Before it is stored every reference of a declared reference field is replaced by
the uri of the record it names, which must be of an allowed type and in scope: of the repository
that the batch goes to, or of none. Fields are taken in the order of the schema.
-/
namespace Accession.Batch

open Json (Value Members)
open Registry (Field RecordType)

structure Target where
  registry : Registry
  repository : Int

structure Site where
  subject : String
  field : String
  allowed : List String

namespace Site

def unresolved (site : Site) (reference : String) : ImportError :=
  .unresolved site.subject site.field reference

def notReference (site : Site) : ImportError :=
  .validation site.subject [site.field ++ ": Property was expected to be a reference"]

def notAllowed (site : Site) (typeName : String) : ImportError :=
  .validation site.subject
    [site.field ++ ": Reference to a " ++ typeName ++ " is not allowed (expected one of: "
      ++ ", ".intercalate site.allowed ++ ")"]

def parse (site : Site) (registry : Registry) (reference uri : String) :
    Except ImportError Reference :=
  match registry.parseReference? uri with
  | none => .error (site.unresolved reference)
  | some parsed =>
    if site.allowed.contains parsed.typeName then .ok parsed
    else .error (site.notAllowed parsed.typeName)

end Site

section

variable {ω : Type} (target : Target) (storage : Storage ω) (created : Created)

def resolve (site : Site) (reference : String) : Action ω String :=
  match created.get? reference with
  | some record => do
    let _ ← liftExcept (site.parse target.registry reference record.uri)
    return record.uri
  | none => do
    let parsed ← liftExcept (site.parse target.registry reference reference)
    if parsed.repository.any (· != target.repository) then throw (site.unresolved reference)
    match target.registry.get? parsed.typeName with
    | none => throw (site.unresolved reference)
    | some t =>
      if ← storage.recordExists t parsed.id parsed.repository then return reference
      else throw (site.unresolved reference)
where
  liftExcept {α : Type} (x : Except ImportError α) : Action ω α := ExceptT.mk (pure x)

def rewrite (site : Site) (value : Value) : Action ω Value :=
  match Registry.refValue? value with
  | none => throw site.notReference
  | some reference => do
    let uri ← resolve target storage created site reference
    match value with
    | .obj members => return .obj (Members.insert "ref" (.str uri) members)
    | _ => return .str uri

def rewriteAll (site : Site) : List Value → Action ω (List Value)
  | [] => return []
  | v :: rest => do
    let v ← rewrite target storage created site v
    let rest ← rewriteAll site rest
    return v :: rest

def rewriteField (subject : String) (field : Field) (body : Members) : Action ω Members :=
  let site : Site := ⟨subject, field.name, field.kind.allowed?.getD []⟩
  match Registry.present? body field.name, field.kind with
  | none, _ => return body
  | some (.arr items), .refList _ => do
    let items ← rewriteAll target storage created site items
    return body.insert field.name (.arr items)
  | some v, _ => do
    let v ← rewrite target storage created site v
    return body.insert field.name v

def rewriteFields (subject : String) : List Field → Members → Action ω Members
  | [], body => return body
  | field :: rest, body => do
    let body ← rewriteField target storage created subject field body
    rewriteFields subject rest body

/-- The sort name of the first name of an agent, the title of any other record. -/
def titleOf (t : RecordType) (body : Members) : String :=
  let title : Option Value :=
    if t.isAgent then do
      let names ← (← body.get? "names").asArray?
      (← names.head?).member? "sort_name"
    else body.get? "title"
  (title.bind Value.asString?).getD ""

def identifierOf (t : RecordType) (body : Members) : Option String := do
  let field ← t.identifierField
  (← body.get? field).asString?

/-- The body as it is stored: without the identifiers of the caller, and with its type. -/
def storedBody (t : RecordType) (body : Members) : Members :=
  ((body.swapRemove "uri").swapRemove "id").insert "jsonmodel_type" (.str t.name)

def repositoryOf (t : RecordType) : Option Int :=
  match t.scope with
  | .repository => some target.repository
  | .global => none

def newRecord (record : Record) (body : Members) : NewRecord where
  type := record.type
  logicalId := record.logicalId
  repository := repositoryOf target record.type
  title := titleOf record.type body
  identifier := identifierOf record.type body
  json := (storedBody record.type body).render

def persist (record : Record) : Action ω Persisted := do
  let fields := record.type.schema.referenceFields
  let body ← rewriteFields target storage created record.logicalId fields record.body
  let id ← storage.insert (newRecord target record body)
  return ⟨Registry.uriFor record.type target.repository id, id⟩

end

end Accession.Batch
