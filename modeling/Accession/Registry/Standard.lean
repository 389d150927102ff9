import Accession.Registry.Basic
set_option autoImplicit false

namespace Accession.Registry

def required (name : String) (kind : FieldKind) : Field := ⟨name, kind, true⟩
def optional (name : String) (kind : FieldKind) : Field := ⟨name, kind, false⟩

def archivalObject : RecordType where
  name := "archival_object"
  table := "archival_objects"
  uriSegment := "archival_objects"
  scope := .repository
  schema := ⟨[
    required "title" .string,
    optional "ref_id" .string,
    optional "level" .string,
    optional "component_id" .string,
    optional "position" .integer,
    optional "publish" .boolean,
    optional "parent" (.ref ["archival_object"]),
    optional "linked_agents" (.refList agentTypeNames),
    optional "classifications" (.refList ["classification", "classification_term"]),
    optional "dates" .array,
    optional "notes" .array]⟩
  identifierField := some "ref_id"

def classification : RecordType where
  name := "classification"
  table := "classifications"
  uriSegment := "classifications"
  scope := .repository
  schema := ⟨[
    required "identifier" .string,
    required "title" .string,
    optional "description" .string,
    optional "publish" .boolean,
    optional "creator" (.ref agentTypeNames)]⟩
  identifierField := some "identifier"

def classificationTerm : RecordType where
  name := "classification_term"
  table := "classification_terms"
  uriSegment := "classification_terms"
  scope := .repository
  schema := ⟨[
    required "identifier" .string,
    required "title" .string,
    optional "description" .string,
    optional "position" .integer,
    optional "publish" .boolean,
    required "classification" (.ref ["classification"]),
    optional "parent" (.ref ["classification_term"]),
    optional "creator" (.ref agentTypeNames)]⟩
  identifierField := some "identifier"

def agent (name segment : String) : RecordType where
  name := name
  table := name
  uriSegment := segment
  scope := .global
  schema := ⟨[
    required "names" .nameList,
    optional "dates_of_existence" .array,
    optional "agent_contacts" .array,
    optional "publish" .boolean]⟩

def standardTypes : List RecordType :=
  [archivalObject, classification, classificationTerm,
    agent "agent_person" "agents/people",
    agent "agent_family" "agents/families",
    agent "agent_corporate_entity" "agents/corporate_entities",
    agent "agent_software" "agents/software"]

def standard : Registry :=
  standardTypes.foldl register (empty "archival_object")

end Accession.Registry
