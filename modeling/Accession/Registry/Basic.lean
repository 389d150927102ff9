import Accession.Registry.Schema
set_option autoImplicit false

namespace Accession.Registry

/-- Whether the records of a type belong to a repository or to none. -/
inductive Scope where
  | repository
  | global
deriving DecidableEq, Repr

structure RecordType where
  name : String
  table : String
  uriSegment : String
  scope : Scope
  schema : Schema := {}
  identifierField : Option String := none
deriving DecidableEq, Repr

def agentTypeNames : List String :=
  ["agent_person", "agent_family", "agent_corporate_entity", "agent_software"]

def RecordType.isAgent (t : RecordType) : Bool :=
  agentTypeNames.contains t.name

end Registry

structure Registry where
  types : List Registry.RecordType := []
  defaultName : String
deriving DecidableEq, Repr

namespace Registry

def empty (defaultName : String) : Registry := ⟨[], defaultName⟩

def register (registry : Registry) (t : RecordType) : Registry :=
  { registry with types := registry.types.filter (fun u => u.name != t.name) ++ [t] }

def get? (registry : Registry) (name : String) : Option RecordType :=
  registry.types.find? (fun t => t.name == name)

def defaultType? (registry : Registry) : Option RecordType :=
  registry.get? registry.defaultName

def agentTypes (registry : Registry) : List RecordType :=
  registry.types.filter (·.isAgent)

def isAgentType (registry : Registry) (name : String) : Bool :=
  ((registry.get? name).map (·.isAgent)).getD false

end Registry

end Accession
