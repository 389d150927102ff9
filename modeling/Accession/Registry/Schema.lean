import Accession.Json.Basic
import Accession.Text.Blank
import Accession.Text.Integer
set_option autoImplicit false

namespace Accession.Registry

open Json (Value Members)

inductive FieldKind where
  | string
  | integer
  | boolean
  | array
  | object
  | ref (allowed : List String)
  | refList (allowed : List String)
  /-- An array of at least one name, each with a sort name that is not blank. -/
  | nameList
deriving DecidableEq, Repr

def FieldKind.allowed? : FieldKind → Option (List String)
  | .ref allowed => some allowed
  | .refList allowed => some allowed
  | _ => none

def FieldKind.isReference (kind : FieldKind) : Bool :=
  kind.allowed?.isSome

structure Field where
  name : String
  kind : FieldKind
  required : Bool
deriving DecidableEq, Repr

structure Schema where
  fields : List Field := []
deriving DecidableEq, Repr

def Schema.referenceFields (schema : Schema) : List Field :=
  schema.fields.filter (fun f => f.kind.isReference)

/-- The text of a reference: a string that is not empty, or that string under the key `ref` of an
object. -/
def refValue? : Value → Option String
  | .str s => if s.isEmpty then none else some s
  | .obj members => ((Members.get? members "ref").bind Value.asString?).filter (fun s => !s.isEmpty)
  | _ => none

inductive Violation where
  | missing
  | notString
  | notInteger
  | notBoolean
  | notArray
  | notObject
  | notReference
  | notReferences
  | elementNotReference (index : Nat)
  | notNames
  | noNames
  | nameWithoutSortName (index : Nat)
deriving DecidableEq, Repr

def Violation.message : Violation → String
  | .missing => "Property is required but was missing"
  | .notString => "Property was expected to be a string"
  | .notInteger => "Property was expected to be an integer"
  | .notBoolean => "Property was expected to be a boolean"
  | .notArray => "Property was expected to be an array"
  | .notObject => "Property was expected to be an object"
  | .notReference => "Property was expected to be a reference"
  | .notReferences => "Property was expected to be an array of references"
  | .elementNotReference i =>
    "Element " ++ Text.Integer.write i ++ " was expected to be a reference"
  | .notNames => "Property was expected to be an array of names"
  | .noNames => "At least one name is required"
  | .nameWithoutSortName i => "Name " ++ Text.Integer.write i ++ " is missing a sort_name"

def firstRefused {α : Type} (accepts : α → Bool) : (index : Nat) → List α → Option Nat
  | _, [] => none
  | i, x :: xs => if accepts x then firstRefused accepts (i + 1) xs else some i

def hasSortName (name : Value) : Bool :=
  match (name.member? "sort_name").bind Value.asString? with
  | some s => !Text.blank s
  | none => false

def Field.violation? (field : Field) (value : Value) : Option Violation :=
  match field.kind, value with
  | .string, .str s => if field.required && Text.blank s then some .missing else none
  | .string, _ => some .notString
  | .integer, .num (.int _) => none
  | .integer, _ => some .notInteger
  | .boolean, .bool _ => none
  | .boolean, _ => some .notBoolean
  | .array, .arr _ => none
  | .array, _ => some .notArray
  | .object, .obj _ => none
  | .object, _ => some .notObject
  | .ref _, v => if (refValue? v).isSome then none else some .notReference
  | .refList _, .arr items =>
    (firstRefused (fun v => (refValue? v).isSome) 0 items).map .elementNotReference
  | .refList _, _ => some .notReferences
  | .nameList, .arr [] => some .noNames
  | .nameList, .arr names => (firstRefused hasSortName 0 names).map .nameWithoutSortName
  | .nameList, _ => some .notNames

/-- The value of a field that is present and not null. -/
def present? (body : Members) (name : String) : Option Value :=
  (Members.get? body name).filter (fun v => !v.isNull)

def Field.check (field : Field) (body : Members) : Option Violation :=
  match present? body field.name with
  | none => if field.required then some .missing else none
  | some v => field.violation? v

def Field.report (field : Field) (v : Violation) : String :=
  field.name ++ ": " ++ v.message

def Schema.violations (schema : Schema) (body : Members) : List String :=
  schema.fields.filterMap (fun f => (f.check body).map f.report)

def Schema.admits (schema : Schema) (body : Members) : Bool :=
  schema.fields.all (fun f => (f.check body).isNone)

theorem Schema.violations_eq_nil_iff (schema : Schema) (body : Members) :
    schema.violations body = [] ↔ schema.admits body = true := by
  simp [Schema.violations, Schema.admits, List.filterMap_eq_nil_iff]

end Accession.Registry
