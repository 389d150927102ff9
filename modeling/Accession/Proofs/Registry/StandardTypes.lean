import Accession.Registry.Standard
import Accession.Store.Database
set_option autoImplicit false

namespace Accession.Registry

open Store (Database sameName)

theorem table_apart : ∀ t ∈ standard.types,
    sameName t.table Database.repositoriesName = false := by decide

theorem table_inj : ∀ t ∈ standard.types, ∀ u ∈ standard.types,
    sameName t.table u.table = true → t = u := by decide

theorem get?_name : ∀ t ∈ standard.types, standard.get? t.name = some t := by decide

theorem reference_scope : ∀ t ∈ standard.types, ∀ field ∈ t.schema.fields,
    field.kind.isReference = true → t.scope = .repository := by decide

theorem field_names : ∀ t ∈ standard.types,
    (t.schema.referenceFields.map Field.name).Nodup ∧
      ∀ field ∈ t.schema.fields, field.name ∉ ["uri", "id", "jsonmodel_type"] := by decide

theorem identifier_field : ∀ t ∈ standard.types, ∀ name ∈ t.identifierField,
    t.scope = .repository ∧
      t.schema.referenceFields.find? (fun field => field.name == name) = none := by decide

/-- The types whose records stand in a tree, by a parent of their own type. -/
def treeTypeNames : List String := ["archival_object", "classification_term"]

theorem parent_field : ∀ t ∈ standard.types, t.name ∈ treeTypeNames →
    ∃ field ∈ t.schema.fields, field.name = "parent" ∧ field.kind = .ref [t.name] := by decide

end Accession.Registry
