import Accession.Proofs.Batch.Imports
import Accession.Store.Repositories
set_option autoImplicit false

namespace Accession.Batch

open Store (Database)

inductive Event where
  | repository (code name : String)
  | batch (i : Import)

/-- What an event makes of the database; a repository that is refused leaves it as it is. -/
def Event.apply (registry : Registry) (db : Database) : Event → Database
  | .repository code name =>
    match db.createRepository code name with
    | .ok (_, db') => db'
    | .error _ => db
  | .batch i => i.database registry db

def after (registry : Registry) (db : Database) (events : List Event) : Database :=
  events.foldl (Event.apply registry) db

section

variable {registry : Registry} {P : Database → Prop}
  (repository : ∀ db code name id db', P db → db.createRepository code name = .ok (id, db') → P db')
  (batch : ∀ (i : Import) db, P db → P (i.database registry db))

include repository batch

theorem apply_keeps {db : Database} (holds : P db) (event : Event) :
    P (event.apply registry db) := by
  cases event with
  | repository code name =>
    rw [Event.apply]
    split
    · rename_i id db' hcreated
      exact repository db code name id db' holds hcreated
    · exact holds
  | batch i => exact batch i db holds

theorem after_keeps {db : Database} (holds : P db) (events : List Event) :
    P (after registry db events) := by
  induction events generalizing db with
  | nil => exact holds
  | cons event rest ih => exact ih (apply_keeps repository batch holds event)

end

end Accession.Batch
