import Accession.Batch.Persist
import Accession.Batch.Worker
set_option autoImplicit false

namespace Accession.Batch

structure World (ω : Type) where
  storage : ω
  /-- Last one first. -/
  trail : List Step := []

namespace World

variable {ω α : Type}

def steps (world : World ω) : List Step :=
  world.trail.reverse

def step (s : Step) : StateM (World ω) Unit :=
  modify (fun world => { world with trail := s :: world.trail })

def note (a : Activity) : StateM (World ω) Unit :=
  step (.activity a)

def call (action : Action ω α) : StateM (World ω) (Except ImportError α) := fun world =>
  let (result, storage) := action world.storage
  (result, { world with storage })

end World

structure Processed where
  created : Created
  error : Option ImportError

section

variable {ω : Type} (target : Target) (storage : Storage ω)

/-- Stores records up to the first that fails; `ending` is the error after the last of them. -/
def persistAll (ending : Option ImportError) :
    List Record → Created → StateM (World ω) Processed
  | [], created => return ⟨created, ending⟩
  | record :: rest, created => do
    match ← World.call (persist target storage created record) with
    | .error e => return ⟨created, some e⟩
    | .ok persisted =>
      World.note .processed
      persistAll ending rest (created.insert record.logicalId persisted).1

def process (body : List UInt8) : StateM (World ω) Processed :=
  let (records, ending) := recordsOf target.registry body
  persistAll target storage ending records Created.empty

end

end Accession.Batch
