import Accession.Batch.Monitor
import Accession.Batch.Outcome
import Accession.Json.Writer
import Accession.Uuid
set_option autoImplicit false

namespace Accession.Batch

inductive Frame where
  | progress (importId : Uuid) (ticks : Nat) (monitor : Monitor)
  | outcome (importId : Uuid) (result : Outcome)

namespace Frame

def isOutcome : Frame → Bool
  | .outcome .. => true
  | .progress .. => false

def natural (n : Nat) : Json.Value :=
  .num (.int n)

def toJson : Frame → Json.Value
  | .progress importId ticks monitor =>
    .obj [("kind", .str "progress"), ("import_id", .str importId.render), ("ticks", natural ticks),
      ("phase", .str monitor.phase.name), ("attempt", natural monitor.attempt.toNat),
      ("bytes_spooled", natural monitor.bytesSpooled.toNat),
      ("records_processed", natural monitor.recordsProcessed.toNat)]
  | .outcome importId result =>
    .obj (("kind", .str "outcome") :: ("import_id", .str importId.render) :: result.members)

def line (frame : Frame) : String :=
  frame.toJson.render.push '\n'

end Frame

end Accession.Batch
