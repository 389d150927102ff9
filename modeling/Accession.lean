import Accession.Batch.ReceivedFrame
import Accession.Batch.Watched
import Accession.Proofs.Batch.Acceptance
import Accession.Proofs.Batch.Decoding
import Accession.Proofs.Batch.Descent
import Accession.Proofs.Batch.Filing
import Accession.Proofs.Batch.Framing
import Accession.Proofs.Batch.Integrity
import Accession.Proofs.Batch.Isolation
import Accession.Proofs.Batch.Lifecycle
import Accession.Proofs.Batch.Repetition
import Accession.Proofs.Batch.Spooling
import Accession.Proofs.Batch.Success
import Accession.Proofs.Batch.TruthfulOutcome
import Accession.Proofs.Json.Exact
import Accession.Proofs.Service.Retrieval
import Accession.Registry.Standard
import Accession.Service.Application
import Accession.Settings.Read
import Accession.Settings.RootFolder
import Accession.Store.Connection
import Accession.Store.Schema
import Accession.Proofs.Batch.Frames
import Accession.Proofs.Batch.Ticking
import Accession.Proofs.Batch.Prefixes
import Accession.Proofs.Batch.Modes
import Accession.Proofs.Batch.Identifiers
import Accession.Proofs.Batch.Snapshots
import Accession.Proofs.Batch.Columns
import Accession.Proofs.Batch.Reordering
import Accession.Proofs.Batch.Attempts
import Accession.Proofs.Batch.Buffering
import Accession.Proofs.Batch.Refusals
import Accession.Proofs.Batch.Intake
import Accession.Proofs.Batch.Tally
import Accession.Proofs.Batch.Yielded
import Accession.Proofs.Batch.Shapes
import Accession.Proofs.Batch.Canonical
import Accession.Proofs.Store.Classification
import Accession.Proofs.Batch.Backoff
import Accession.Proofs.Batch.Copies
import Accession.Proofs.Batch.Heartbeats
import Accession.Proofs.Batch.Restarts
import Accession.Proofs.Batch.Registers
import Accession.Proofs.Service.Repositories
import Accession.Proofs.Batch.CreationOrder
