import Accession.Batch.Buffers
import Accession.Batch.Worker
set_option autoImplicit false

namespace Accession.Batch

inductive Chunk where
  | octets (s : List UInt8)
  | failure (message : String)
deriving DecidableEq, Repr

structure Spool where
  file : Nat
  length : Nat
deriving DecidableEq, Repr

namespace Spool

def copyPiece (file : Nat) (piece : List UInt8) : List Step :=
  [.file (.append file piece), .activity (.spooled (UInt64.ofNat piece.length))]

def copy (file : Nat) : (copied : Nat) → List Chunk → List Step × Except String Nat
  | copied, [] => ([], .ok copied)
  | _, .failure message :: _ => ([], .error message)
  | copied, .octets s :: rest =>
    let (steps, result) := copy file (copied + s.length) rest
    ((buffers bufferCapacity s).flatMap (copyPiece file) ++ steps, result)

def noFolder : String := "No such file or directory"

def ofChunks (folder : Option Folder) (body : List Chunk) : List Step × Except String Spool :=
  match folder with
  | none => ([], .error noFolder)
  | some folder =>
    let file := folder.unused
    match copy file 0 body with
    | (steps, .ok length) => (.file (.create file) :: steps, .ok ⟨file, length⟩)
    | (steps, .error message) =>
      (.file (.create file) :: steps ++ [.file (.remove file)], .error message)

def isEmpty (spool : Spool) : Bool :=
  spool.length == 0

def contents (spool : Spool) (folder : Folder) : List UInt8 :=
  (folder.contents? spool.file).getD []

def close (spool : Spool) : Step :=
  .file (.remove spool.file)

end Spool

end Accession.Batch
