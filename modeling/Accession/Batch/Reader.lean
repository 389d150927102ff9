import Accession.Batch.Buffers
import Accession.Batch.Error
import Accession.Batch.Splitter
import Accession.Json.Reader
import Accession.Json.Writer
import Accession.Registry.Basic
set_option autoImplicit false

/-!
# Reading the records of a batch

A reader takes a stream that is delivered in buffers and yields one record at a time: an object with
a logical identifier that no earlier record had, of a registered type, that its schema admits. The
position counts the pieces cut off the stream, also those that turned out to be no records. When the
framing is broken the buffer is kept, so a later call meets the same octets again; once the stream
has ended it stays ended.
-/
namespace Accession.Batch

open Json (Value Members)
open Registry (RecordType)

structure Record where
  /-- Counted from 1 over all pieces of the stream. -/
  position : Nat
  logicalId : String
  type : RecordType
  body : Members
deriving Repr

/-- The identifier that the caller gave: the text of `uri`, or of `id` where that is absent or
null. -/
def logicalId? (body : Members) : Option String :=
  match (Registry.present? body "uri").or (Members.get? body "id") with
  | some (.str s) => if Text.blank s then none else some s
  | some (.num n) => some (String.ofList n.render)
  | _ => none

def recordType? (registry : Registry) (body : Members) : Option RecordType :=
  match Members.get? body "jsonmodel_type" with
  | none | some .null => registry.defaultType?
  | some (.str name) => registry.get? name
  | some _ => none

def missingId : String := "uri: Property is required but was missing"
def repeatedId : String := "uri: Logical identifier appears more than once in this import"

def unknownType (body : Members) : String :=
  "jsonmodel_type: Unknown record type "
    ++ ((Members.get? body "jsonmodel_type").getD .null).render

structure Reader where
  /-- What the stream has still to deliver, the current buffer first. -/
  buffers : List (List UInt8)
  splitter : Splitter := .start
  position : Nat := 0
  /-- Logical identifiers that occurred, last first. -/
  seen : List String := []
  ended : Bool := false
deriving Repr

def decode (registry : Registry) (position : Nat) (seen : List String) (piece : List UInt8) :
    Except ImportError Record × List String :=
  match Json.parseObject piece with
  | .error e => (.error (.decode position e.message), seen)
  | .ok body =>
    match logicalId? body with
    | none =>
      (.error (.validation ("record " ++ Text.Integer.write position) [missingId]), seen)
    | some id =>
      match recordType? registry body with
      | none => (.error (.validation id [unknownType body]), seen)
      | some type =>
        if seen.contains id then (.error (.validation id [repeatedId]), seen)
        else
          match type.schema.violations body with
          | [] => (.ok ⟨position, id, type, body⟩, id :: seen)
          | reports => (.error (.validation id reports), id :: seen)

/-- The next piece of the stream, none at its end, with the buffers left and the splitter. -/
def nextPiece (splitter : Splitter) :
    List (List UInt8) → Except FramingError (Option (List UInt8)) × List (List UInt8) × Splitter
  | [] =>
    match splitter.finish with
    | .error e => (.error e, [], splitter)
    | .ok () => (.ok none, [], splitter)
  | buffer :: buffers =>
    match splitter.feed buffer with
    | .taken splitter => nextPiece splitter buffers
    | .piece splitter record rest => (.ok (some record), rest :: buffers, splitter)
    | .refused splitter e => (.error e, buffer :: buffers, splitter)

namespace Reader

def ofBuffers (buffers : List (List UInt8)) : Reader := { buffers }

def ofStream (capacity : Nat) (stream : List UInt8) : Reader :=
  ofBuffers (Batch.buffers capacity stream)

def next (registry : Registry) (reader : Reader) :
    Except ImportError (Option Record) × Reader :=
  if reader.ended then (.ok none, reader)
  else
    match nextPiece reader.splitter reader.buffers with
    | (.error e, buffers, splitter) =>
      (.error (.decode (reader.position + 1) e.message), { reader with buffers, splitter })
    | (.ok none, buffers, splitter) =>
      (.ok none, { reader with buffers, splitter, ended := true })
    | (.ok (some piece), buffers, splitter) =>
      let position := reader.position + 1
      let (record, seen) := decode registry position reader.seen piece
      (record.map some, { reader with buffers, splitter, position, seen })

/-- The records up to the first error or the end of the stream, `limit` records at most, and the
error. -/
def records (registry : Registry) : (limit : Nat) → Reader → List Record × Option ImportError
  | 0, _ => ([], none)
  | limit + 1, reader =>
    match reader.next registry with
    | (.error e, _) => ([], some e)
    | (.ok none, _) => ([], none)
    | (.ok (some record), reader) =>
      let (rest, error) := records registry limit reader
      (record :: rest, error)

end Reader

/-- The records of a body up to the first error, and the error. A body has fewer records than
octets. -/
def recordsOf (registry : Registry) (body : List UInt8) : List Record × Option ImportError :=
  (Reader.ofStream bufferCapacity body).records registry (body.length + 1)

end Accession.Batch
