import Accession.Settings.Basic
import Accession.Text.Integer
import Accession.Text.Utf8
import Accession.Toml.Document
set_option autoImplicit false

namespace Accession.Settings

open Toml (Value)

def members? : Value → Option (Nat → String → Option Value)
  | .table _ t => some (fun _ name => Toml.Table.find? name t)
  | .list vs => some (fun place _ => vs[place]?)
  | .tables ts => some (fun place _ => ts[place]?.map (.table .header))
  | .moment _ => some (fun _ _ => none)
  | _ => none

def orDefault {α : Type} (default : α) (read : Value → Option α) : Option Value → Option α
  | none => some default
  | some v => read v

def text? : Value → Option String
  | .text s => some s
  | _ => none

def boolean? : Value → Option Bool
  | .boolean b => some b
  | _ => none

def natural? (limit : Nat) : Value → Option Nat
  | .integer n => if 0 ≤ n && n ≤ limit then some n.toNat else none
  | _ => none

def listener? (v : Value) : Option Listener := do
  let member ← members? v
  let defaults : Listener := {}
  let host ← orDefault defaults.host text? (member 0 "host")
  let port ← orDefault defaults.port (natural? 65535) (member 1 "port")
  return { host, port }

def journal? (v : Value) : Option Journal := do
  let member ← members? v
  let defaults : Journal := {}
  let level ← orDefault defaults.level text? (member 0 "level")
  return { level }

def importing? (v : Value) : Option Importing := do
  let member ← members? v
  let defaults : Importing := {}
  let milliseconds := natural? Text.Integer.maxUnsigned64
  let transactional ← orDefault defaults.transactional boolean? (member 0 "transactional")
  let progressInterval ←
    orDefault defaults.progressInterval milliseconds (member 1 "progress_interval_ms")
  let maxAttempts ← orDefault defaults.retry.maxAttempts (natural? Text.Integer.maxUnsigned32)
    (member 2 "max_attempts")
  let initialBackoff ←
    orDefault defaults.retry.initialBackoff milliseconds (member 3 "initial_backoff_ms")
  let maxBackoff ← orDefault defaults.retry.maxBackoff milliseconds (member 4 "max_backoff_ms")
  let spoolFolder ← orDefault none (fun v => (text? v).map some) (member 5 "spool_dir")
  return {
    transactional, progressInterval, spoolFolder
    retry := { maxAttempts, initialBackoff, maxBackoff } }

def ofTable? (t : Toml.Table) : Option Settings := do
  let member (name : String) := Toml.Table.find? name t
  let rootFolder ← orDefault none (fun v => (text? v).map some) (member "root_folder")
  let listener ← orDefault {} listener? (member "server")
  let journal ← orDefault {} journal? (member "logging")
  let importing ← orDefault {} importing? (member "import")
  return { rootFolder, listener, journal, importing }

def parse (text : String) : Except Failure Settings :=
  match (Toml.parse text).bind ofTable? with
  | some settings => .ok settings
  | none => .error (.settings "Parse TOML failed")

def load : (contents : Option (List UInt8)) → Except Failure Settings
  | none => .ok {}
  | some contents =>
    match Text.Utf8.decode? contents with
    | none => .error (.settings "Read TOML failed: stream did not contain valid UTF-8")
    | some text => do
      let settings ← parse text
      match settings.fault? with
      | some e => .error e
      | none => .ok settings

end Accession.Settings
