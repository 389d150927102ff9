import Accession.Json.Number
set_option autoImplicit false

namespace Accession.Json

def escapeChar (c : Char) : List Char :=
  if c == '"' then ['\\', '"']
  else if c == '\\' then ['\\', '\\']
  else if c.toNat == 8 then ['\\', 'b']
  else if c.toNat == 12 then ['\\', 'f']
  else if c == '\n' then ['\\', 'n']
  else if c == '\r' then ['\\', 'r']
  else if c == '\t' then ['\\', 't']
  else if c.toNat < 0x20 then
    ['\\', 'u', '0', '0', if c.toNat < 0x10 then '0' else '1', Nat.digitChar (c.toNat % 16)]
  else [c]

def writeString (s : String) (out : String) : String :=
  (s.toList.foldl (fun out c => (escapeChar c).foldl String.push out) (out.push '"')).push '"'

mutual

def write : Value → String → String
  | .null, out => out ++ "null"
  | .bool true, out => out ++ "true"
  | .bool false, out => out ++ "false"
  | .num n, out => n.render.foldl String.push out
  | .str s, out => writeString s out
  | .arr items, out => (writeItems true items (out.push '[')).push ']'
  | .obj members, out => (writeMembers true members (out.push '\x7b')).push '\x7d'

def writeItems (first : Bool) : List Value → String → String
  | [], out => out
  | v :: rest, out =>
    writeItems false rest (write v (if first then out else out.push ','))

def writeMembers (first : Bool) : List (String × Value) → String → String
  | [], out => out
  | (key, v) :: rest, out =>
    writeMembers false rest
      (write v ((writeString key (if first then out else out.push ',')).push ':'))

end

def Value.render (v : Value) : String :=
  write v ""

def Members.render (members : Members) : String :=
  Value.render (.obj members)

end Accession.Json
