import Accession.Json.Writer
import Accession.Proofs.Text.Utf8
set_option autoImplicit false

namespace Accession.Json

open Text.Utf8 (encode encodeChar)

def quoted (s : String) : List UInt8 :=
  0x22 :: ((s.toList.flatMap escapeChar).flatMap encodeChar ++ [0x22])

def separator (first : Bool) : List UInt8 :=
  if first then [] else [0x2C]

mutual

def octets : Value → List UInt8
  | .null => [0x6E, 0x75, 0x6C, 0x6C]
  | .bool true => [0x74, 0x72, 0x75, 0x65]
  | .bool false => [0x66, 0x61, 0x6C, 0x73, 0x65]
  | .num n => n.render.flatMap encodeChar
  | .str s => quoted s
  | .arr items => 0x5B :: (itemOctets true items ++ [0x5D])
  | .obj members => 0x7B :: (memberOctets true members ++ [0x7D])

def itemOctets (first : Bool) : List Value → List UInt8
  | [] => []
  | v :: rest => separator first ++ (octets v ++ itemOctets false rest)

def memberOctets (first : Bool) : List (String × Value) → List UInt8
  | [] => []
  | (key, v) :: rest =>
    separator first ++ (quoted key ++ 0x3A :: (octets v ++ memberOctets false rest))

end

theorem encode_push (out : String) (c : Char) :
    encode (out.push c) = encode out ++ encodeChar c := by
  rw [encode, encode, String.toList_push, List.flatMap_append, List.flatMap_singleton]

theorem encode_foldl_push (cs : List Char) (out : String) :
    encode (cs.foldl String.push out) = encode out ++ cs.flatMap encodeChar := by
  induction cs generalizing out with
  | nil => simp
  | cons c cs ih => rw [List.foldl_cons, ih, encode_push, List.flatMap_cons, List.append_assoc]

theorem encode_writeString (s out : String) :
    encode (writeString s out) = encode out ++ quoted s := by
  have hescaped : ∀ (cs : List Char) (out : String),
      encode (cs.foldl (fun out c => (escapeChar c).foldl String.push out) out)
        = encode out ++ (cs.flatMap escapeChar).flatMap encodeChar := by
    intro cs
    induction cs with
    | nil =>
      intro out
      simp
    | cons c cs ih =>
      intro out
      rw [List.foldl_cons, ih, encode_foldl_push, List.flatMap_cons, List.flatMap_append,
        List.append_assoc]
  rw [writeString, encode_push, hescaped, encode_push, quoted]
  simp only [List.append_assoc]
  rfl

theorem encode_separator (first : Bool) (out : String) :
    encode (if first then out else out.push ',') = encode out ++ separator first := by
  cases first with
  | true => exact (List.append_nil _).symm
  | false => exact encode_push out ','

mutual

theorem encode_write : (v : Value) → (out : String) → encode (write v out) = encode out ++ octets v
  | .null, out => by
    rw [write, Text.Utf8.encode_append]
    rfl
  | .bool true, out => by
    rw [write, Text.Utf8.encode_append]
    rfl
  | .bool false, out => by
    rw [write, Text.Utf8.encode_append]
    rfl
  | .num n, out => by rw [write, encode_foldl_push, octets]
  | .str s, out => by rw [write, encode_writeString, octets]
  | .arr items, out => by
    rw [write, encode_push, encode_writeItems true items, encode_push, octets, List.append_assoc,
      List.append_assoc]
    rfl
  | .obj members, out => by
    rw [write, encode_push, encode_writeMembers true members, encode_push, octets,
      List.append_assoc, List.append_assoc]
    rfl

theorem encode_writeItems (first : Bool) : (items : List Value) → (out : String) →
    encode (writeItems first items out) = encode out ++ itemOctets first items
  | [], out => by rw [writeItems, itemOctets, List.append_nil]
  | v :: rest, out => by
    rw [writeItems, encode_writeItems false rest, encode_write v, encode_separator, itemOctets]
    simp only [List.append_assoc]

theorem encode_writeMembers (first : Bool) : (members : List (String × Value)) →
    (out : String) → encode (writeMembers first members out)
      = encode out ++ memberOctets first members
  | [], out => by rw [writeMembers, memberOctets, List.append_nil]
  | (key, v) :: rest, out => by
    rw [writeMembers, encode_writeMembers false rest, encode_write v, encode_push,
      encode_writeString, encode_separator, memberOctets]
    simp only [List.append_assoc]
    rfl

end

theorem encode_render (v : Value) : encode v.render = octets v := by
  rw [Value.render, encode_write]
  rfl

end Accession.Json
