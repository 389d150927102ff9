import Accession.Text.Hex
import Accession.Text.Utf8
set_option autoImplicit false

namespace Accession.Text.Percent

def decode : List UInt8 → List UInt8
  | [] => []
  | b :: s =>
    if b == 0x25 then
      match s with
      | h :: l :: rest =>
        match Hex.value? h, Hex.value? l with
        | some h, some l => UInt8.ofNat (h * 16 + l) :: decode rest
        | _, _ => b :: decode (h :: l :: rest)
      | s => b :: decode s
    else b :: decode s

def decode? (s : String) : Option String :=
  Utf8.decode? (decode (Utf8.encode s))

end Accession.Text.Percent
