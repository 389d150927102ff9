set_option autoImplicit false

namespace Accession.Text.Utf8

def encodeChar (c : Char) : List UInt8 :=
  let n := c.toNat
  if n < 0x80 then [UInt8.ofNat n]
  else if n < 0x800 then [UInt8.ofNat (0xC0 + n / 64), UInt8.ofNat (0x80 + n % 64)]
  else if n < 0x10000 then
    [UInt8.ofNat (0xE0 + n / 4096), UInt8.ofNat (0x80 + n / 64 % 64), UInt8.ofNat (0x80 + n % 64)]
  else
    [UInt8.ofNat (0xF0 + n / 262144), UInt8.ofNat (0x80 + n / 4096 % 64),
      UInt8.ofNat (0x80 + n / 64 % 64), UInt8.ofNat (0x80 + n % 64)]

def encode (s : String) : List UInt8 :=
  s.toList.flatMap encodeChar

def isTail (b : UInt8) : Bool :=
  0x80 ≤ b && b ≤ 0xBF

def pair (a b : UInt8) : Char :=
  Char.ofNat ((a.toNat - 0xC0) * 64 + (b.toNat - 0x80))

def triple (a b c : UInt8) : Char :=
  Char.ofNat ((a.toNat - 0xE0) * 4096 + (b.toNat - 0x80) * 64 + (c.toNat - 0x80))

def quadruple (a b c d : UInt8) : Char :=
  Char.ofNat ((a.toNat - 0xF0) * 262144 + (b.toNat - 0x80) * 4096 + (c.toNat - 0x80) * 64
    + (d.toNat - 0x80))

def startsTriple (a b : UInt8) : Bool :=
  (a == 0xE0 && 0xA0 ≤ b && b ≤ 0xBF) || (0xE1 ≤ a && a ≤ 0xEC && isTail b)
    || (a == 0xED && 0x80 ≤ b && b ≤ 0x9F) || (0xEE ≤ a && a ≤ 0xEF && isTail b)

def startsQuadruple (a b : UInt8) : Bool :=
  (a == 0xF0 && 0x90 ≤ b && b ≤ 0xBF) || (0xF1 ≤ a && a ≤ 0xF3 && isTail b)
    || (a == 0xF4 && 0x80 ≤ b && b ≤ 0x8F)

/-- The characters read, after those in `done` (last first), and the octets left. -/
def decodeOnto (done : List Char) : List UInt8 → List Char × List UInt8
  | [] => (done.reverse, [])
  | a :: s =>
    if a < 0x80 then decodeOnto (Char.ofNat a.toNat :: done) s
    else match s with
      | [] => (done.reverse, [a])
      | b :: s =>
        if 0xC2 ≤ a && a ≤ 0xDF && isTail b then decodeOnto (pair a b :: done) s
        else match s with
          | [] => (done.reverse, [a, b])
          | c :: s =>
            if startsTriple a b && isTail c then decodeOnto (triple a b c :: done) s
            else match s with
              | [] => (done.reverse, [a, b, c])
              | d :: s =>
                if startsQuadruple a b && isTail c && isTail d then
                  decodeOnto (quadruple a b c d :: done) s
                else (done.reverse, a :: b :: c :: d :: s)

def decode (s : List UInt8) : List Char × List UInt8 :=
  decodeOnto [] s

def decode? (s : List UInt8) : Option String :=
  match decode s with
  | (cs, []) => some (String.ofList cs)
  | _ => none

def latin1 (b : UInt8) : Char :=
  Char.ofNat b.toNat

end Accession.Text.Utf8
