import Accession.Json.Error
import Accession.Text.Hex
import Accession.Text.Utf8
set_option autoImplicit false

namespace Accession.Json.Literal

def unit? (a b c d : UInt8) : Option Nat := do
  let a ← Text.Hex.value? a
  let b ← Text.Hex.value? b
  let c ← Text.Hex.value? c
  let d ← Text.Hex.value? d
  return a * 4096 + b * 256 + c * 16 + d

def simpleEscape? (b : UInt8) : Option UInt8 :=
  if b == 0x22 || b == 0x5C || b == 0x2F then some b
  else if b == 0x62 then some 0x08
  else if b == 0x66 then some 0x0C
  else if b == 0x6E then some 0x0A
  else if b == 0x72 then some 0x0D
  else if b == 0x74 then some 0x09
  else none

def isHighSurrogate (n : Nat) : Bool :=
  0xD800 ≤ n && n ≤ 0xDBFF

def isLowSurrogate (n : Nat) : Bool :=
  0xDC00 ≤ n && n ≤ 0xDFFF

def join (high low : Nat) : Char :=
  Char.ofNat ((high - 0xD800) * 1024 + (low - 0xDC00) + 0x10000)

def push (c : Char) (done : List UInt8) : List UInt8 :=
  (Text.Utf8.encodeChar c).reverse ++ done

/-- The octets that a literal spells, after those in `done` (last first). -/
def octets (done : List UInt8) : List UInt8 → Except Fault (List UInt8 × List UInt8)
  | [] => .error (.after .endInString [])
  | b :: s =>
    if b == 0x22 then .ok (done.reverse, s)
    else if b < 0x20 then .error (.after .controlCharacter s)
    else if b != 0x5C then octets (b :: done) s
    else match s with
      | [] => .error (.after .endInString [])
      | e :: s =>
        match simpleEscape? e with
        | some o => octets (o :: done) s
        | none =>
          if e != 0x75 then .error (.after .invalidEscape s)
          else match s with
            | h₁ :: h₂ :: h₃ :: h₄ :: s =>
              match unit? h₁ h₂ h₃ h₄ with
              | none => .error (.after .invalidEscape s)
              | some high =>
                if isLowSurrogate high then .error (.after .loneSurrogate s)
                else if !isHighSurrogate high then octets (push (Char.ofNat high) done) s
                else match s with
                  | [] => .error (.after .endInString [])
                  | x :: s =>
                    if x != 0x5C then .error (.after .endOfHexEscape s)
                    else match s with
                      | [] => .error (.after .endInString [])
                      | y :: s =>
                        if y != 0x75 then .error (.after .endOfHexEscape s)
                        else match s with
                          | l₁ :: l₂ :: l₃ :: l₄ :: s =>
                            match unit? l₁ l₂ l₃ l₄ with
                            | none => .error (.after .invalidEscape s)
                            | some low =>
                              if isLowSurrogate low then octets (push (join high low) done) s
                              else .error (.after .loneSurrogate s)
                          | _ => .error (.after .endInString [])
            | _ => .error (.after .endInString [])

def read (s : List UInt8) : Except Fault (String × List UInt8) := do
  let (spelled, rest) ← octets [] s
  match Text.Utf8.decode spelled with
  | (cs, []) => return (String.ofList cs, rest)
  | (_, bad) => throw { cause := .invalidUnicode, rest, shift := -(bad.length : Int) }

def pass : List UInt8 → Except Fault (List UInt8)
  | [] => .error (.after .endInString [])
  | b :: s =>
    if b == 0x22 then .ok s
    else if b < 0x20 then .error (.after .controlCharacter (b :: s))
    else if b != 0x5C then pass s
    else match s with
      | [] => .error (.after .endInString [])
      | e :: s =>
        if (simpleEscape? e).isSome then pass s
        else if e != 0x75 then .error (.after .invalidEscape s)
        else match s with
          | h₁ :: h₂ :: h₃ :: h₄ :: s =>
            if (unit? h₁ h₂ h₃ h₄).isSome then pass s else .error (.after .invalidEscape s)
          | _ => .error (.after .endInString [])

end Accession.Json.Literal
