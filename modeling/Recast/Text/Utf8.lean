/-!
# Utf8 — texts as bytes

`Utf8.decode` reads the characters of bytes, or counts the bytes in front of the first sequence that
stands for no character.
-/

namespace Recast
namespace Utf8

def encode (s : String) : List UInt8 :=
  s.toUTF8.toList

/-- The payload of a byte that continues a character. -/
def continuation? (b : UInt8) : Option Nat :=
  if 0x80 ≤ b.toNat && b.toNat < 0xC0 then some (b.toNat - 0x80) else none

/-- The character with a code point that needs no shorter sequence than it has. -/
def charFrom? (least n : Nat) : Option Char :=
  if least ≤ n && n.isValidChar then some (Char.ofNat n) else none

/-- The first character of bytes, and the number of bytes it takes. -/
def head? : List UInt8 → Option (Char × Nat)
  | [] => none
  | a :: rest =>
      if a.toNat < 0x80 then some (Char.ofNat a.toNat, 1)
      else if a.toNat < 0xC0 then none
      else if a.toNat < 0xE0 then do
        let b ← rest[0]? >>= continuation?
        return (← charFrom? 0x80 ((a.toNat - 0xC0) * 0x40 + b), 2)
      else if a.toNat < 0xF0 then do
        let b ← rest[0]? >>= continuation?
        let c ← rest[1]? >>= continuation?
        return (← charFrom? 0x800 (((a.toNat - 0xE0) * 0x40 + b) * 0x40 + c), 3)
      else if a.toNat < 0xF8 then do
        let b ← rest[0]? >>= continuation?
        let c ← rest[1]? >>= continuation?
        let d ← rest[2]? >>= continuation?
        return (← charFrom? 0x10000 ((((a.toNat - 0xF0) * 0x40 + b) * 0x40 + c) * 0x40 + d), 4)
      else none

/-- Read characters behind `good` bytes; `skip` bytes belong to a character that has been read. -/
def decodeFrom (good skip : Nat) : List UInt8 → Except Nat (List Char)
  | [] => .ok []
  | a :: rest =>
      match skip with
      | n + 1 => decodeFrom good n rest
      | 0 =>
          match head? (a :: rest) with
          | none => .error good
          | some (c, n) => (decodeFrom (good + n) (n - 1) rest).map (c :: ·)

def decode (bytes : List UInt8) : Except Nat String :=
  (decodeFrom 0 0 bytes).map String.ofList

end Utf8
end Recast
