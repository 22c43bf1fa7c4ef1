import ContractBindings.Text.Hex

/-! # UTF-8

Bytes to characters, with the place and the reason of the first fault.
-/

namespace ContractBindings.Text.Utf8

inductive Reason where
  | badLead
  | badTail
  | cutShort
deriving DecidableEq, Repr

/-- A fault in bytes that were read as UTF-8: the bytes it covers, where they start, and why. -/
structure Fault where
  start : Nat
  bytes : List UInt8
  reason : Reason
deriving DecidableEq, Repr

def Reason.message : Reason → String
  | .badLead => "invalid start byte"
  | .badTail => "invalid continuation byte"
  | .cutShort => "unexpected end of data"

def Fault.message (f : Fault) : String :=
  let place :=
    match f.bytes with
    | [b] => "byte 0x" ++ hexBytes [b] ++ " in position " ++ toString f.start
    | bs => "bytes in position " ++ toString f.start ++ "-" ++ toString (f.start + bs.length - 1)
  "'utf-8' codec can't decode " ++ place ++ ": " ++ f.reason.message

def isTail (b : UInt8) : Bool := 0x80 ≤ b && b < 0xC0

/-- Whether a byte may follow a lead byte: the second byte keeps out long forms of short characters,
surrogates and values beyond the last character. -/
def isSecond (lead b : UInt8) : Bool :=
  isTail b &&
    if lead = 0xE0 then 0xA0 ≤ b
    else if lead = 0xED then b < 0xA0
    else if lead = 0xF0 then 0x90 ≤ b
    else if lead = 0xF4 then b < 0x90
    else true

def tailBits (b : UInt8) : Nat := b.toNat % 64

/-- The characters of a text in UTF-8, whose first byte stands at position `pos`. -/
def decodeFrom (pos : Nat) : List UInt8 → Except Fault (List Char)
  | [] => .ok []
  | a :: rest =>
    if a < 0x80 then (Char.ofNat a.toNat :: ·) <$> decodeFrom (pos + 1) rest
    else if a < 0xC2 || 0xF5 ≤ a then .error ⟨pos, [a], .badLead⟩
    else
      match rest with
      | [] => .error ⟨pos, [a], .cutShort⟩
      | b :: rest =>
        if !isSecond a b then .error ⟨pos, [a], .badTail⟩
        else if a < 0xE0 then
          (Char.ofNat (a.toNat % 32 * 64 + tailBits b) :: ·) <$> decodeFrom (pos + 2) rest
        else
          match rest with
          | [] => .error ⟨pos, [a, b], .cutShort⟩
          | c :: rest =>
            if !isTail c then .error ⟨pos, [a, b], .badTail⟩
            else if a < 0xF0 then
              (Char.ofNat ((a.toNat % 16 * 64 + tailBits b) * 64 + tailBits c) :: ·) <$>
                decodeFrom (pos + 3) rest
            else
              match rest with
              | [] => .error ⟨pos, [a, b, c], .cutShort⟩
              | d :: rest =>
                if !isTail d then .error ⟨pos, [a, b, c], .badTail⟩
                else
                  (Char.ofNat (((a.toNat % 8 * 64 + tailBits b) * 64 + tailBits c) * 64 +
                    tailBits d) :: ·) <$> decodeFrom (pos + 4) rest

def decode (bytes : List UInt8) : Except Fault (List Char) := decodeFrom 0 bytes

def encode (s : String) : List UInt8 := s.toUTF8.data.toList

end ContractBindings.Text.Utf8
