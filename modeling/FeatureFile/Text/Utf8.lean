import FeatureFile.Text.Hex

set_option autoImplicit false

/-! # UTF-8

Bytes are decoded to characters one sequence at a time. A fault is found at the first byte that
cannot start a sequence, or in a sequence that breaks off: there it covers the bytes that could
still have been the start of a character. -/

namespace FeatureFile.Utf8

open Text

/-- Why bytes are no text. -/
inductive Reason where
  | invalidStart
  | invalidContinuation
  | unexpectedEnd
deriving DecidableEq, Repr

/-- How a reason is worded. -/
def Reason.text : Reason → String
  | invalidStart => "invalid start byte"
  | invalidContinuation => "invalid continuation byte"
  | unexpectedEnd => "unexpected end of data"

/-- The bytes at a position that are no character. -/
structure Error where
  position : Nat
  bytes : List UInt8
  reason : Reason
deriving DecidableEq, Repr

/-- The sentence that explains an error. -/
def Error.message (error : Error) : String :=
  match error.bytes with
  | [byte] =>
    "'utf-8' codec can't decode byte 0x" ++ String.ofList (hexDigits 2 byte.toNat) ++
      s!" in position {error.position}: " ++ error.reason.text
  | _ =>
    s!"'utf-8' codec can't decode bytes in position {error.position}-" ++
      s!"{error.position + error.bytes.length - 1}: " ++ error.reason.text

/-- The range of the second byte of a sequence and the number of bytes after that one, for a first
    byte of a sequence of several bytes. -/
def lead? (byte : UInt8) : Option (UInt8 × UInt8 × Nat) :=
  if byte < 0xC2 then none
  else if byte < 0xE0 then some (0x80, 0xBF, 0)
  else if byte = 0xE0 then some (0xA0, 0xBF, 1)
  else if byte = 0xED then some (0x80, 0x9F, 1)
  else if byte < 0xF0 then some (0x80, 0xBF, 1)
  else if byte = 0xF0 then some (0x90, 0xBF, 2)
  else if byte < 0xF4 then some (0x80, 0xBF, 2)
  else if byte = 0xF4 then some (0x80, 0x8F, 2)
  else none

/-- The bits that a byte after the first adds to a code point. -/
def continued (code : Nat) (byte : UInt8) : Nat := code * 64 + (byte.toNat - 0x80)

/-- The bits that the first byte of a sequence with `tail` bytes after the second gives. -/
def started (byte : UInt8) : Nat → Nat
  | 0 => byte.toNat - 0xC0
  | 1 => byte.toNat - 0xE0
  | _ => byte.toNat - 0xF0

/-- What is still to come of the sequence being read. -/
inductive State where
  /-- Between two characters. -/
  | ready
  /-- Inside a sequence: its bytes so far, their bits, the range of the next byte, and the number
      of bytes after that one. -/
  | inside (seen : List UInt8) (code : Nat) (low high : UInt8) (more : Nat)
deriving DecidableEq, Repr

/-- Decodes bytes, the first of which stands at `position`. -/
def decodeFrom : State → Nat → List UInt8 → Except Error (List Char)
  | .ready, _, [] => .ok []
  | .ready, position, byte :: rest =>
    if byte < 0x80 then
      (decodeFrom .ready (position + 1) rest).map (Char.ofNat byte.toNat :: ·)
    else
      match lead? byte with
      | none => .error ⟨position, [byte], .invalidStart⟩
      | some (low, high, more) =>
        decodeFrom (.inside [byte] (started byte more) low high more) (position + 1) rest
  | .inside seen _ _ _ _, position, [] =>
    .error ⟨position - seen.length, seen, .unexpectedEnd⟩
  | .inside seen code low high more, position, byte :: rest =>
    if low ≤ byte ∧ byte ≤ high then
      match more with
      | 0 => (decodeFrom .ready (position + 1) rest).map (Char.ofNat (continued code byte) :: ·)
      | m + 1 =>
        decodeFrom (.inside (seen ++ [byte]) (continued code byte) 0x80 0xBF m) (position + 1) rest
    else .error ⟨position - seen.length, seen, .invalidContinuation⟩

/-- The text that bytes encode. -/
def decode (bytes : List UInt8) : Except Error String :=
  (decodeFrom .ready 0 bytes).map String.ofList

/-- The bytes of a text. -/
def encode (s : String) : List UInt8 := s.toUTF8.data.toList

end FeatureFile.Utf8
