-- Bytes as UTF-8 text. Bytes that are no text are refused with the place and the
-- reason; text is encoded by the same rules.

namespace SchemaLedger.Utf8

/-- Why bytes are not UTF-8. -/
inductive Reason where
  | invalidStart
  | invalidContinuation
  | unexpectedEnd
  deriving DecidableEq, Repr

def Reason.text : Reason → String
  | .invalidStart => "invalid start byte"
  | .invalidContinuation => "invalid continuation byte"
  | .unexpectedEnd => "unexpected end of data"

/-- Bytes that are no text: the first offending byte, its position, how many bytes
are at fault, and the reason. -/
structure Fault where
  byte : UInt8
  position : Nat
  count : Nat
  reason : Reason
  deriving DecidableEq, Repr

def Fault.message (f : Fault) : String :=
  let place :=
    if f.count = 1 then
      "byte 0x" ++ String.ofList (Nat.toDigits 16 (f.byte.toNat / 16) ++ Nat.toDigits 16 (f.byte.toNat % 16))
        ++ " in position " ++ toString f.position
    else "bytes in position " ++ toString f.position ++ "-" ++ toString (f.position + f.count - 1)
  "'utf-8' codec can't decode " ++ place ++ ": " ++ f.reason.text

def isContinuation (b : UInt8) : Bool := 0x80 ≤ b && b < 0xC0

/-- The second bytes that may follow a lead byte: no overlong form, no surrogate,
nothing above the last code point. -/
def secondFits (lead second : UInt8) : Bool :=
  isContinuation second &&
    !(lead == 0xE0 && second < 0xA0) && !(lead == 0xED && second ≥ 0xA0) &&
    !(lead == 0xF0 && second < 0x90) && !(lead == 0xF4 && second ≥ 0x90)

def bits (b : UInt8) (mask : Nat) : Nat := b.toNat % mask

def decodeFrom (position : Nat) : List UInt8 → Except Fault (List Char)
  | [] => .ok []
  | a :: rest =>
    if a < 0x80 then (decodeFrom (position + 1) rest).map (Char.ofNat a.toNat :: ·)
    else if a < 0xC2 || a > 0xF4 then .error ⟨a, position, 1, .invalidStart⟩
    else
      match rest with
      | [] => .error ⟨a, position, 1, .unexpectedEnd⟩
      | b :: rest =>
        if !secondFits a b then .error ⟨a, position, 1, .invalidContinuation⟩
        else if a < 0xE0 then
          (decodeFrom (position + 2) rest).map (Char.ofNat (bits a 32 * 64 + bits b 64) :: ·)
        else
          match rest with
          | [] => .error ⟨a, position, 2, .unexpectedEnd⟩
          | c :: rest =>
            if !isContinuation c then .error ⟨a, position, 2, .invalidContinuation⟩
            else if a < 0xF0 then
              (decodeFrom (position + 3) rest).map
                (Char.ofNat ((bits a 16 * 64 + bits b 64) * 64 + bits c 64) :: ·)
            else
              match rest with
              | [] => .error ⟨a, position, 3, .unexpectedEnd⟩
              | d :: rest =>
                if !isContinuation d then .error ⟨a, position, 3, .invalidContinuation⟩
                else
                  (decodeFrom (position + 4) rest).map
                    (Char.ofNat (((bits a 8 * 64 + bits b 64) * 64 + bits c 64) * 64 + bits d 64) :: ·)

/-- The text that bytes encode. -/
def decode (bytes : List UInt8) : Except Fault (List Char) := decodeFrom 0 bytes

/-- The bytes of one character. -/
def encodeChar (c : Char) : List UInt8 :=
  let n := c.toNat
  if n < 0x80 then [n.toUInt8]
  else if n < 0x800 then [(0xC0 + n / 64).toUInt8, (0x80 + n % 64).toUInt8]
  else if n < 0x10000 then
    [(0xE0 + n / 4096).toUInt8, (0x80 + n / 64 % 64).toUInt8, (0x80 + n % 64).toUInt8]
  else
    [(0xF0 + n / 262144).toUInt8, (0x80 + n / 4096 % 64).toUInt8, (0x80 + n / 64 % 64).toUInt8,
      (0x80 + n % 64).toUInt8]

def encode (s : List Char) : List UInt8 := s.flatMap encodeChar

end SchemaLedger.Utf8
