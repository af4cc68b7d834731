import MarkerBoard.Text.Basic

/-!
# UTF-8

The bytes of a text and back. Decoding is strict: a byte that cannot start a character, a
continuation that does not fit its first byte (over-long forms and surrogates included), and a
character cut off by the end of the data are faults, each with the bytes it spoils.
-/
namespace MarkerBoard.Utf8

/-- Why bytes are no text. -/
inductive Cause
  /-- The byte starts no character. -/
  | start
  /-- A character was begun, but the next byte does not continue it. -/
  | continuation
  /-- The data ends inside a character. -/
  | truncated
deriving DecidableEq, Repr

/-- The first place where bytes are no text: its offset, the bytes of the broken character that
belong together, and the cause. -/
structure Fault where
  offset : Nat
  bytes : List UInt8
  cause : Cause
deriving DecidableEq, Repr

/-- The bytes of one character. -/
def encodeChar (c : Char) : List UInt8 :=
  let n := c.toNat
  if n < 0x80 then [UInt8.ofNat n]
  else if n < 0x800 then [UInt8.ofNat (0xC0 + n / 64), UInt8.ofNat (0x80 + n % 64)]
  else if n < 0x10000 then
    [UInt8.ofNat (0xE0 + n / 4096), UInt8.ofNat (0x80 + n / 64 % 64), UInt8.ofNat (0x80 + n % 64)]
  else
    [UInt8.ofNat (0xF0 + n / 262144), UInt8.ofNat (0x80 + n / 4096 % 64),
      UInt8.ofNat (0x80 + n / 64 % 64), UInt8.ofNat (0x80 + n % 64)]

/-- The bytes of a text. -/
def encode (t : Text) : List UInt8 := t.flatMap encodeChar

/-- A continuation byte carries six bits. -/
def isContinuation (b : UInt8) : Bool := 0x80 ≤ b.toNat && b.toNat < 0xC0

/-- The bits of a continuation byte. -/
def payload (b : UInt8) : Nat := b.toNat - 0x80

/-- The second byte fits the first one of a longer character: over-long forms, surrogates and
code points beyond the last one are excluded here. -/
def fitsSecond (a b : UInt8) : Bool :=
  isContinuation b &&
    (if a.toNat == 0xE0 then 0xA0 ≤ b.toNat
     else if a.toNat == 0xED then b.toNat < 0xA0
     else if a.toNat == 0xF0 then 0x90 ≤ b.toNat
     else if a.toNat == 0xF4 then b.toNat < 0x90
     else true)

/-- Decodes bytes that start at an offset of the data. -/
def decodeAt (offset : Nat) : List UInt8 → Except Fault Text
  | [] => .ok []
  | a :: r =>
    let n := a.toNat
    if n < 0x80 then
      (decodeAt (offset + 1) r).map (Char.ofNat n :: ·)
    else if n < 0xC2 || 0xF5 ≤ n then
      .error ⟨offset, [a], .start⟩
    else match r with
      | [] => .error ⟨offset, [a], .truncated⟩
      | b :: r =>
        if !fitsSecond a b then .error ⟨offset, [a], .continuation⟩
        else if n < 0xE0 then
          (decodeAt (offset + 2) r).map (Char.ofNat ((n - 0xC0) * 64 + payload b) :: ·)
        else match r with
          | [] => .error ⟨offset, [a, b], .truncated⟩
          | c :: r =>
            if !isContinuation c then .error ⟨offset, [a, b], .continuation⟩
            else if n < 0xF0 then
              (decodeAt (offset + 3) r).map
                (Char.ofNat ((n - 0xE0) * 4096 + payload b * 64 + payload c) :: ·)
            else match r with
              | [] => .error ⟨offset, [a, b, c], .truncated⟩
              | d :: r =>
                if !isContinuation d then .error ⟨offset, [a, b, c], .continuation⟩
                else
                  (decodeAt (offset + 4) r).map
                    (Char.ofNat ((n - 0xF0) * 262144 + payload b * 4096 + payload c * 64
                      + payload d) :: ·)

/-- Decodes bytes, or tells where they stop being a text. -/
def decode (bytes : List UInt8) : Except Fault Text := decodeAt 0 bytes

/-- A byte in two hexadecimal digits. -/
def hexByte (b : UInt8) : Text := Text.padStart 2 '0' (Nat.toDigits 16 b.toNat)

/-- The wording of a cause. -/
def Cause.message : Cause → Text
  | .start => "invalid start byte".toList
  | .continuation => "invalid continuation byte".toList
  | .truncated => "unexpected end of data".toList

/-- The wording of a fault: a single byte is shown, several are told by their range. -/
def Fault.message (f : Fault) : Text :=
  let place := match f.bytes with
    | [b] => "byte 0x".toList ++ hexByte b ++ " in position ".toList ++ Text.ofNat f.offset
    | bs => "bytes in position ".toList ++ Text.ofNat f.offset ++ "-".toList
        ++ Text.ofNat (f.offset + bs.length - 1)
  "'utf-8' codec can't decode ".toList ++ place ++ ": ".toList ++ f.cause.message

end MarkerBoard.Utf8
