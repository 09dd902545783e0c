import Apidoc.Text.Basic

namespace Apidoc.Text.Utf8

abbrev Bytes := List UInt8

inductive Fault
  | start
  | continuation
  | truncated
  deriving DecidableEq, Repr

structure DecodeError where
  position : Nat
  bytes : Bytes
  fault : Fault
  deriving DecidableEq, Repr

def Fault.message : Fault → Text
  | .start => "invalid start byte".toList
  | .continuation => "invalid continuation byte".toList
  | .truncated => "unexpected end of data".toList

def DecodeError.place (e : DecodeError) : Text :=
  match e.bytes with
  | [b] => "byte 0x".toList ++ hex 2 b.toNat ++ " in position ".toList ++ ofNat e.position
  | bs => "bytes in position ".toList ++ ofNat e.position ++ "-".toList ++
      ofNat (e.position + bs.length - 1)

def DecodeError.message (e : DecodeError) : Text :=
  "'utf-8' codec can't decode ".toList ++ e.place ++ ": ".toList ++ e.fault.message

/-- A sequence that has begun: the bytes it still needs, the range of the next one, and the value
and bytes read so far. -/
structure Pending where
  owed : Nat
  low : Nat
  high : Nat
  value : Nat
  bytes : Bytes

/-- What a first byte beyond ASCII begins. The ranges leave out long forms, surrogates and what
lies beyond the last code point. -/
def lead? (b : UInt8) : Option Pending :=
  let n := b.toNat
  if n < 0xC2 then none
  else if n < 0xE0 then some ⟨1, 0x80, 0xBF, n - 0xC0, [b]⟩
  else if n = 0xE0 then some ⟨2, 0xA0, 0xBF, 0, [b]⟩
  else if n = 0xED then some ⟨2, 0x80, 0x9F, n - 0xE0, [b]⟩
  else if n < 0xF0 then some ⟨2, 0x80, 0xBF, n - 0xE0, [b]⟩
  else if n = 0xF0 then some ⟨3, 0x90, 0xBF, 0, [b]⟩
  else if n < 0xF4 then some ⟨3, 0x80, 0xBF, n - 0xF0, [b]⟩
  else if n = 0xF4 then some ⟨3, 0x80, 0x8F, n - 0xF0, [b]⟩
  else none

def Pending.push (p : Pending) (b : UInt8) : Pending :=
  ⟨p.owed - 1, 0x80, 0xBF, p.value * 64 + (b.toNat - 0x80), p.bytes ++ [b]⟩

def decodeFrom : Nat → Option Pending → Bytes → Except DecodeError Text
  | _, none, [] => .ok []
  | position, some p, [] => .error ⟨position, p.bytes, .truncated⟩
  | position, none, b :: bs =>
    if b.toNat < 0x80 then (Char.ofNat b.toNat :: ·) <$> decodeFrom (position + 1) none bs
    else match lead? b with
      | none => .error ⟨position, [b], .start⟩
      | some p => decodeFrom position (some p) bs
  | position, some p, b :: bs =>
    if p.low ≤ b.toNat ∧ b.toNat ≤ p.high then
      let q := p.push b
      if q.owed = 0 then
        (Char.ofNat q.value :: ·) <$> decodeFrom (position + q.bytes.length) none bs
      else decodeFrom position (some q) bs
    else .error ⟨position, p.bytes, .continuation⟩

def decode (bs : Bytes) : Except DecodeError Text := decodeFrom 0 none bs

def encodeChar (c : Char) : Bytes :=
  let n := c.toNat
  let tail (n : Nat) := UInt8.ofNat (0x80 + n % 0x40)
  if n < 0x80 then [UInt8.ofNat n]
  else if n < 0x800 then [UInt8.ofNat (0xC0 + n / 0x40), tail n]
  else if n < 0x10000 then [UInt8.ofNat (0xE0 + n / 0x1000), tail (n / 0x40), tail n]
  else [UInt8.ofNat (0xF0 + n / 0x40000), tail (n / 0x1000), tail (n / 0x40), tail n]

def encode (s : Text) : Bytes := s.flatMap encodeChar

end Apidoc.Text.Utf8
