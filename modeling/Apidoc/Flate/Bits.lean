import Apidoc.Text.Basic

namespace Apidoc.Flate

abbrev Bytes := List UInt8

inductive Fault
  | headerCheck
  | method
  | window
  | dictionary
  | blockType
  | storedLengths
  | symbolCount
  | lengthCode
  | lengthRepeat
  | noBlockEnd
  | literalCode
  | distanceCode
  | literal
  | distance
  | farDistance
  | dataCheck
  | truncated
  deriving DecidableEq, Repr

def Fault.reason : Fault → Text × Option Text
  | .headerCheck => ("-3".toList, some "incorrect header check".toList)
  | .method => ("-3".toList, some "unknown compression method".toList)
  | .window => ("-3".toList, some "invalid window size".toList)
  | .dictionary => ("2".toList, none)
  | .blockType => ("-3".toList, some "invalid block type".toList)
  | .storedLengths => ("-3".toList, some "invalid stored block lengths".toList)
  | .symbolCount => ("-3".toList, some "too many length or distance symbols".toList)
  | .lengthCode => ("-3".toList, some "invalid code lengths set".toList)
  | .lengthRepeat => ("-3".toList, some "invalid bit length repeat".toList)
  | .noBlockEnd => ("-3".toList, some "invalid code -- missing end-of-block".toList)
  | .literalCode => ("-3".toList, some "invalid literal/lengths set".toList)
  | .distanceCode => ("-3".toList, some "invalid distances set".toList)
  | .literal => ("-3".toList, some "invalid literal/length code".toList)
  | .distance => ("-3".toList, some "invalid distance code".toList)
  | .farDistance => ("-3".toList, some "invalid distance too far back".toList)
  | .dataCheck => ("-3".toList, some "incorrect data check".toList)
  | .truncated => ("-5".toList, some "incomplete or truncated stream".toList)

def Fault.message (f : Fault) : Text :=
  let (number, reason) := f.reason
  "Error ".toList ++ number ++ " while decompressing data".toList ++
    match reason with
    | some r => ": ".toList ++ r
    | none => []

/-- The bits left of a byte that was begun, and the bytes behind it. -/
structure Bits where
  begun : List Bool
  bytes : Bytes
  deriving DecidableEq, Repr

def byteBits (b : UInt8) : List Bool := (List.range 8).map b.toNat.testBit

namespace Bits

def ofBytes (bytes : Bytes) : Bits := ⟨[], bytes⟩

def size (b : Bits) : Nat := b.begun.length + 8 * b.bytes.length

def bit (b : Bits) : Except Fault (Bool × Bits) :=
  match b.begun, b.bytes with
  | x :: xs, bytes => .ok (x, ⟨xs, bytes⟩)
  | [], byte :: bytes => .ok (byte.toNat.testBit 0, ⟨(byteBits byte).tail, bytes⟩)
  | [], [] => .error .truncated

def number : Nat → Bits → Except Fault (Nat × Bits)
  | 0, b => .ok (0, b)
  | n + 1, b => do
    let (low, b) ← b.bit
    let (high, b) ← number n b
    .ok (low.toNat + 2 * high, b)

def aligned (b : Bits) : Bits := ⟨[], b.bytes⟩

def take (n : Nat) (b : Bits) : Except Fault (Bytes × Bits) :=
  if b.bytes.length < n then .error .truncated
  else .ok (b.bytes.take n, ⟨[], b.bytes.drop n⟩)

end Bits

end Apidoc.Flate
