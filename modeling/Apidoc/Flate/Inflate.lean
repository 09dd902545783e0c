import Apidoc.Flate.Code

/-!
Reading compressed streams: a header of two bytes, blocks of stored or coded bytes, and a check
sum. What follows the check sum is ignored.
-/
namespace Apidoc.Flate

abbrev Output := Array UInt8

def copyBack (distance : Nat) : Nat → Output → Output
  | 0, out => out
  | count + 1, out => copyBack distance count (out.push (out[out.size - distance]?.getD 0))

def lengthBases : List (Nat × Nat) :=
  [(3, 0), (4, 0), (5, 0), (6, 0), (7, 0), (8, 0), (9, 0), (10, 0), (11, 1), (13, 1), (15, 1),
    (17, 1), (19, 2), (23, 2), (27, 2), (31, 2), (35, 3), (43, 3), (51, 3), (59, 3), (67, 4),
    (83, 4), (99, 4), (115, 4), (131, 5), (163, 5), (195, 5), (227, 5), (258, 0)]

def distanceBases : List (Nat × Nat) :=
  [(1, 0), (2, 0), (3, 0), (4, 0), (5, 1), (7, 1), (9, 2), (13, 2), (17, 3), (25, 3), (33, 4),
    (49, 4), (65, 5), (97, 5), (129, 6), (193, 6), (257, 7), (385, 7), (513, 8), (769, 8),
    (1025, 9), (1537, 9), (2049, 10), (3073, 10), (4097, 11), (6145, 11), (8193, 12), (12289, 12),
    (16385, 13), (24577, 13)]

def extended (bases : List (Nat × Nat)) (fault : Fault) (symbol : Nat) (b : Bits) :
    Except Fault (Nat × Bits) :=
  match bases[symbol]? with
  | none => .error fault
  | some (base, extra) => do
    let (more, b) ← b.number extra
    .ok (base + more, b)

def endOfBlock : Nat := 256

/-- Reads symbols up to the end of the block. Each takes a bit, so their number is bounded by that
of the bits. -/
def symbols (literals distances : Code) : Nat → Bits → Output → Except Fault (Output × Bits)
  | 0, _, _ => .error .truncated
  | fuel + 1, b, out => do
    let (symbol, b) ← literals.read .literal b
    if symbol < endOfBlock then symbols literals distances fuel b (out.push (UInt8.ofNat symbol))
    else if symbol = endOfBlock then .ok (out, b)
    else
      let (length, b) ← extended lengthBases .literal (symbol - endOfBlock - 1) b
      let (symbol, b) ← distances.read .distance b
      let (distance, b) ← extended distanceBases .distance symbol b
      if out.size < distance then .error .farDistance
      else symbols literals distances fuel b (copyBack distance length out)

def fixedLiteralLengths : List Nat :=
  List.replicate 144 8 ++ List.replicate 112 9 ++ List.replicate 24 7 ++ List.replicate 8 8

def fixedLiterals : Code := Code.assign fixedLiteralLengths Code.longest 1 0 .gap

def fixedDistances : Code := Code.assign (List.replicate 32 5) Code.longest 1 0 .gap

def storedBlock (b : Bits) (out : Output) : Except Fault (Output × Bits) := do
  let (length, b) ← b.aligned.number 16
  let (complement, b) ← b.number 16
  if length + complement ≠ 0xFFFF then .error .storedLengths
  else
    let (bytes, b) ← b.take length
    .ok (out ++ bytes.toArray, b)

def lengthOrder : List Nat := [16, 17, 18, 0, 8, 7, 9, 6, 10, 5, 11, 4, 12, 3, 13, 2, 14, 1, 15]

def numbers (width : Nat) : Nat → Bits → Except Fault (List Nat × Bits)
  | 0, b => .ok ([], b)
  | n + 1, b => do
    let (x, b) ← b.number width
    let (xs, b) ← numbers width n b
    .ok (x :: xs, b)

/-- What a symbol of the length code adds to the lengths read so far, the latest first. -/
def repeated (symbol : Nat) (lengths : List Nat) (b : Bits) : Except Fault (List Nat × Bits) :=
  if symbol < 16 then .ok ([symbol], b)
  else if symbol = 16 then do
    let (more, b) ← b.number 2
    match lengths with
    | [] => .error .lengthRepeat
    | last :: _ => .ok (List.replicate (3 + more) last, b)
  else if symbol = 17 then do
    let (more, b) ← b.number 3
    .ok (List.replicate (3 + more) 0, b)
  else do
    let (more, b) ← b.number 7
    .ok (List.replicate (11 + more) 0, b)

def codeLengths (code : Code) (count : Nat) :
    Nat → List Nat → Bits → Except Fault (List Nat × Bits)
  | 0, _, _ => .error .truncated
  | fuel + 1, lengths, b =>
    if lengths.length = count then .ok (lengths.reverse, b)
    else do
      let (symbol, b) ← code.read .lengthCode b
      let (more, b) ← repeated symbol lengths b
      if count < lengths.length + more.length then .error .lengthRepeat
      else codeLengths code count fuel (more ++ lengths) b

def noWords : Code := .node .gap .gap

def allZero : Code := .node (.leaf 0) (.leaf 0)

def orFault {α : Type} (fault : Fault) : Option α → Except Fault α
  | some a => .ok a
  | none => .error fault

def dynamicCodes (b : Bits) : Except Fault ((Code × Code) × Bits) := do
  let (literals, b) ← b.number 5
  let (distances, b) ← b.number 5
  let (count, b) ← b.number 4
  if 286 < literals + 257 ∨ 30 < distances + 1 then .error .symbolCount
  else
    let (given, b) ← numbers 3 (count + 4) b
    let lengths := (List.range 19).map fun i => ((lengthOrder.zip given).lookup i).getD 0
    let code ← orFault .lengthCode (Code.ofLengths? lengths false allZero)
    let (all, b) ← codeLengths code (literals + 257 + (distances + 1)) (b.size + 1) [] b
    let (literalLengths, distanceLengths) := all.splitAt (literals + 257)
    if literalLengths[endOfBlock]?.getD 0 = 0 then .error .noBlockEnd
    else
      let literalCode ← orFault .literalCode (Code.ofLengths? literalLengths true noWords)
      let distanceCode ← orFault .distanceCode (Code.ofLengths? distanceLengths true noWords)
      .ok ((literalCode, distanceCode), b)

def block (kind : Nat) (b : Bits) (out : Output) : Except Fault (Output × Bits) :=
  match kind with
  | 0 => storedBlock b out
  | 1 => symbols fixedLiterals fixedDistances (b.size + 1) b out
  | 2 => do
    let ((literals, distances), b) ← dynamicCodes b
    symbols literals distances (b.size + 1) b out
  | _ => .error .blockType

/-- Reads blocks up to the last one. Each takes three bits, so their number is bounded by that of
the bits. -/
def blocks : Nat → Bits → Output → Except Fault (Output × Bits)
  | 0, _, _ => .error .truncated
  | fuel + 1, b, out => do
    let (final, b) ← b.bit
    let (kind, b) ← b.number 2
    let (out, b) ← block kind b out
    if final then .ok (out, b) else blocks fuel b out

def checkModulus : Nat := 65521

def checkSum (bytes : Bytes) : Nat :=
  let (low, high) := bytes.foldl
    (fun (sums : Nat × Nat) byte =>
      let low := (sums.1 + byte.toNat) % checkModulus
      (low, (sums.2 + low) % checkModulus)) (1, 0)
  high * 65536 + low

def bigEndian (bytes : Bytes) : Nat := bytes.foldl (fun n b => n * 256 + b.toNat) 0

def header (b : Bits) : Except Fault Bits := do
  let (first, b) ← b.number 8
  let (second, b) ← b.number 8
  if (first * 256 + second) % 31 ≠ 0 then .error .headerCheck
  else if first % 16 ≠ 8 then .error .method
  else if 7 < first / 16 then .error .window
  else if second.testBit 5 then do
    let _ ← b.take 4
    .error .dictionary
  else .ok b

def inflate (bytes : Bytes) : Except Fault Bytes := do
  let b ← header (.ofBytes bytes)
  let (out, b) ← blocks (b.size + 1) b #[]
  let (check, _) ← b.aligned.take 4
  if bigEndian check = checkSum out.toList then .ok out.toList else .error .dataCheck

end Apidoc.Flate
