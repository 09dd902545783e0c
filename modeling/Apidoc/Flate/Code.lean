import Apidoc.Flate.Bits

/-!
Prefix codes as binary trees. A code is given by the length of each symbol's word: shorter words
come first, and words of one length follow the order of the symbols.
-/
namespace Apidoc.Flate

inductive Code
  | gap
  | leaf (symbol : Nat)
  | node (zero one : Code)
  deriving DecidableEq, Repr

namespace Code

def wordBits : Nat → Nat → List Bool
  | 0, _ => []
  | n + 1, word => word.testBit n :: wordBits n word

def insert (symbol : Nat) : List Bool → Code → Code
  | [], _ => .leaf symbol
  | bit :: bits, .node zero one =>
    if bit then .node zero (insert symbol bits one) else .node (insert symbol bits zero) one
  | bit :: bits, _ =>
    if bit then .node .gap (insert symbol bits .gap) else .node (insert symbol bits .gap) .gap

def symbolsOf (lengths : List Nat) (length : Nat) : List Nat :=
  (lengths.zipIdx.filter (·.1 = length)).map (·.2)

/-- Gives words to the symbols of each length, from `length` on up to the longest one; `word` is
the first one free. -/
def assign (lengths : List Nat) : Nat → Nat → Nat → Code → Code
  | 0, _, _, code => code
  | more + 1, length, word, code =>
    let symbols := symbolsOf lengths length
    let code := symbols.zipIdx.foldl
      (fun code s => code.insert s.1 (wordBits length (word + s.2))) code
    assign lengths more (length + 1) (2 * (word + symbols.length)) code

def longest : Nat := 15

def share (n : Nat) : Nat := Nat.pow 2 (longest - n)

def weight (lengths : List Nat) : Nat :=
  (lengths.filter (· ≠ 0)).foldl (fun total n => total + share n) 0

/-- The code of these lengths. It must use all words; with `mayLack`, a single word of one bit
will do. Without any lengths the code is `unused`. -/
def ofLengths? (lengths : List Nat) (mayLack : Bool) (unused : Code) : Option Code :=
  let code := assign lengths longest 1 0 .gap
  if lengths.all (· = 0) then some unused
  else if weight lengths = share 0 then some code
  else if mayLack ∧ weight lengths < share 0 ∧ lengths.all (· ≤ 1) then some code
  else none

def read (fault : Fault) : Code → Bits → Except Fault (Nat × Bits)
  | .leaf symbol, b => .ok (symbol, b)
  | .gap, _ => .error fault
  | .node zero one, b => do
    let (bit, b) ← b.bit
    if bit then read fault one b else read fault zero b

end Code

end Apidoc.Flate
