import Apidoc.Entity.Names
import Apidoc.Text.Ranges

/-!
Character references in page markup, and the escaping that writes them. References are decoded
once, from left to right; what does not name a character stays as it is.
-/
namespace Apidoc.Entity

/-- A reference without its ampersand. A name keeps the semicolon written after it. -/
inductive Reference
  | number (code : Nat)
  | name (text : Text)
  deriving DecidableEq, Repr

/-- Code points whose numbers stand for another character: zero, the carriage return, and the
C1 controls, which are read as windows-1252. -/
def remapped : List (Nat × Nat) :=
  [(0x00, 0xFFFD), (0x0D, 0x0D), (0x80, 0x20AC), (0x81, 0x81), (0x82, 0x201A), (0x83, 0x192),
    (0x84, 0x201E), (0x85, 0x2026), (0x86, 0x2020), (0x87, 0x2021), (0x88, 0x2C6), (0x89, 0x2030),
    (0x8A, 0x160), (0x8B, 0x2039), (0x8C, 0x152), (0x8D, 0x8D), (0x8E, 0x17D), (0x8F, 0x8F),
    (0x90, 0x90), (0x91, 0x2018), (0x92, 0x2019), (0x93, 0x201C), (0x94, 0x201D), (0x95, 0x2022),
    (0x96, 0x2013), (0x97, 0x2014), (0x98, 0x2DC), (0x99, 0x2122), (0x9A, 0x161), (0x9B, 0x203A),
    (0x9C, 0x153), (0x9D, 0x9D), (0x9E, 0x17E), (0x9F, 0x178)]

/-- Controls and noncharacters, whose numbers stand for nothing. -/
def isDropped (code : Nat) : Bool :=
  Text.inRanges [(0x01, 0x08), (0x0B, 0x0B), (0x0E, 0x1F), (0x7F, 0x9F), (0xFDD0, 0xFDEF)] code ||
    code % 0x10000 ≥ 0xFFFE

def ofCode (code : Nat) : Text :=
  match remapped.lookup code with
  | some other => [Char.ofNat other]
  | none =>
    if code.isValidChar then (if isDropped code then [] else [Char.ofNat code])
    else [Char.ofNat 0xFFFD]

/-- The longest proper start of a name that is a name itself, with at least two characters, and
what follows it. -/
def longestName : Nat → Text → Option (Text × Text)
  | n + 2, t =>
    match Names.find? (t.take (n + 2)) with
    | some value => some (value, t.drop (n + 2))
    | none => longestName (n + 1) t
  | _, _ => none

def Reference.value : Reference → Text
  | .number code => ofCode code
  | .name t =>
    match Names.find? t with
    | some value => value
    | none =>
      match longestName (t.length - 1) t with
      | some (value, rest) => value ++ rest
      | none => '&' :: t

def isHexDigit (c : Char) : Bool :=
  c.isDigit || decide ('a' ≤ c ∧ c ≤ 'f') || decide ('A' ≤ c ∧ c ≤ 'F')

def digitValue (c : Char) : Nat :=
  if c.isDigit then c.toNat - '0'.toNat
  else if 'a' ≤ c then c.toNat - 'a'.toNat + 10
  else c.toNat - 'A'.toNat + 10

def numeral (base : Nat) (digits : Text) : Nat :=
  digits.foldl (fun n c => n * base + digitValue c) 0

def isNameChar (c : Char) : Bool := !("\t\n\x0c <&#;".toList.contains c)

def semicolon : Text → Text
  | ';' :: _ => [';']
  | _ => []

def numberAt? (mark base : Nat) (isDigit : Char → Bool) (s : Text) : Option (Reference × Nat) :=
  let digits := s.takeWhile isDigit
  if digits.isEmpty then none
  else
    some (.number (numeral base digits),
      mark + digits.length + (semicolon (s.drop digits.length)).length)

def nameAt? (s : Text) : Option (Reference × Nat) :=
  let letters := (s.take 32).takeWhile isNameChar
  if letters.isEmpty then none
  else
    let name := letters ++ semicolon (s.drop letters.length)
    some (.name name, name.length)

def read? : Text → Option (Reference × Nat)
  | '#' :: 'x' :: s => numberAt? 2 16 isHexDigit s
  | '#' :: 'X' :: s => numberAt? 2 16 isHexDigit s
  | '#' :: s => numberAt? 1 10 Char.isDigit s
  | s => nameAt? s

/-- Decodes the references of a text; the first `skip` characters belong to one that was decoded
already. -/
def decodeFrom : Nat → Text → Text
  | _, [] => []
  | skip + 1, _ :: cs => decodeFrom skip cs
  | 0, c :: cs =>
    if c = '&' then
      match read? cs with
      | some (r, length) => r.value ++ decodeFrom length cs
      | none => c :: decodeFrom 0 cs
    else c :: decodeFrom 0 cs

def decode (s : Text) : Text := decodeFrom 0 s

def digitLimit : Nat := 4300

structure NumberError where
  digits : Nat
  deriving DecidableEq, Repr

def NumberError.message (e : NumberError) : Text :=
  "Exceeds the limit (".toList ++ Text.ofNat digitLimit ++
    " digits) for integer string conversion: value has ".toList ++ Text.ofNat e.digits ++
    " digits; use sys.set_int_max_str_digits() to increase the limit".toList

def decimals : Text → Text
  | '#' :: s => s.takeWhile Char.isDigit
  | _ => []

/-- The first number of a text that has too many decimal digits. No reference goes on behind another
ampersand, so each of them may begin one. -/
def overlong? : Text → Option NumberError
  | [] => none
  | c :: cs =>
    let digits := (decimals cs).length
    if c = '&' ∧ digitLimit < digits then some ⟨digits⟩ else overlong? cs

def encodeChar (c : Char) : Text :=
  match c with
  | '&' => "&amp;".toList
  | '<' => "&lt;".toList
  | '>' => "&gt;".toList
  | '"' => "&quot;".toList
  | '\'' => "&#x27;".toList
  | _ => [c]

def encode (s : Text) : Text := s.flatMap encodeChar

end Apidoc.Entity
