import Apidoc.Text.Basic
import Apidoc.Text.Ranges

namespace Apidoc.Text

def blankRanges : List (Nat × Nat) :=
  [(0x09, 0x0D), (0x1C, 0x20), (0x85, 0x85), (0xA0, 0xA0), (0x1680, 0x1680), (0x2000, 0x200A),
    (0x2028, 0x2029), (0x202F, 0x202F), (0x205F, 0x205F), (0x3000, 0x3000)]

/-- White space: the blank characters of Unicode and the four information separators. -/
def isBlank (c : Char) : Bool := inRanges blankRanges c.toNat

def allBlank (s : Text) : Bool := s.all isBlank

def trimLeft (s : Text) : Text := s.dropWhile isBlank

def trimRight (s : Text) : Text := (s.reverse.dropWhile isBlank).reverse

def trim (s : Text) : Text := trimRight (trimLeft s)

def consHead (c : Char) : List Text → List Text
  | [] => [[c]]
  | w :: ws => (c :: w) :: ws

def words : Text → List Text
  | [] => []
  | c :: cs =>
    if isBlank c then words cs
    else if cs.head?.all isBlank then [c] :: words cs
    else consHead c (words cs)

def collapse : Text → Text
  | [] => []
  | c :: cs =>
    if isBlank c then
      if cs.head?.any isBlank then collapse cs else ' ' :: collapse cs
    else c :: collapse cs

end Apidoc.Text
