import Apidoc.Text.Blank

namespace Apidoc.Text

def isLineBreak (c : Char) : Bool :=
  inRanges [(0x0A, 0x0D), (0x1C, 0x1E), (0x85, 0x85), (0x2028, 0x2029)] c.toNat

/-- The lines without their ends. A carriage return and a line feed are one end, and the end of
the text closes a line only if something stands on it. -/
def lines : Text → List Text
  | [] => []
  | '\r' :: '\n' :: cs => [] :: lines cs
  | c :: cs => if isLineBreak c then [] :: lines cs else consHead c (lines cs)

/-- Line ends as single line feeds: a carriage return counts as one, with or without a line feed
after it. -/
def unixLines : Text → Text
  | [] => []
  | '\r' :: '\n' :: cs => '\n' :: unixLines cs
  | c :: cs => (if c = '\r' then '\n' else c) :: unixLines cs

end Apidoc.Text
