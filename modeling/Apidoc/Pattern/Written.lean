import Apidoc.Pattern.Basic

/-!
The written form of a search pattern. Text of a declaration has a backslash before every character
that the notation knows; fixed text is written with as few as it needs.
-/
namespace Apidoc

def notationChars : Text := " \t\n\r\x0b\x0c#$&()*+-.?[\\]^\x7b|\x7d~".toList

def escapeQuoted (c : Char) : Text := if notationChars.contains c then ['\\', c] else [c]

/-- Line feeds, tabs and carriage returns are written by letters. -/
def escapeControl? : Char → Option Text
  | '\n' => some "\\n".toList
  | '\t' => some "\\t".toList
  | '\r' => some "\\r".toList
  | _ => none

def escapeFixed (c : Char) : Text :=
  (escapeControl? c).getD
    (if "\\.*+?()[]\x7b\x7d|^$".toList.contains c then ['\\', c] else [c])

def escapeInClass (c : Char) : Text :=
  (escapeControl? c).getD (if "\\]".toList.contains c then ['\\', c] else [c])

def ClassItem.written : ClassItem → Text
  | .char c => escapeInClass c
  | .word => "\\w".toList
  | .blank => "\\s".toList

def CharClass.written : CharClass → Text
  | .any => ".".toList
  | .word => "\\w".toList
  | .blank => "\\s".toList
  | .nonblank => "\\S".toList
  | .char c => escapeFixed c
  | .oneOf items => "[".toList ++ items.flatMap ClassItem.written ++ "]".toList
  | .noneOf items => "[^".toList ++ items.flatMap ClassItem.written ++ "]".toList

def bracesText (inner : Text) : Text := '\x7b' :: inner ++ ['\x7d']

def Times.written : Times → Text
  | .one => []
  | .optional => "?".toList
  | .star => "*".toList
  | .plus => "+".toList
  | .lazyStar => "*?".toList
  | .lazyPlus => "+?".toList
  | .exactly n => bracesText (Text.ofNat n)
  | .between low high => bracesText (Text.ofNat low ++ ",".toList ++ Text.ofNat high)
  | .atLeast n => bracesText (Text.ofNat n ++ ",".toList)

def Field.label : Field → Text
  | .arguments => "args".toList
  | .docs => "docs".toList
  | .brief => "brief".toList
  | .detailed => "detailed".toList
  | .typePart => "type".toList
  | .namePart => "name".toList

def enclosed (opening body : Text) : Text := opening ++ body ++ ")".toList

def Pattern.written : Pattern → Text
  | .empty => []
  | .fixed t => t.flatMap escapeFixed
  | .quoted t => t.flatMap escapeQuoted
  | .chars cls times => cls.written ++ times.written
  | .seq p q => p.written ++ q.written
  | .alt p q => p.written ++ "|".toList ++ q.written
  | .group p times => enclosed "(?:".toList p.written ++ times.written
  | .field name p => enclosed ("(?P<".toList ++ name.label ++ ">".toList) p.written
  | .start => "^".toList
  | .finish => "$".toList
  | .wordEdge => "\\b".toList
  | .after cls => enclosed "(?<=".toList cls.written
  | .notAfter cls => enclosed "(?<!".toList cls.written
  | .notAhead p => enclosed "(?!".toList p.written

end Apidoc
