import Apidoc.PrintedType.Spelling

namespace Apidoc.PrintedType

def combiningWords : List Text :=
  ["char", "double", "float", "int", "long", "short"].map String.toList

def isCombining (word : Text) : Bool := combiningWords.contains word

inductive Sign
  | signed
  | unsigned
  deriving DecidableEq, Repr

def Sign.text : Sign → Text
  | .signed => "signed".toList
  | .unsigned => "unsigned".toList

def Sign.ofText? (word : Text) : Option Sign :=
  [Sign.signed, Sign.unsigned].find? (·.text = word)

/-- What stands around the name of a type. The spelling is the canonical text of the name with its
sign and template arguments. -/
structure Form where
  const : Bool
  sign : Option Sign
  reference : Bool
  pointers : Nat
  spelling : Text
  deriving DecidableEq, Repr

mutual

inductive Tree
  | mk (form : Form) (path : Path)
  deriving Repr

/-- Segments joined by double colons, the base name last. -/
inductive Path
  | base (segment : Segment)
  | inside (scope : Segment) (path : Path)
  deriving Repr

inductive Segment
  | plain (words : List Text)
  | template (words : List Text) (arguments : Arguments)
  deriving Repr

inductive Arguments
  | one (type : Tree)
  | cons (type : Tree) (rest : Arguments)
  deriving Repr

end

def Tree.form : Tree → Form
  | .mk form _ => form

def Tree.path : Tree → Path
  | .mk _ path => path

def Arguments.toList : Arguments → List Tree
  | .one t => [t]
  | .cons t rest => t :: rest.toList

def Segment.words : Segment → List Text
  | .plain words | .template words _ => words

def Segment.name (s : Segment) : Text := [' '].intercalate s.words

def Segment.arguments? : Segment → Option Arguments
  | .plain _ => none
  | .template _ arguments => some arguments

def Path.last : Path → Segment
  | .base s => s
  | .inside _ path => path.last

def Path.scopes : Path → List Segment
  | .base _ => []
  | .inside s path => s :: path.scopes

def Path.toList (path : Path) : List Segment := path.scopes ++ [path.last]

end Apidoc.PrintedType
