import Apidoc.Pattern.Basic
import Apidoc.PrintedType.Aliases
import Apidoc.PrintedType.Parser

/-!
Search patterns for the documented spellings of a type: with or without `const`, sign and scope,
with free spacing, with brackets for pointers, under a typedef name, or under a legacy name.
-/
namespace Apidoc.PrintedType

open Pattern

def plainSpaces : Pattern := .chars (.char ' ') .star

def anyScope : Pattern := .group (all [.chars .word .plus, .fixed "::".toList]) .optional

def optionalConst : Pattern := .group (all [.fixed constWord, someSpaces]) .optional

def pointerMark : Pattern := .alt (.fixed "*".toList) (.fixed "[]".toList)

def pointerMarks : Pattern := .group pointerMark .plus

def referencePart : Pattern := all [plainSpaces, .fixed "&".toList, plainSpaces]

def pointerPart : Pattern := all [plainSpaces, pointerMarks, plainSpaces]

def looseDecoration : Pattern :=
  .group (all [plainSpaces, .group (.alt (.fixed "&".toList) pointerMarks) .one, plainSpaces])
    .optional

/-- The decoration that a type needs; a reference outweighs pointers. -/
def Form.decoration (form : Form) : Pattern :=
  if form.reference then referencePart else if form.pointers ≠ 0 then pointerPart else .empty

def wordsPattern (words : List Text) : Pattern := separated someSpaces (words.map .quoted)

def signPattern : Option Sign → Pattern
  | none => .empty
  | some sign => .group (all [.fixed sign.text, someSpaces]) .optional

def namePattern (sign : Option Sign) (scopes base : Pattern) : Pattern :=
  all [anyScope, signPattern sign, scopes, base]

def Path.hasTemplateScope (path : Path) : Bool := path.scopes.any (·.arguments?.isSome)

/-- Scopes may be left out unless one of them has template arguments. -/
def Path.scopesPattern (path : Path) (scopes : Pattern) : Pattern :=
  match path with
  | .base _ => .empty
  | .inside _ _ => if path.hasTemplateScope then scopes else .group scopes .optional

/-- The sign and word that the documentation may still have for a type that is printed otherwise. -/
structure LegacyName where
  sign : Option Sign
  word : Text

def legacyNames : List (Text × LegacyName) :=
  [("int".toList, ⟨none, "long".toList⟩),
    ("int*".toList, ⟨none, "long".toList⟩),
    ("unsigned int".toList, ⟨some .unsigned, "long".toList⟩),
    ("unsigned int*".toList, ⟨some .unsigned, "long".toList⟩),
    ("char".toList, ⟨none, "wchar_t".toList⟩),
    ("char*".toList, ⟨none, "wchar_t".toList⟩),
    ("const char*".toList, ⟨none, "wchar_t".toList⟩)]

def Form.fullSpelling (form : Form) : Text :=
  (if form.const then "const ".toList else []) ++ form.spelling ++
    List.replicate form.pointers '*' ++ (if form.reference then ['&'] else [])

def Form.legacyPatterns (form : Form) : List Pattern :=
  match legacyNames.lookup form.fullSpelling with
  | some legacy => [namePattern legacy.sign .empty (.quoted legacy.word)]
  | none => []

def anySpelling (choices : List Pattern) : Pattern :=
  all [optionalConst, .group (oneOf (choices.map (.group · .one))) .one]

abbrev Extra := Text → List Pattern

mutual

def Tree.pattern (extra : Extra) : Tree → Pattern
  | .mk form path =>
    let name :=
      namePattern form.sign (path.scopesPattern (path.allScopes extra)) (path.lastPattern extra)
    .seq (anySpelling (name :: extra form.spelling ++ form.legacyPatterns)) form.decoration

def Path.allScopes (extra : Extra) : Path → Pattern
  | .base _ => .empty
  | .inside s path => all [s.pattern extra, .fixed "::".toList, path.allScopes extra]

def Path.lastPattern (extra : Extra) : Path → Pattern
  | .base s => s.pattern extra
  | .inside _ path => path.lastPattern extra

def Segment.pattern (extra : Extra) : Segment → Pattern
  | .plain words => wordsPattern words
  | .template words arguments =>
    all [wordsPattern words, spaces, .fixed "<".toList, spaces, arguments.pattern extra, spaces,
      .fixed ">".toList]

def Arguments.pattern (extra : Extra) : Arguments → Pattern
  | .one t => t.pattern extra
  | .cons t rest => all [t.pattern extra, .fixed ",".toList, spaces, rest.pattern extra]

end

def Tree.bareName (extra : Extra) (t : Tree) : Pattern :=
  namePattern t.form.sign (t.path.scopesPattern (t.path.allScopes extra)) (t.path.lastPattern extra)

/-- Text outside the grammar: blanks are free, brackets may stand for a star, and blanks may stand
before a decoration and behind a comma. -/
def looseChar (c : Char) : Pattern :=
  if c = '*' then all [spaces, .group pointerMark .one]
  else if c = '&' then all [spaces, .fixed "&".toList]
  else if c = ',' then all [.fixed ",".toList, spaces]
  else if Text.isBlank c then spaces
  else .quoted [c]

def loosePattern (s : Text) : Pattern := all (s.map looseChar)

def Reading.bareName (extra : Extra) : Reading → Pattern
  | .tree t => t.bareName extra
  | .verbatim _ s => .seq anyScope (loosePattern s)

/-- The choices that the typedef names of a spelling add. They have no typedef names of their
own. -/
def AliasTable.extra (table : AliasTable) : Extra := fun spelling =>
  (table.names spelling).map fun name => (read name).bareName fun _ => []

def Reading.spelling : Reading → Text
  | .tree t => t.form.spelling
  | .verbatim _ s => canonical s

/-- The pattern of a type. A complete declarator has the decoration of the type, any other may have
another or none. -/
def Reading.pattern (table : AliasTable) (complete : Bool) (r : Reading) : Pattern :=
  let choices := r.bareName table.extra :: table.extra r.spelling
  match r with
  | .verbatim _ _ => anySpelling choices
  | .tree t =>
    .seq (anySpelling (choices ++ t.form.legacyPatterns))
      (if complete then t.form.decoration else looseDecoration)

def pattern (type : Text) (table : AliasTable) (complete : Bool) : Pattern :=
  (read type).pattern table complete

end Apidoc.PrintedType
