import Apidoc.Declaration
import Apidoc.Pattern.Match
import Apidoc.PrintedType.Pattern

/-!
The block of a function on the page of its scope: an empty line, the return type, the scope and
the declarator, and the description up to empty lines or the mark of the next entry.
-/
namespace Apidoc.Page

open Pattern PrintedType

def comma : Pattern := .fixed ",".toList

def defaultValue : Pattern :=
  all [spaces, .fixed "=".toList, spaces,
    .chars (.noneOf [.char ',', .char '\r', .char '\n']) .plus,
    .group (all [.fixed "(".toList, spaces, .fixed ")".toList]) .optional]

/-- The name behind a parameter's type, which needs no blank behind a decoration, and its default
value. -/
def nameAndDefault : Pattern :=
  .group (all [.group (.alt someSpaces (.after (.oneOf [.char '*', .char '&', .char ']']))) .one,
    .chars .word .plus, .group defaultValue .optional]) .optional

def typeChars : List ClassItem :=
  [.word, .char ' ', .char ':', .char '*', .char '&', .char '<', .char '>']

/-- A parameter with a default value that the declaration does not have. -/
def unlistedParameter : Pattern :=
  all [.chars (.oneOf typeChars) .plus, defaultValue, .group (all [comma, spaces]) .optional]

def parameterPattern (table : AliasTable) (complete : Bool) (p : Parameter) : Pattern :=
  .seq (PrintedType.pattern p.type table complete) nameAndDefault

def parametersPattern (table : AliasTable) (complete : Bool) (ps : List Parameter) : Pattern :=
  match ps with
  | [] => .group unlistedParameter .star
  | p :: ps =>
    all [separated (all [comma, spaces]) ((p :: ps).map (parameterPattern table complete)),
      .group (all [comma, spaces, unlistedParameter]) .star]

def declarator (table : AliasTable) (complete : Bool) (f : Function) : Pattern :=
  all [.quoted f.documentedName, spaces, .fixed "(".toList, spaces,
    .field .arguments (parametersPattern table complete f.callParameters),
    spaces, .fixed ")".toList, spaces]

def lineEnd : Pattern := all [.fixed "\n".toList, spaces]

def entryMark : Pattern := .fixed " --".toList

def functionEnd (layout : Layout) : Pattern :=
  all [.group lineEnd (.between layout.trailingLow layout.trailingHigh),
    .group (.alt
      (.group (all [.chars (.char '&') .optional, .chars .nonblank .star, entryMark]) .one)
      (.group (.group lineEnd (.exactly layout.functionBlock)) .one)) .one]

/-- The start of a page, a mark or a line end, and an empty line. -/
def functionStart : Pattern :=
  all [.group (.alt .start (.alt (.group entryMark .one) (.fixed "\n".toList))) .one,
    .fixed "\n".toList]

def returnType : Pattern := .group (.chars (.oneOf (typeChars ++ [.char ','])) .plus) .optional

def scopeOrBlank (scope : Text) : Pattern :=
  .group (.alt
    (.group (all [.quoted scope, .group (all [spaces, .fixed "&".toList]) .optional,
      .fixed "::".toList]) .one)
    (.fixed " ".toList)) .one

def headingEnd : Pattern :=
  all [.group (.fixed "const".toList) .optional,
    .group (all [.fixed " [".toList, .chars (.oneOf [.word, .blank]) .plus, .fixed "]".toList])
      .optional,
    .fixed "\n".toList]

def functionBlock (layout : Layout) (table : AliasTable) (complete : Bool) (f : Function) :
    Pattern :=
  all [functionStart, returnType, scopeOrBlank (scopeName f.scope), declarator table complete f,
    headingEnd, .field .docs (all [.chars .word .one, .chars .any .lazyStar]),
    functionEnd layout]

/-- The block's pattern; a layout whose range of line ends is empty has none. -/
def functionSearch (layout : Layout) (table : AliasTable) (complete : Bool) (f : Function) :
    Except LayoutError Pattern :=
  if layout.IsValid then .ok (functionBlock layout table complete f)
  else .error (.emptyRange layout.trailingLow layout.trailingHigh)

structure FunctionText where
  docs : Text
  arguments : Text
  deriving DecidableEq, Repr

def findFunction? (layout : Layout) (table : AliasTable) (complete : Bool) (f : Function)
    (page : Text) : Except LayoutError (Option FunctionText) :=
  (functionSearch layout table complete f).map fun p =>
    (p.search? page).map fun m => ⟨m.get .docs, m.get .arguments⟩

end Apidoc.Page
