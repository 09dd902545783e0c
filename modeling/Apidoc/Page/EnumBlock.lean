import Apidoc.Pattern.Match
import Apidoc.Scope
import Apidoc.PrintedType.Pattern

namespace Apidoc.Page

open Pattern PrintedType

def enumHeading (scope name : Text) : Pattern :=
  all [.fixed "enum ".toList, .quoted (Scope.qualify scope name), .wordEdge]

def flagsName (scope : Text) : Pattern :=
  if scope.isEmpty then .chars .word .plus
  else all [.group (all [.quoted scope, .fixed "::".toList]) .optional, .chars .word .plus]

def enumBlock (layout : Layout) (scope name : Text) : Pattern :=
  all [enumHeading scope name,
    .group (all [spaces, .fixed "flags ".toList, flagsName scope, someSpaces]) .optional,
    .field .docs (.chars .any .lazyStar), .chars (.char '\n') (.exactly layout.enumBlock)]

def tableHeading : Pattern :=
  all [.fixed "ConstantValue".toList, .group (.fixed "Description".toList) .optional]

def flagsSentences : Pattern :=
  all [.fixed "The ".toList, .chars .nonblank .plus, .fixed " type is a typedef for QFlags<".toList,
    .chars .nonblank .plus, .fixed ">. It stores an OR combination of ".toList,
    .chars .nonblank .plus, .fixed " values.".toList]

def constantTable : Pattern :=
  all [tableHeading, .chars .any .lazyStar,
    .group (.alt (.chars (.char '\n') (.exactly 2)) .finish) .one]

/-- The description of an enum without the sentences on its flags type and without its value
table. -/
def enumProse (docs : Text) : Text :=
  Text.trim (constantTable.removeAll (flagsSentences.removeAll docs))

inductive Separator
  | tab
  | spaces
  deriving DecidableEq, Repr

def Separator.pattern : Separator → Pattern
  | .tab => .chars (.char '\t') .one
  | .spaces => .chars (.char ' ') .plus

/-- The name of an enumerator in a table; members of the global scope may be listed with any. -/
def memberName (scope item : Text) : Pattern :=
  if scope.isEmpty then all [anyScope, .quoted item] else .quoted (Scope.qualify scope item)

/-- The row of an enumerator. Its table lies in the block of the enum and has no empty line before
the row. -/
def enumRow (scope name item : Text) (separator : Separator) : Pattern :=
  let column := separator.pattern
  all [enumHeading scope name,
    .group (all [.notAhead (.chars (.char '\n') (.exactly 3)), .chars .any .one]) .lazyStar,
    tableHeading, .chars (.noneOf [.char '\n']) .star, .fixed "\n".toList,
    .group (all [.chars (.noneOf [.char '\n']) .plus, .fixed "\n".toList]) .lazyStar,
    memberName scope item, column, .chars (.noneOf [.char '\t', .char '\n']) .lazyPlus, column,
    .field .docs (.chars (.noneOf [.char '\n']) .lazyStar),
    .group (all [.fixed "&".toList, .chars .word .plus, .fixed ";".toList]) .optional,
    .fixed "\n".toList]

end Apidoc.Page
