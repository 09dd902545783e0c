import Apidoc.Text.Alphanumeric
import Apidoc.Text.Basic
import Apidoc.Text.Blank

/-!
Search patterns as data. Text of the page layout and text of a declaration are different parts, so
that the latter never acts as pattern notation.
-/
namespace Apidoc

inductive ClassItem
  | char (c : Char)
  | word
  | blank
  deriving DecidableEq, Repr

inductive CharClass
  | any
  | word
  | blank
  | nonblank
  | char (c : Char)
  | oneOf (items : List ClassItem)
  | noneOf (items : List ClassItem)
  deriving DecidableEq, Repr

/-- How often a part may stand in a row. The lazy forms try fewer first, the others more. -/
inductive Times
  | one
  | optional
  | star
  | plus
  | lazyStar
  | lazyPlus
  | exactly (n : Nat)
  | between (low high : Nat)
  | atLeast (n : Nat)
  deriving DecidableEq, Repr

inductive Field
  | arguments
  | docs
  | brief
  | detailed
  | typePart
  | namePart
  deriving DecidableEq, Repr

inductive Pattern
  | empty
  | fixed (text : Text)
  | quoted (text : Text)
  | chars (cls : CharClass) (times : Times)
  | seq (first second : Pattern)
  | alt (first second : Pattern)
  | group (body : Pattern) (times : Times)
  | field (name : Field) (body : Pattern)
  | start
  | finish
  | wordEdge
  | after (cls : CharClass)
  | notAfter (cls : CharClass)
  | notAhead (body : Pattern)
  deriving DecidableEq, Repr

def ClassItem.accepts (c : Char) : ClassItem → Bool
  | .char d => c == d
  | .word => Text.isWord c
  | .blank => Text.isBlank c

def CharClass.accepts : CharClass → Char → Bool
  | .any, _ => true
  | .word, c => Text.isWord c
  | .blank, c => Text.isBlank c
  | .nonblank, c => !Text.isBlank c
  | .char d, c => c == d
  | .oneOf items, c => items.any (ClassItem.accepts c)
  | .noneOf items, c => !items.any (ClassItem.accepts c)

namespace Times

def low : Times → Nat
  | .one | .plus | .lazyPlus => 1
  | .optional | .star | .lazyStar => 0
  | .exactly n | .atLeast n | .between n _ => n

def high? : Times → Option Nat
  | .one | .optional => some 1
  | .star | .plus | .lazyStar | .lazyPlus | .atLeast _ => none
  | .exactly n | .between _ n => some n

def isLazy : Times → Bool
  | .lazyStar | .lazyPlus => true
  | _ => false

def extra? (t : Times) : Option Nat := t.high?.map (· - t.low)

def isValid : Times → Bool
  | .between low high => decide (low ≤ high)
  | _ => true

end Times

namespace Pattern

def all : List Pattern → Pattern
  | [] => .empty
  | [p] => p
  | p :: ps => .seq p (all ps)

def separated (mark : Pattern) : List Pattern → Pattern
  | [] => .empty
  | [p] => p
  | p :: ps => .seq p (.seq mark (separated mark ps))

def spaces : Pattern := .chars .blank .star

def someSpaces : Pattern := .chars .blank .plus

def oneOf : List Pattern → Pattern
  | [] => .empty
  | [p] => p
  | p :: ps => .alt p (oneOf ps)

def fields : Pattern → List Field
  | .seq p q | .alt p q => fields p ++ fields q
  | .group p _ => fields p
  | .field name p => name :: fields p
  | _ => []

end Pattern

end Apidoc
