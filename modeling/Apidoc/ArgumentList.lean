import Apidoc.Declaration
import Apidoc.Identifier
import Apidoc.Pattern.Match
import Apidoc.PrintedType.Tree

namespace Apidoc.ArgumentList

open Pattern

/-- Cuts a list at the commas at depth zero of its brackets. -/
def piecesFrom : Int → Text → List Text
  | _, [] => [[]]
  | depth, c :: cs =>
    if c = '<' ∨ c = '(' then Text.consHead c (piecesFrom (depth + 1) cs)
    else if c = '>' ∨ c = ')' then Text.consHead c (piecesFrom (depth - 1) cs)
    else if c = ',' ∧ depth = 0 then [] :: piecesFrom depth cs
    else Text.consHead c (piecesFrom depth cs)

def pieces (s : Text) : List Text := piecesFrom 0 s

/-- An underscore and a digit start the name of a parameter that has none of its own. -/
def isAnonymous (name : Text) : Bool :=
  match name with
  | '_' :: rest => Identifier.startsWithDigit rest
  | _ => false

def typeEndings : List Text :=
  PrintedType.combiningWords ++ ["signed", "unsigned", "bool", "void"].map String.toList

def isToolkitType : Text → Bool
  | 'Q' :: c :: _ => c.isUpper
  | _ => false

/-- Whether the last word of a piece belongs to its type, given what stands before it. -/
def endsType (before word : Text) : Bool :=
  typeEndings.contains word || Text.trim before == "const".toList || isToolkitType word

def shortDefault : Pattern :=
  all [spaces, .fixed "=".toList, spaces, .chars (.noneOf [.char '(', .char ',', .blank]) .plus,
    .group (all [.fixed "(".toList, spaces, .fixed ")".toList]) .optional]

def namedParameter : Pattern :=
  all [.start,
    .field .typePart
      (all [.chars .any .lazyPlus, .chars (.oneOf [.blank, .char '*', .char '&']) .plus]),
    .field .namePart (.chars .word .plus), .group shortDefault .optional, spaces, .finish]

def nameIn? (piece : Text) : Option Text :=
  match namedParameter.matchStart? piece with
  | some m =>
    if endsType (m.get .typePart) (m.get .namePart) then none
    else some (Identifier.sanitize (m.get .namePart))
  | none => none

def adopt (p : Parameter) (piece : Text) : Parameter :=
  if isAnonymous p.name then { p with name := (nameIn? piece).getD p.name } else p

def adoptEach : List Parameter → List Text → List Parameter
  | p :: ps, s :: ss => adopt p s :: adoptEach ps ss
  | ps, _ => ps

/-- Stands for the left operand, which the documentation of a member operator leaves out. -/
def leftOperand : Text := "one".toList

/-- Gives anonymous parameters their documented names. A list that is one short lacks the left
operand. -/
def adoptNames (ps : List Parameter) (arguments : Text) : List Parameter :=
  let documented := pieces arguments
  adoptEach ps
    (if documented.length + 1 = ps.length then leftOperand :: documented else documented)

end Apidoc.ArgumentList
