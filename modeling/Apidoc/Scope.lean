import Apidoc.Layout
import Apidoc.Text.Lowercase

namespace Apidoc

inductive ScopeKind
  | classLike (interface : Bool)
  | space
  | header (file : Text)
  | plain
  deriving DecidableEq, Repr

/-- `macros` are the texts of the macros that stand in the scope. -/
structure Scope where
  name : Text
  kind : ScopeKind
  macros : List Text
  enclosing : Option Scope
  deriving Repr

namespace Scope

def isClass (s : Scope) : Bool := match s.kind with | .classLike _ => true | _ => false

def interface (s : Scope) : Bool :=
  match s.kind with | .classLike interface => interface | _ => false

/-- The name of a scope in a page name; an interface loses its first letter. -/
def pageStem (s : Scope) : Text :=
  let name := Text.lower s.name
  if s.interface then name.drop 1 else name

def parentStem (s : Scope) : Text :=
  match s.enclosing with
  | some parent => if parent.isClass then Text.lower parent.name ++ ['-'] else []
  | none => []

def qualify (scope name : Text) : Text :=
  if scope.isEmpty then name else scope ++ "::".toList ++ name

end Scope

def scopeName (scope : Option Scope) : Text := (scope.map (·.name)).getD []

namespace Layout

def page (layout : Layout) : Option Scope → Text
  | none => layout.globalKey
  | some s =>
    if s.name.isEmpty then layout.globalKey else s.parentStem ++ s.pageStem ++ layout.keyEnding

def retiredKey (layout : Layout) (key : Text) : Text :=
  Text.replaceAll layout.keyEnding layout.retiredEnding key

/-- The global pages of the header that a declaration stands in. -/
def headerKeys (layout : Layout) (scope : Option Scope) : List Text :=
  match scope with
  | none => []
  | some s =>
    match s.kind with
    | .header file =>
      if layout.mathStem.occursIn file then layout.mathKeys
      else if layout.algorithmStem.occursIn file then layout.algorithmKeys
      else []
    | _ => []

end Layout

end Apidoc
