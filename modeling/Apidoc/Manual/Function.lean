import Apidoc.ArgumentList
import Apidoc.Deprecation
import Apidoc.Manual.Basic
import Apidoc.Page.FunctionBlock

/-!
Descriptions of functions. The page of a function's scope is searched first, then the pages of its
header, and last the page of retired members, where another decoration of a parameter will do.
-/
namespace Apidoc

inductive Edition
  | current
  | retired
  deriving DecidableEq, Repr

/-- A function with the description found for it; one that was found as retired is obsolete. -/
def Function.adopt (f : Function) (edition : Edition) (text : Page.FunctionText) : Function :=
  let documented : Function :=
    { f with
      remark := some ⟨text.docs, none⟩
      parameters := ArgumentList.adoptNames f.parameters text.arguments }
  match edition with
  | .current => documented
  | .retired => documented.retire

namespace Manual

def functionPages (m : Manual) (f : Function) : List (Text × Edition) :=
  let key := m.page f.scope
  (key :: m.layout.headerKeys f.scope).map (·, .current) ++
    [(m.layout.retiredKey key, .retired)]

def findOn? (m : Manual) (f : Function) (key : Text) (edition : Edition) :
    Except LayoutError (Option Page.FunctionText) :=
  match m.pages.find? key with
  | none => .ok none
  | some text => Page.findFunction? m.layout m.aliases (edition = .current) f text

def describeFrom (m : Manual) (f : Function) :
    List (Text × Edition) → Except LayoutError (Described Function)
  | [] => .ok (.unchanged f)
  | (key, edition) :: rest =>
    match m.findOn? f key edition with
    | .error e => .error e
    | .ok none => m.describeFrom f rest
    | .ok (some text) =>
      .ok ⟨f.adopt edition text, true, [.functionDocumented f.documentedName key]⟩

def describeFunction (m : Manual) (f : Function) : Except LayoutError (Described Function) :=
  m.describeFrom f (m.functionPages f)

end Manual

end Apidoc
