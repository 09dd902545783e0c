import Apidoc.Log
import Apidoc.PageTable
import Apidoc.PrintedType.Aliases
import Apidoc.Scope

namespace Apidoc

structure Manual where
  pages : PageTable
  aliases : PrintedType.AliasTable
  layout : Layout
  deriving DecidableEq, Repr

/-- A declaration after its description was looked up, whether one was found, and a report. -/
structure Described (α : Type) where
  value : α
  found : Bool
  events : List Event
  deriving Repr

namespace Described

def unchanged {α : Type} (value : α) : Described α := ⟨value, false, []⟩

end Described

namespace Manual

def page (m : Manual) (scope : Option Scope) : Text := m.layout.page scope

end Manual

end Apidoc
