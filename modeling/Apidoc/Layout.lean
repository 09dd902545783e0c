import Apidoc.Text.Basic

/-!
How the documentation lays out its pages: the names of pages, and the empty lines that close their
blocks.
-/
namespace Apidoc

/-- The keys are the names of pages. A header whose file name holds a stem is described on the pages
of that stem. The number of line ends that close a function's text lies between `trailingLow` and
`trailingHigh`, and the block counts are the empty lines that may stand before the next entry. -/
structure Layout where
  globalKey : Text := "qtglobal.html".toList
  keyEnding : Text := ".html".toList
  retiredEnding : Text := "-obsolete.html".toList
  mathStem : Text := "qmath".toList
  mathKeys : List Text := ["qtmath.html".toList, "qtcore-qmath-h.html".toList]
  algorithmStem : Text := "qalgorithms".toList
  algorithmKeys : List Text := ["qtalgorithms.html".toList]
  propertyMacros : List Text := ["Q_PROPERTY".toList, "QDOC_PROPERTY".toList]
  trailingLow : Nat := 1
  trailingHigh : Nat := 2
  functionBlock : Nat := 2
  enumBlock : Nat := 3
  classBlock : Nat := 3
  deriving DecidableEq, Repr

inductive LayoutError
  | emptyRange (low high : Nat)
  deriving DecidableEq, Repr

def Layout.IsValid (layout : Layout) : Prop := layout.trailingLow ≤ layout.trailingHigh

instance (layout : Layout) : Decidable layout.IsValid :=
  inferInstanceAs (Decidable (layout.trailingLow ≤ layout.trailingHigh))

end Apidoc
