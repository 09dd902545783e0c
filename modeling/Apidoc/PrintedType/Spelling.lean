import Apidoc.PrintedType.Token

namespace Apidoc.PrintedType

/-- Drops the spaces around marks. `glued` tells that a mark was written last, `pending` that a
space was read and waits for what follows. -/
def tightenFrom : Bool → Bool → Text → Text
  | _, pending, [] => if pending then [' '] else []
  | _, _, ':' :: ':' :: cs => ':' :: ':' :: tightenFrom true false cs
  | glued, pending, c :: cs =>
    if Text.isBlank c then tightenFrom glued (!glued) cs
    else if marks.contains c then c :: tightenFrom true false cs
    else if pending then ' ' :: c :: tightenFrom false false cs
    else c :: tightenFrom false false cs

def tighten (s : Text) : Text := tightenFrom false false s

def canonical (s : Text) : Text := tighten (Text.collapse (Text.trim s))

end Apidoc.PrintedType
