import Apidoc.Declaration
import Apidoc.Entity
import Apidoc.Text.Lines

/-!
The markers of deprecated functions. A marker carries the line of the description that says what
to use instead.
-/
namespace Apidoc

def hintWords : List Text := ["instead".toList, "deprecated".toList]

def isHint (line : Text) : Bool := hintWords.any fun word => word.occursIn line

/-- The first line that tells of a replacement, as it reads on a page that is written out and
decoded again. -/
def replacementHint? (brief : Text) : Option Text :=
  (Text.lines (Entity.decode (Entity.encode brief))).find? isHint

/-- Marks a function as obsolete, in place of any such marker it has. -/
def Function.retire (f : Function) : Function :=
  let hint := replacementHint? ((f.remark.map (·.brief)).getD [])
  { f with notices := f.notices.filter (!·.marksObsolete) ++ [⟨obsoleteKind, hint⟩] }

end Apidoc
