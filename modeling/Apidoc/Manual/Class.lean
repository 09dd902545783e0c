import Apidoc.Declaration
import Apidoc.Manual.Basic
import Apidoc.Page.ClassOverview

namespace Apidoc.Manual

/-- Describes a class by the overview on its page. The detailed text does not repeat the brief. -/
def describeClass (m : Manual) (c : ClassDecl) : Described ClassDecl :=
  let key := m.page (some c.scope)
  match m.pages.find? key with
  | none => .unchanged c
  | some text =>
    match (Page.classOverview m.layout c.scope.name).search? text with
    | none => .unchanged c
    | some found =>
      let brief := Text.trim (found.get .brief)
      let detail := Text.replaceAll brief [] (found.get .detailed)
      ⟨{ c with remark := some ⟨brief, some detail⟩ }, true, [.classDocumented c.scope.name key]⟩

end Apidoc.Manual
