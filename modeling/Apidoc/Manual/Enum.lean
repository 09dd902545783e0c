import Apidoc.Declaration
import Apidoc.Manual.Basic
import Apidoc.Page.EnumBlock

namespace Apidoc.Manual

/-- The description in the row of an enumerator; rows separated by tabs come first, and an empty
description counts as none. -/
def rowText? (text scope name item : Text) : Option Text :=
  [Page.Separator.tab, .spaces].findSome? fun separator =>
    match (Page.enumRow scope name item separator).search? text with
    | none => none
    | some found =>
      let docs := Text.trim (found.get .docs)
      if docs.isEmpty then none else some docs

def describeItem (m : Manual) (e : Enum) (item : Enumerator) : Enumerator × Bool :=
  match m.pages.find? (m.page e.scope) with
  | none => (item, false)
  | some text =>
    match rowText? text (scopeName e.scope) e.name item.name with
    | none => (item, false)
    | some docs => ({ item with remark := some ⟨docs, none⟩ }, true)

def enumText? (layout : Layout) (text scope name : Text) : Option Text :=
  match (Page.enumBlock layout scope name).search? text with
  | none => none
  | some found =>
    let docs := Text.trim (found.get .docs)
    if docs.isEmpty then none else some (Page.enumProse docs)

def describeEnum (m : Manual) (e : Enum) : Described Enum :=
  let key := m.page e.scope
  let items := e.items.map fun item => (m.describeItem e item).1
  match (m.pages.find? key).bind fun text => enumText? m.layout text (scopeName e.scope) e.name with
  | none => ⟨{ e with items := items }, false, []⟩
  | some prose =>
    ⟨{ e with remark := some ⟨prose, none⟩, items := items }, true, [.enumDocumented e.name key]⟩

end Apidoc.Manual
