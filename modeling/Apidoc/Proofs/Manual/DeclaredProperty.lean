import Apidoc.Manual.Property
import Apidoc.Proofs.Page.PropertyPage
import Apidoc.Proofs.PrintedType.Registered

namespace Apidoc.Manual

open Page PrintedType

variable {m : Manual} {p : Property}

theorem describeProperty_declared {name text : Text} {found : Match}
    (declared : p.macroName? m.layout = some name)
    (present : m.pages.find? (m.page p.scope) = some text)
    (matched : (propertyEntry m.aliases name p.type).search? text = some found)
    (functions : List Function) :
    m.describeProperty functions p = .ok (functions,
      ⟨{ p with name := name, remark := some ⟨found.get .docs, none⟩ }, true,
        [.propertyDocumented name (m.page p.scope)]⟩) := by
  have described : m.describeDeclared { p with name := name } =
      ⟨{ p with name := name, remark := some ⟨found.get .docs, none⟩ }, true,
        [.propertyDocumented name (m.page p.scope)]⟩ := by
    unfold describeDeclared
    simp only [present, matched]
  rw [describeProperty, declared]
  simp only [described]

/-- A declared property gets the description in its entry, whatever entries stand around it. Only a
line break in the spelling of its type needs care: some types have a shorter spelling in front of
one. -/
theorem describeProperty_entry (m : Manual) (functions : List Function) (p : Property)
    {page : PropertyPage} (formed : page.WellFormed)
    (present : m.pages.find? (m.page p.scope) = some page.text) {e : PropertyEntry}
    (listed : e ∈ page.entries) (declared : p.macroName? m.layout = some e.name)
    (words : m.aliases.OfWords) {tree : Tree} (parsed : parse p.type = .ok tree)
    (spelled : (pattern p.type m.aliases true).matchesAll e.type)
    (lines : '\n' ∈ e.type → IsBreakable m.aliases.names tree) :
    m.describeProperty functions p = .ok (functions,
      ⟨{ p with name := e.name, remark := some ⟨e.description, none⟩ }, true,
        [.propertyDocumented e.name (m.page p.scope)]⟩) := by
  obtain ⟨before, later, split⟩ := List.append_of_mem listed
  obtain ⟨found, matched, docs⟩ := search?_property words parsed formed split lines spelled
  rw [describeProperty_declared declared present matched, docs]

def dialProperty (name type : Text) : Property where
  name := name
  scope := some ⟨"QDial".toList, .classLike false,
    ["Q_PROPERTY(int ".toList ++ name ++ " READ value)".toList], none⟩
  remark := none
  type := type
  getter := none
  setter := none
  storage := none

def dialManual (page : PropertyPage) (aliases : List Alias) : Manual :=
  ⟨.ofList [("qdial.html".toList, page.text)], .ofAliases aliases, {}⟩

def dialPage : PropertyPage where
  front := "QDial\n\n".toList
  introduction := "\n".toList
  entries := [
    ⟨"step".toList, "int".toList, "Size of a step.\nOne at first.".toList, "\nstep()\n".toList⟩,
    ⟨"notches".toList, "unsigned\nint".toList, "Number of notches.".toList, "\n".toList⟩]
  back := "Members\n".toList

theorem dialPage_wellFormed : dialPage.WellFormed :=
  PropertyPage.wellFormed_of_places (by decide) (by decide) (by decide +kernel)

theorem describeProperty_entry_dial :
    let aliases : List Alias := [⟨"uint".toList, "unsigned int".toList, false⟩]
    let m := dialManual dialPage aliases
    let p := dialProperty "notches".toList "unsigned int".toList
    let e : PropertyEntry :=
      ⟨"notches".toList, "unsigned\nint".toList, "Number of notches.".toList, "\n".toList⟩
    dialPage.WellFormed ∧ m.pages.find? (m.page p.scope) = some dialPage.text ∧
      e ∈ dialPage.entries ∧ p.macroName? m.layout = some e.name ∧ m.aliases.OfWords ∧
      parse p.type = .ok unsignedInt ∧ (pattern p.type m.aliases true).matchesAll e.type ∧
      ('\n' ∈ e.type → IsBreakable m.aliases.names unsignedInt) ∧
      m.describeProperty [] p = .ok ([],
        ⟨{ p with name := e.name, remark := some ⟨e.description, none⟩ }, true,
          [.propertyDocumented e.name (m.page p.scope)]⟩) := by
  intro aliases m p e
  have present : m.pages.find? (m.page p.scope) = some dialPage.text := by decide +kernel
  have listed : e ∈ dialPage.entries := .tail _ (.head _)
  have declared : p.macroName? m.layout = some e.name := by decide +kernel
  have words : m.aliases.OfWords := AliasTable.ofWords_ofAliases fun a member => by
    rw [List.mem_singleton.mp member]
    decide
  have parsed : parse p.type = .ok unsignedInt := parse_unsignedInt
  have spelled : (pattern p.type m.aliases true).matchesAll e.type := by
    rw [pattern_of_parse parsed]
    decide +kernel
  have lines : '\n' ∈ e.type → IsBreakable m.aliases.names unsignedInt := by
    intro _
    refine ⟨fun _ absent => absurd absent List.not_mem_nil, fun _ => ?_⟩
    decide +kernel
  exact ⟨dialPage_wellFormed, present, listed, declared, words, parsed, spelled, lines,
    describeProperty_entry m [] p dialPage_wellFormed present listed declared words
      parsed spelled lines⟩

def nestedLong : Tree :=
  .mk ⟨false, none, false, 0, "Qt::long long::long".toList⟩
    (.inside (.plain ["Qt".toList])
      (.inside (.plain ["long".toList, "long".toList]) (.base (.plain ["long".toList]))))

theorem parse_nestedLong : parse "Qt::long long::long".toList = .ok nestedLong := by
  have row : tokens "Qt::long long::long".toList = .ok [⟨.word, [], "Qt".toList⟩,
      ⟨.scope, [], "::".toList⟩, ⟨.word, [], "long".toList⟩, ⟨.word, [' '], "long".toList⟩,
      ⟨.scope, [], "::".toList⟩, ⟨.word, [], "long".toList⟩] :=
    tokens_of_readsRow (by decide)
  rw [parse, row]
  rfl

def brokenDialPage : PropertyPage where
  front := "QDial\n\n".toList
  introduction := "\n".toList
  entries := [
    ⟨"value".toList, "Qt::long\nlong::long".toList, "A value.".toList, "\n".toList⟩,
    ⟨"limit".toList, "unsigned\nlong".toList, "A limit.".toList, "\n".toList⟩]
  back := []

theorem brokenDialPage_wellFormed : brokenDialPage.WellFormed :=
  PropertyPage.wellFormed_of_places (by decide) (by decide) (by decide +kernel)

/-- A scope of two words that may be left out, and the typedef name `unsigned` of `unsigned int`,
each end the type at a line break, and the description starts there. -/
theorem not_describeProperty_entry_broken :
    let m := dialManual brokenDialPage [⟨"unsigned".toList, "unsigned int".toList, false⟩]
    let p := dialProperty "value".toList "Qt::long long::long".toList
    let q := dialProperty "limit".toList "unsigned int".toList
    brokenDialPage.WellFormed ∧ m.aliases.OfWords ∧
      m.pages.find? (m.page p.scope) = some brokenDialPage.text ∧
      m.pages.find? (m.page q.scope) = some brokenDialPage.text ∧
      brokenDialPage.entries.map (·.name) = [p.name, q.name] ∧
      p.macroName? m.layout = some p.name ∧ q.macroName? m.layout = some q.name ∧
      parse p.type = .ok nestedLong ∧ parse q.type = .ok unsignedInt ∧
      List.Forall₂ (fun (r : Property) e => (pattern r.type m.aliases true).matchesAll e.type)
        [p, q] brokenDialPage.entries ∧
      brokenDialPage.entries.map (·.description) = ["A value.".toList, "A limit.".toList] ∧
      m.describeProperty [] p = .ok ([],
        ⟨{ p with remark := some ⟨"long::long\nA value.".toList, none⟩ }, true,
          [.propertyDocumented p.name (m.page p.scope)]⟩) ∧
      m.describeProperty [] q = .ok ([],
        ⟨{ q with remark := some ⟨"long\nA limit.".toList, none⟩ }, true,
          [.propertyDocumented q.name (m.page q.scope)]⟩) := by
  intro m p q
  have words : m.aliases.OfWords := AliasTable.ofWords_ofAliases fun a member => by
    rw [List.mem_singleton.mp member]
    decide
  have first : parse p.type = .ok nestedLong := parse_nestedLong
  have second : parse q.type = .ok unsignedInt := parse_unsignedInt
  have spelled : List.Forall₂
      (fun (r : Property) e => (pattern r.type m.aliases true).matchesAll e.type)
      [p, q] brokenDialPage.entries := by
    refine .cons ?_ (.cons ?_ .nil)
    · rw [pattern_of_parse first]
      decide +kernel
    · rw [pattern_of_parse second]
      decide +kernel
  have declared : p.macroName? m.layout = some p.name := by decide +kernel
  have declared' : q.macroName? m.layout = some q.name := by decide +kernel
  have present : m.pages.find? (m.page p.scope) = some brokenDialPage.text := by decide +kernel
  have present' : m.pages.find? (m.page q.scope) = some brokenDialPage.text := by decide +kernel
  have value : ∃ found, (propertyEntry m.aliases p.name p.type).search? brokenDialPage.text =
      some found ∧ found.get .docs = "long::long\nA value.".toList := by
    rw [propertyEntry_eq, pattern_of_parse first]
    exact Option.map_eq_some_iff.mp (by decide +kernel)
  have limit : ∃ found, (propertyEntry m.aliases q.name q.type).search? brokenDialPage.text =
      some found ∧ found.get .docs = "long\nA limit.".toList := by
    rw [propertyEntry_eq, pattern_of_parse second]
    exact Option.map_eq_some_iff.mp (by decide +kernel)
  obtain ⟨found, matched, docs⟩ := value
  obtain ⟨found', matched', docs'⟩ := limit
  have here := describeProperty_declared declared present matched []
  have below := describeProperty_declared declared' present' matched' []
  rw [docs] at here
  rw [docs'] at below
  exact ⟨brokenDialPage_wellFormed, words, present, present', by decide +kernel, declared,
    declared', first, second, spelled, by decide +kernel, here, below⟩

end Apidoc.Manual
