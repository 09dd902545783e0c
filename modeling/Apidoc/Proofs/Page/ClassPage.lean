import Apidoc.Manual.Class
import Apidoc.Proofs.Pattern.FirstMatch
import Apidoc.Proofs.Text.Occurrence
import Apidoc.Proofs.Text.Replacement

namespace Apidoc.Page

open Pattern PrintedType

def briefOpenings (name : Text) : List Text := ["The ".toList ++ name, "This class".toList]

def detailsLink : Text := "More...".toList

def detailsHeading : Text := "\nDetailed Description".toList

def classGap (layout : Layout) : Text := List.replicate layout.classBlock '\n'

/-- A page from the start: the text in front of the brief of a class, the brief, the text up to the
heading of the detailed description, the white space behind the heading, the description, and the
text behind the empty lines that end it. -/
structure ClassPage where
  front : Text
  brief : Text
  between : Text
  space : Text
  detail : Text
  back : Text

namespace ClassPage

variable (p : ClassPage) (layout : Layout)

def body : Text := p.space ++ (p.detail ++ (classGap layout ++ p.back))

def details : Text := detailsLink ++ (p.between ++ (detailsHeading ++ p.body layout))

def text : Text := p.front ++ (p.brief ++ p.details layout)

/-- The brief is the first text that opens like one, and it goes on behind its opening words. The
link, the heading and the closing lines stand nowhere in the text that they end. -/
structure WellFormed (name : Text) : Prop where
  opens : ∃ o ∈ briefOpenings name, ∃ w, w ≠ [] ∧ p.brief = o ++ w
  first : ∀ o ∈ briefOpenings name, ∀ u v, p.text layout = u ++ (o ++ v) → p.front.length ≤ u.length
  unlinked : ¬ detailsLink <:+: p.brief
  untitled : ¬ detailsHeading <:+: p.between
  spaced : p.space ≠ []
  blank : ∀ c ∈ p.space, Text.isBlank c
  solid : ∃ c w, p.detail = c :: w ∧ Text.isBlank c = false
  dense : ¬ classGap layout <:+: p.detail
  line : p.detail.getLast? ≠ some '\n'

end ClassPage

def briefOpening (name : Text) : Pattern :=
  .group (.alt (.group (all [.fixed "The ".toList, .quoted name]) .one)
    (.group (.fixed "This class".toList) .one)) .one

def sectionEnd (layout : Layout) : Pattern := .chars (.char '\n') (.atLeast layout.classBlock)

theorem classOverview_eq (layout : Layout) (name : Text) : classOverview layout name =
    seq (.field .brief (seq (briefOpening name) (.chars .any .lazyPlus)))
      (seq (.fixed detailsLink) (seq (.chars .any .lazyStar) (seq (.fixed detailsHeading)
        (seq someSpaces (seq (.field .detailed (.chars .any .lazyStar)) (sectionEnd layout)))))) :=
  rfl

theorem takes_briefOpening {name w rest : Text} {before : Option Char} :
    (briefOpening name).Takes before w rest ↔ w ∈ briefOpenings name := by
  have the : (all [.fixed "The ".toList, .quoted name]).Takes before w rest ↔
      w = "The ".toList ++ name := by
    constructor
    · rintro ⟨_, _, rfl, rfl, rfl⟩
      rfl
    · rintro rfl
      exact ⟨_, _, rfl, rfl, rfl⟩
  rw [briefOpening, takes_group_one, Takes, takes_group_one, takes_group_one, the]
  simp [briefOpenings, Takes]

theorem briefOpenings_unique {name o o' v v' : Text} (opens : o ∈ briefOpenings name)
    (opens' : o' ∈ briefOpenings name) (same : o ++ v = o' ++ v') : o = o' := by
  simp only [briefOpenings, List.mem_cons, List.not_mem_nil, or_false] at opens opens'
  rcases opens with rfl | rfl <;> rcases opens' with rfl | rfl
  · rfl
  · simp at same
  · simp at same
  · rfl

theorem leads_sectionEnd {layout : Layout} {c : Cursor} :
    (sectionEnd layout).ends c ≠ [] ↔ classGap layout <+: c.rest := by
  rw [ends_ne_nil_iff]
  constructor
  · rintro ⟨w, rest, split, accepted, many⟩
    have lines : w = List.replicate w.length '\n' :=
      List.eq_replicate_of_mem fun a member => by simpa [CharClass.accepts] using accepted a member
    obtain ⟨more, eq⟩ := Nat.exists_eq_add_of_le (Times.allows_atLeast.mp many)
    rw [eq, ← List.replicate_append_replicate] at lines
    exact ⟨_, by rw [split, lines, List.append_assoc]; rfl⟩
  · rintro ⟨rest, split⟩
    refine ⟨classGap layout, rest, split.symm, ?_, ?_⟩
    · simp [classGap, CharClass.accepts]
    · exact Times.allows_atLeast.mpr (by simp [classGap])

theorem startsBehind_sectionEnd {layout : Layout} {w : Text} (dense : ¬ classGap layout <:+: w)
    (line : w.getLast? ≠ some '\n') (s : Text) : (sectionEnd layout).StartsBehind w s := by
  rintro u v rfl some c rest
  by_contra more
  have starts := rest ▸ leads_sectionEnd.mp more
  rcases List.prefix_or_prefix_of_prefix starts (List.prefix_append v s) with inside | reached
  · exact dense (inside.isInfix.trans (List.suffix_append u v).isInfix)
  · -- all of `v` would be line ends
    have last : v.getLast some = '\n' :=
      List.eq_of_mem_replicate (reached.subset (List.getLast_mem some))
    rw [List.getLast?_append_of_ne_nil u some, List.getLast?_eq_some_getLast some, last] at line
    exact line rfl

namespace ClassPage.WellFormed

variable {p : ClassPage} {layout : Layout} {name : Text} (formed : p.WellFormed layout name)
include formed

theorem ends_front {x y : Text} (front : p.front = x ++ y) (some : y ≠ []) :
    (classOverview layout name).ends (.between x (y ++ (p.brief ++ p.details layout))) = [] := by
  by_contra more
  rw [classOverview_eq] at more
  obtain ⟨_, rest, next, _, z, rfl, ⟨o, w, rfl, opens, -⟩, -⟩ := ends_ne_nil_iff.mp more
  have opens := takes_briefOpening.mp opens
  have text : p.text layout = x ++ (o ++ (w ++ (z ++ rest))) := by
    rw [ClassPage.text, front, List.append_assoc]
    rw [List.append_assoc, List.append_assoc] at next
    exact congrArg (x ++ ·) next
  have near := formed.first o opens x _ text
  have further := List.length_pos_iff.mpr some
  rw [front, List.length_append] at near
  omega

theorem keeps_overview : (classOverview layout name).Keeps (p.brief ++ p.details layout)
    [⟨.detailed, p.detail ++ (classGap layout ++ p.back), p.detail.length⟩,
      ⟨.brief, p.brief ++ p.details layout, p.brief.length⟩] := by
  obtain ⟨o, opens, w, more, brief⟩ := formed.opens
  obtain ⟨a, t, detail, solid⟩ := formed.solid
  have unlinked : ¬ detailsLink <:+: w := fun inside =>
    formed.unlinked (inside.trans (brief ▸ (List.suffix_append o w).isInfix))
  have close : (sectionEnd layout).Keeps (classGap layout ++ p.back) [] :=
    keeps_of_unnamed rfl fun c rest => leads_sectionEnd.mpr (rest ▸ List.prefix_append ..)
  have kept := close.field (startsBehind_sectionEnd formed.dense formed.line _) .detailed
  have spaced := kept.someSpaces formed.spaced formed.blank (by
    rw [detail]
    rintro c head
    obtain rfl := Option.some.inj head
    exact solid)
  have between := (spaced.fixed detailsHeading).free
    (startsBehind_fixed (by decide) (by decide) formed.untitled _)
  have whole := (between.fixed detailsLink).openedField
    (startsBehind_fixed (by decide) (by decide) unlinked _) more (p := briefOpening name) rfl
    (fun before u v split => takes_briefOpening.trans
      ⟨fun other => briefOpenings_unique other opens split.symm, fun same => same ▸ opens⟩) .brief
  rw [classOverview_eq, brief, List.append_assoc]
  exact whole

theorem search?_overview : ∃ m, (classOverview layout name).search? (p.text layout) = some m ∧
    m.get .brief = p.brief ∧ m.get .detailed = p.detail := by
  obtain ⟨x, first, captures⟩ := formed.keeps_overview
    (.between p.front (p.brief ++ p.details layout)) rfl
  refine ⟨_, search?_of_leftmost (fun x y => formed.ends_front) first, ?_, ?_⟩
  · simp [Match.get, Match.get?, captures, Capture.text]
  · simp [Match.get, Match.get?, captures, Capture.text]

theorem trim_brief : Text.trim p.brief ≠ [] := by
  obtain ⟨o, opens, w, -, brief⟩ := formed.opens
  have visible : 'T' ∈ p.brief := by
    simp only [briefOpenings, List.mem_cons, List.not_mem_nil, or_false] at opens
    rcases opens with rfl | rfl <;> simp [brief]
  exact List.ne_nil_of_mem (Text.mem_trim visible (by decide))

end ClassPage.WellFormed

/-- A class gets the brief on its page, without the white space around it, and the detailed
description, without the places that repeat the brief. -/
theorem describeClass_overview (m : Manual) (c : ClassDecl) {p : ClassPage}
    (formed : p.WellFormed m.layout c.scope.name)
    (found : m.pages.find? (m.page (some c.scope)) = some (p.text m.layout)) :
    ∃ text, Text.Replaced (Text.trim p.brief) [] p.detail text ∧
      m.describeClass c = ⟨{ c with remark := some ⟨Text.trim p.brief, some text⟩ }, true,
        [.classDocumented c.scope.name (m.page (some c.scope))]⟩ := by
  obtain ⟨overview, searched, brief, detail⟩ := formed.search?_overview
  refine ⟨_, (Text.replaced_iff formed.trim_brief).mpr rfl, ?_⟩
  simp [Manual.describeClass, found, searched, brief, detail]

theorem le_of_places {text w u v : Text} {n : Nat}
    (none : ∀ k < n, w.isPrefixOf (text.drop k) = false) (same : text = u ++ (w ++ v)) :
    n ≤ u.length := by
  by_contra near
  have here := Text.isPrefixOf_drop u w v
  rw [← same, none u.length (Nat.lt_of_not_le near)] at here
  cases here

def widgetPage : ClassPage where
  front := "QWidget Class | The Qt widgets\n".toList
  brief := "The QWidget class is a window. ".toList
  between := "\nHeader: QWidget\n".toList
  space := "\n\n".toList
  detail := "The QWidget class is a window.\n\nIt is drawn.".toList
  back := "Properties".toList

theorem widgetPage_wellFormed : widgetPage.WellFormed {} "QWidget".toList where
  opens := ⟨_, .head _, " class is a window. ".toList, by decide, by decide⟩
  first := by
    simp only [briefOpenings, List.forall_mem_cons, List.not_mem_nil]
    refine ⟨fun u v => le_of_places ?_, fun u v => le_of_places ?_, nofun⟩
    · decide +kernel
    · decide +kernel
  unlinked := by decide +kernel
  untitled := by decide +kernel
  spaced := by decide
  blank := by decide
  solid := ⟨_, _, rfl, by decide⟩
  dense := by decide +kernel
  line := by decide

theorem describeClass_overview_widget :
    let widget : ClassDecl := ⟨⟨"QWidget".toList, .classLike false, [], none⟩, none⟩
    let m : Manual := ⟨.ofList [("qwidget.html".toList, widgetPage.text {})], .empty, {}⟩
    widgetPage.WellFormed m.layout widget.scope.name ∧
      m.pages.find? (m.page (some widget.scope)) = some (widgetPage.text m.layout) ∧
      ∃ text, Text.Replaced (Text.trim widgetPage.brief) [] widgetPage.detail text ∧
        m.describeClass widget = ⟨{ widget with
          remark := some ⟨Text.trim widgetPage.brief, some text⟩ }, true,
          [.classDocumented widget.scope.name (m.page (some widget.scope))]⟩ := by
  intro widget m
  have found : m.pages.find? (m.page (some widget.scope)) = some (widgetPage.text m.layout) := by
    decide +kernel
  exact ⟨widgetPage_wellFormed, found,
    describeClass_overview m widget widgetPage_wellFormed found⟩

end Apidoc.Page
