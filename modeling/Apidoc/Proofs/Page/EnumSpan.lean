import Apidoc.Proofs.Manual.Enum
import Apidoc.Proofs.Page.EnumListing
import Apidoc.Proofs.Pattern.Preference
import Apidoc.Proofs.Text.Occurrence

/-!
How far the block of an enum goes. Its description ends at the first run of line ends that closes a
block. The white space around the line of its flags type is free, though, and may have such a run
itself: then the description is that of another block.
-/
namespace Apidoc.Page

open Pattern PrintedType

def blockGap (layout : Layout) : Text := List.replicate layout.enumBlock '\n'

theorem not_mem_blockGap {layout : Layout} {c : Char} (other : c ≠ '\n') : c ∉ blockGap layout :=
  fun member => other (List.eq_of_mem_replicate member)

theorem not_mem_blockGap_of_solid {layout : Layout} {c : Char} (solid : Text.isBlank c = false) :
    c ∉ blockGap layout := by
  apply not_mem_blockGap
  rintro rfl
  exact absurd solid (by decide)

theorem not_mem_blockGap_of_word {layout : Layout} {c : Char} (word : Text.isWord c) :
    c ∉ blockGap layout :=
  not_mem_blockGap_of_solid (Text.isBlank_of_isWord word)

theorem not_gap_inside {layout : Layout} (some : 0 < layout.enumBlock) {w : Text}
    (line : '\n' ∉ w) : ¬ blockGap layout <:+: w := by
  intro inside
  exact line (inside.subset (List.mem_replicate.mpr ⟨Nat.ne_of_gt some, rfl⟩))

/-- The line of the flags type of an enum, with the white space in front of it and behind it. -/
structure FlagsLine where
  lead : Text
  owner : Text
  type : Text
  gap : Text

namespace FlagsLine

def text (l : FlagsLine) : Text :=
  l.lead ++ ("flags ".toList ++ (l.owner ++ (l.type ++ l.gap)))

structure WellFormed (scope : Text) (l : FlagsLine) : Prop where
  lead : ∀ c ∈ l.lead, Text.isBlank c
  owner : l.owner = [] ∨ scope ≠ [] ∧ l.owner = scope ++ "::".toList
  type : Text.IsWordRun l.type
  gap : l.gap ≠ [] ∧ ∀ c ∈ l.gap, Text.isBlank c

end FlagsLine

/-- A page around the block of an enum: the line of its flags type, if it has one, the description,
and what stands behind the line ends. -/
structure EnumSpan where
  front : Text
  flags : Option FlagsLine
  docs : Text
  back : Text

namespace EnumSpan

variable (b : EnumSpan) (layout : Layout) (scope name : Text)

def flagsText : Text := b.flags.elim [] FlagsLine.text

def block : Text := ("enum ".toList ++ Scope.qualify scope name) ++ (b.flagsText ++ b.docs)

def text : Text := b.front ++ (b.block scope name ++ (blockGap layout ++ b.back))

structure WellFormed : Prop where
  edge : (behind none ("enum ".toList ++ Scope.qualify scope name)).any Text.isWord ≠
    (b.flagsText ++ (b.docs ++ (blockGap layout ++ b.back))).head?.any Text.isWord
  flags : ∀ l ∈ b.flags, l.WellFormed scope
  solid : b.flags.isSome → ∀ c ∈ b.docs.head?, Text.isBlank c = false
  first : ∀ u v, b.docs = u ++ v → v ≠ [] → ¬ blockGap layout <+: v ++ (blockGap layout ++ b.back)

/-- Line ends that close a block stand in the name of the enum or around the line of its flags
type. -/
def HasGap : Prop :=
  blockGap layout <:+: Scope.qualify scope name ∨
    ∃ l ∈ b.flags, blockGap layout <:+: l.lead ∨ blockGap layout <:+: l.gap

end EnumSpan

/-! Where the block may have such a run of line ends. -/

section

variable {layout : Layout} {scope name : Text} (some : 0 < layout.enumBlock)
include some

theorem infix_heading_iff : blockGap layout <:+: "enum ".toList ++ Scope.qualify scope name ↔
    blockGap layout <:+: Scope.qualify scope name := by
  have split : "enum ".toList ++ Scope.qualify scope name =
      "enum".toList ++ ' ' :: Scope.qualify scope name := rfl
  rw [split, Text.infix_append_cons_iff (not_mem_blockGap (by decide)),
    or_iff_right (not_gap_inside some (by decide))]

theorem FlagsLine.WellFormed.infix_owner {l : FlagsLine} (formed : l.WellFormed scope)
    (inside : blockGap layout <:+: l.owner) : blockGap layout <:+: Scope.qualify scope name := by
  rcases formed.owner with none | ⟨named, owner⟩
  · exact absurd (none ▸ inside) (not_gap_inside some (by decide))
  · have qualified : Scope.qualify scope name = l.owner ++ name := by
      rw [Scope.qualify, if_neg (by simpa using named), owner]
    rw [qualified]
    exact inside.trans (List.prefix_append l.owner name).isInfix

theorem FlagsLine.WellFormed.infix_append_iff {l : FlagsLine} (formed : l.WellFormed scope)
    {docs : Text} (solid : ∀ c ∈ docs.head?, Text.isBlank c = false) :
    blockGap layout <:+: l.text ++ docs ↔ blockGap layout <:+: l.lead ∨
      blockGap layout <:+: l.owner ∨ blockGap layout <:+: l.gap ∨ blockGap layout <:+: docs := by
  obtain ⟨named, word⟩ := formed.type
  have noType : ¬ blockGap layout <:+: l.type := by
    refine not_gap_inside some fun member => ?_
    exact absurd (word '\n' member) (by decide)
  have noMark : ¬ blockGap layout <:+: "flags".toList := not_gap_inside some (by decide)
  have typeFirst : ∀ c ∈ (l.type ++ (l.gap ++ docs)).head?, c ∉ blockGap layout := by
    intro c first
    rw [List.head?_append_of_ne_nil _ named] at first
    exact not_mem_blockGap_of_word (word c (List.mem_of_mem_head? first))
  have typeLast : ∀ c ∈ l.type.getLast?, c ∉ blockGap layout := fun c last =>
    not_mem_blockGap_of_word (word c (List.mem_of_mem_getLast? last))
  have docsFirst : ∀ c ∈ docs.head?, c ∉ blockGap layout := fun c first =>
    not_mem_blockGap_of_solid (solid c first)
  have split : l.text ++ docs = l.lead ++ ("flags".toList ++
      ' ' :: (l.owner ++ (l.type ++ (l.gap ++ docs)))) := by
    simp [FlagsLine.text]
  have mark : ∀ c ∈ ("flags".toList ++
      ' ' :: (l.owner ++ (l.type ++ (l.gap ++ docs)))).head?, c ∉ blockGap layout := by
    rintro c ⟨⟩
    exact not_mem_blockGap (by decide)
  calc blockGap layout <:+: l.text ++ docs
    _ ↔ blockGap layout <:+: l.lead ∨ blockGap layout <:+: "flags".toList ++
          ' ' :: (l.owner ++ (l.type ++ (l.gap ++ docs))) := by
      rw [split, Text.infix_append_iff (.inr mark)]
    _ ↔ blockGap layout <:+: l.lead ∨
          blockGap layout <:+: l.owner ++ (l.type ++ (l.gap ++ docs)) := by
      rw [Text.infix_append_cons_iff (not_mem_blockGap (by decide)), or_iff_right noMark]
    _ ↔ blockGap layout <:+: l.lead ∨ blockGap layout <:+: l.owner ∨
          blockGap layout <:+: l.gap ++ docs := by
      rw [Text.infix_append_iff (.inr typeFirst), Text.infix_append_iff (.inl typeLast),
        or_iff_right noType]
    _ ↔ blockGap layout <:+: l.lead ∨ blockGap layout <:+: l.owner ∨
          blockGap layout <:+: l.gap ∨ blockGap layout <:+: docs := by
      rw [Text.infix_append_iff (.inr docsFirst)]

namespace EnumSpan.WellFormed

variable {b : EnumSpan} (formed : b.WellFormed layout scope name)
include formed

theorem not_gap_docs : ¬ blockGap layout <:+: b.docs := by
  rintro ⟨u, v, split⟩
  refine formed.first u (blockGap layout ++ v) (by rw [← split, List.append_assoc]) ?_ ?_
  · apply List.append_ne_nil_of_left_ne_nil
    exact List.ne_nil_of_length_pos (by rwa [blockGap, List.length_replicate])
  · rw [List.append_assoc]
    exact List.prefix_append _ _

theorem infix_block_iff : blockGap layout <:+: b.block scope name ↔
    blockGap layout <:+: Scope.qualify scope name ∨
      blockGap layout <:+: b.flagsText ++ b.docs := by
  show blockGap layout <:+: ("enum ".toList ++ Scope.qualify scope name) ++
    (b.flagsText ++ b.docs) ↔ _
  rw [Text.infix_append_iff, infix_heading_iff some]
  by_cases edge : (b.flagsText ++ b.docs).head?.any Text.isWord
  · right
    intro c first
    rw [Option.mem_def.mp first] at edge
    exact not_mem_blockGap_of_word edge
  · by_cases none : b.flagsText ++ b.docs = []
    · right
      simp [none]
    · left
      intro c last
      have heading := formed.edge
      rw [behind_eq_getLast?, Option.mem_def.mp last, ← List.append_assoc,
        List.head?_append_of_ne_nil _ none, Bool.eq_false_of_not_eq_true edge] at heading
      exact not_mem_blockGap_of_word (Bool.eq_true_of_not_eq_false heading)

end EnumSpan.WellFormed

end

theorem EnumSpan.WellFormed.gap_infix_iff {layout : Layout} {scope name : Text} {b : EnumSpan}
    (formed : b.WellFormed layout scope name) :
    blockGap layout <:+: b.block scope name ↔ b.HasGap layout scope name := by
  unfold EnumSpan.HasGap
  rcases Nat.eq_zero_or_pos layout.enumBlock with zero | some
  · have empty : blockGap layout = [] := by rw [blockGap, zero, List.replicate_zero]
    simp [empty]
  rw [formed.infix_block_iff some]
  cases flags : b.flags with
  | none =>
    have docs : b.flagsText ++ b.docs = b.docs := by simp [EnumSpan.flagsText, flags]
    rw [docs, or_iff_left (formed.not_gap_docs some)]
    simp
  | some l =>
    have line := formed.flags l flags
    have text : b.flagsText ++ b.docs = l.text ++ b.docs := by simp [EnumSpan.flagsText, flags]
    rw [text, line.infix_append_iff some (formed.solid (by rw [flags]; rfl)),
      or_iff_left (formed.not_gap_docs some)]
    constructor
    · rintro (name | lead | owner | gap)
      · exact .inl name
      · exact .inr ⟨l, rfl, .inl lead⟩
      · exact .inl (line.infix_owner some owner)
      · exact .inr ⟨l, rfl, .inr gap⟩
    · rintro (name | ⟨_, ⟨⟩, lead | gap⟩)
      · exact .inl name
      · exact .inr (.inl lead)
      · exact .inr (.inr (.inr gap))

/-! What the search passes. -/

def flagsLine (scope : Text) : Pattern :=
  all [spaces, .fixed "flags ".toList, flagsName scope, someSpaces]

def closedDocs (layout : Layout) : Pattern :=
  seq (.field .docs (.chars .any .lazyStar)) (.chars (.char '\n') (.exactly layout.enumBlock))

theorem enumBlock_eq (layout : Layout) (scope name : Text) : enumBlock layout scope name =
    seq (enumHeading scope name) (seq (.group (flagsLine scope) .optional) (closedDocs layout)) :=
  rfl

section

variable {layout : Layout} {scope name : Text}

theorem ends_newlines {c : Cursor} :
    (Pattern.chars (.char '\n') (.exactly layout.enumBlock)).ends c ≠ [] ↔
      blockGap layout <+: c.rest := by
  rw [ends_ne_nil_iff]
  constructor
  · intro taken
    obtain ⟨w, rest, split, taken⟩ := taken
    exact ⟨rest, by rw [split, takes_newlines.mp taken, blockGap]⟩
  · intro starts
    obtain ⟨rest, split⟩ := starts
    exact ⟨_, rest, split.symm, takes_newlines.mpr rfl⟩

theorem takes_flagsName {before : Option Char} {w rest : Text}
    (taken : (flagsName scope).Takes before w rest) : ∃ owner type, w = owner ++ type ∧
      (owner = [] ∨ scope ≠ [] ∧ owner = scope ++ "::".toList) ∧ Text.IsWordRun type := by
  unfold flagsName at taken
  split at taken
  · exact ⟨[], w, rfl, .inl rfl, takes_chars_plus.mp taken⟩
  · rename_i named
    obtain ⟨owner, type, rfl, owned, word⟩ := taken
    refine ⟨owner, type, rfl, ?_, takes_chars_plus.mp word⟩
    rcases takes_group_optional.mp owned with none | ⟨_, _, rfl, rfl, rfl⟩
    · exact .inl none
    · exact .inr ⟨by simpa using named, rfl⟩

theorem ends_closedDocs {c : Cursor} :
    (closedDocs layout).ends c ≠ [] ↔ blockGap layout <:+: c.rest := by
  rw [ends_ne_nil_iff]
  constructor
  · intro taken
    obtain ⟨_, rest, split, docs, _, rfl, -, closed⟩ := taken
    exact ⟨docs, rest, by rw [split, takes_newlines.mp closed, blockGap]⟩
  · intro inside
    obtain ⟨docs, rest, split⟩ := inside
    exact ⟨_, rest, split.symm, docs, _, rfl, ⟨fun _ _ => rfl, Times.allows_lazyStar _⟩,
      takes_newlines.mpr rfl⟩

theorem exists_docs {c x : Cursor} (first : ((closedDocs layout).ends c).head? = some x) :
    ∃ docs back, c.rest = docs ++ (blockGap layout ++ back) ∧
      (∀ u v, docs = u ++ v → v ≠ [] → ¬ blockGap layout <+: v ++ (blockGap layout ++ back)) ∧
      x.captures = ⟨.docs, c.rest, docs.length⟩ :: c.captures := by
  have places : (closedDocs layout).ends c = (c.stops .any .lazyStar).flatMap fun e =>
      (Pattern.chars (.char '\n') (.exactly layout.enumBlock)).ends (e.keep .docs c) := by
    simp only [closedDocs, ends, List.flatMap_map]
  rw [places] at first
  obtain ⟨docs, _, rest, ⟨back, rfl⟩, nearer, captures⟩ :=
    exists_kept_of_lazy rfl (fun _ => ends_newlines) (.refl c) rfl first
  exact ⟨docs, back, rest, nearer, captures⟩

theorem exists_flagsLine {c x : Cursor}
    (first : ((seq (flagsLine scope) (closedDocs layout)).ends c).head? = some x) :
    ∃ l : FlagsLine, l.WellFormed scope ∧ ∃ a, c.Passes l.text a ∧
      ((closedDocs layout).ends a).head? = some x ∧
      ∀ k v, a.rest = k :: v → Text.isBlank k → ¬ blockGap layout <:+: v := by
  have places : (seq (flagsLine scope) (closedDocs layout)).ends c =
      (all [spaces, .fixed "flags ".toList, flagsName scope, someSpaces,
        closedDocs layout]).ends c := by
    simp only [flagsLine, all, ends, List.flatMap_assoc]
  rw [places] at first
  obtain ⟨c₁, spaced, first⟩ := exists_of_head?_seq first
  obtain ⟨c₂, marked, first⟩ := exists_of_head?_seq first
  obtain ⟨c₃, named, first⟩ := exists_of_head?_seq first
  obtain ⟨lead, passes₁, blank⟩ := (faithful _).sound spaced
  obtain ⟨_, passes₂, rfl⟩ := (faithful _).sound marked
  obtain ⟨_, passes₃, taken⟩ := (faithful _).sound named
  obtain ⟨owner, type, rfl, owned, word⟩ := takes_flagsName taken
  obtain ⟨gap, a, passes₄, white, allowed, -, found, further⟩ :=
    Cursor.exists_stop_of_greedy rfl first
  have some : gap ≠ [] := List.length_pos_iff.mp (Times.allows_plus.mp allowed)
  refine ⟨⟨lead, owner, type, gap⟩, ⟨takes_chars_star.mp blank, owned, word, some, white⟩, a, ?_,
    found, ?_⟩
  · have passes := passes₁.trans (passes₂.trans (passes₃.trans passes₄))
    rwa [List.append_assoc owner] at passes
  · intro k v rest blank inside
    have longer : Times.plus.Allows (gap ++ [k]).length := by
      rw [Times.allows_plus, List.length_append]
      exact Nat.succ_pos _
    obtain ⟨e, passes, -, none⟩ := further [k] v rest (List.cons_ne_nil k [])
      (List.forall_mem_singleton.mpr blank) longer
    have behind : e.rest = v := by
      apply passes.rest_eq
      rw [passes₄.rest, rest, List.append_assoc]
      rfl
    exact ends_closedDocs.mpr (behind ▸ inside) none

theorem exists_flags {c x : Cursor}
    (first : ((seq (.group (flagsLine scope) .optional) (closedDocs layout)).ends c).head? =
      some x) :
    ∃ flags : Option FlagsLine, (∀ l ∈ flags, l.WellFormed scope) ∧
      ∃ a, c.Passes (flags.elim [] FlagsLine.text) a ∧
        ((closedDocs layout).ends a).head? = some x ∧
        (flags.isSome → ∀ k v, a.rest = k :: v → Text.isBlank k → ¬ blockGap layout <:+: v) := by
  have moves : ∀ a ∈ (flagsLine scope).ends c, c.offset < a.offset := by
    intro a member
    obtain ⟨_, passes, _, _, rfl, -, _, _, rfl, rfl, -⟩ := (faithful _).sound member
    rw [passes.offset, List.length_append, List.length_append]
    have word : 0 < "flags ".toList.length := by decide
    omega
  rcases head?_seq_optional_cases first moves with first | first
  · obtain ⟨l, formed, a, passes, first, solid⟩ := exists_flagsLine first
    refine ⟨some l, ?_, a, passes, first, fun _ => solid⟩
    rintro _ ⟨⟩
    exact formed
  · exact ⟨none, nofun, c, .refl c, first, nofun⟩

/-- A match on a page spans the heading of the enum and its description. -/
theorem span_of_search {page : Text} {m : Match}
    (found : (enumBlock layout scope name).search? page = some m) :
    ∃ b : EnumSpan, b.WellFormed layout scope name ∧ page = b.text layout scope name ∧
      m.start = b.front.length ∧ m.stop.captures.find? (·.field = .docs) =
        some ⟨.docs, b.docs ++ (blockGap layout ++ b.back), b.docs.length⟩ := by
  obtain ⟨front, v, d, rfl, first, rfl⟩ := searchFrom?_eq_some found
  rw [enumBlock_eq] at first
  obtain ⟨c₁, headed, first⟩ := exists_of_head?_seq first
  obtain ⟨_, passes₁, heading, -⟩ := mem_ends rfl headed
  obtain ⟨rfl, edge⟩ := takes_enumHeading.mp heading
  obtain ⟨flags, formed, c₂, passes₂, first, solid⟩ := exists_flags first
  obtain ⟨docs, back, rest, nearer, captures⟩ := exists_docs first
  refine ⟨⟨front, flags, docs, back⟩, ⟨?_, formed, ?_, nearer⟩, ?_, Nat.zero_add _, ?_⟩
  · rw [passes₂.rest, rest] at edge
    exact edge
  · intro present k starts
    by_contra blank
    cases docs with
    | nil => cases starts
    | cons c docs =>
      cases starts
      refine solid present k _ rest (Bool.eq_true_of_not_eq_false blank) ?_
      exact ⟨docs, back, List.append_assoc ..⟩
  · have whole := passes₁.rest
    rw [passes₂.rest, rest] at whole
    rw [← List.append_assoc (flags.elim [] FlagsLine.text), ← List.append_assoc] at whole
    exact congrArg (front ++ ·) whole
  · rw [captures, rest]
    rfl

end

end Apidoc.Page

namespace Apidoc.Manual

theorem enumText?_eq_some {layout : Layout} {text scope name prose : Text}
    (found : enumText? layout text scope name = some prose) :
    ∃ m, (Page.enumBlock layout scope name).search? text = some m ∧
      prose = Page.enumProse (Text.trim (m.get .docs)) := by
  unfold enumText? at found
  split at found
  · cases found
  · rename_i m searched
    dsimp only at found
    split at found
    · cases found
    · exact ⟨m, searched, (Option.some.inj found).symm⟩

/-- The description of an enum ends at the first run of line ends that closes a block, counted from
behind the line of the flags type. Its block has such a run only in the name of the enum or in the
white space around that line. -/
theorem describeEnum_span (m : Manual) (e : Enum) :
    (∀ page found,
      (Page.enumBlock m.layout (scopeName e.scope) e.name).search? page = some found →
      ∃ b : Page.EnumSpan, b.WellFormed m.layout (scopeName e.scope) e.name ∧
        page = b.text m.layout (scopeName e.scope) e.name ∧ found.start = b.front.length ∧
        found.stop.captures.find? (·.field = .docs) =
          some ⟨.docs, b.docs ++ (Page.blockGap m.layout ++ b.back), b.docs.length⟩ ∧
        (Page.blockGap m.layout <:+: b.block (scopeName e.scope) e.name ↔
          b.HasGap m.layout (scopeName e.scope) e.name)) ∧
    ((m.describeEnum e).found = false → (m.describeEnum e).value.remark = e.remark) ∧
    ((m.describeEnum e).found = true → ∃ page, ∃ b : Page.EnumSpan,
      m.pages.find? (m.page e.scope) = some page ∧
        b.WellFormed m.layout (scopeName e.scope) e.name ∧
        page = b.text m.layout (scopeName e.scope) e.name ∧
        (Page.blockGap m.layout <:+: b.block (scopeName e.scope) e.name ↔
          b.HasGap m.layout (scopeName e.scope) e.name) ∧
        (m.describeEnum e).value.remark = some ⟨Page.enumProse (Text.trim b.docs), none⟩) := by
  refine ⟨?_, ?_, ?_⟩
  · intro page found searched
    obtain ⟨b, formed, text, start, kept⟩ := Page.span_of_search searched
    exact ⟨b, formed, text, start, kept, formed.gap_infix_iff⟩
  · obtain ⟨events, described⟩ := m.describeEnum_eq e
    rw [described]
    intro missing
    have none : m.prose? e = none := by simpa using missing
    simp [enumDocumented, none, remarkOr]
  · obtain ⟨events, described⟩ := m.describeEnum_eq e
    rw [described]
    intro present
    obtain ⟨prose, read⟩ := Option.isSome_iff_exists.mp present
    obtain ⟨page, listed, here⟩ := Option.bind_eq_some_iff.mp read
    obtain ⟨found, searched, rfl⟩ := enumText?_eq_some here
    obtain ⟨b, formed, text, -, kept⟩ := Page.span_of_search searched
    have docs : found.get .docs = b.docs := Pattern.get_of_kept kept
    refine ⟨page, b, listed, formed, text, formed.gap_infix_iff, ?_⟩
    simp [enumDocumented, read, remarkOr, docs]

theorem describeEnum_span_mode :
    let page := "enum Mode\nflags Modes\n\nThe modes.\n\n\nenum Other\nOthers.\n\n\n".toList
    let m := modeManual page
    (m.describeEnum modeEnum).found = true ∧
      ∃ b : Page.EnumSpan, b.WellFormed m.layout [] "Mode".toList ∧
        page = b.text m.layout [] "Mode".toList ∧
        (Page.blockGap m.layout <:+: b.block [] "Mode".toList ↔
          b.HasGap m.layout [] "Mode".toList) ∧
        (m.describeEnum modeEnum).value.remark =
          some ⟨Page.enumProse (Text.trim b.docs), none⟩ := by
  intro page m
  have found : (m.describeEnum modeEnum).found = true := by decide +kernel
  have present : m.pages.find? (m.page modeEnum.scope) = some page := by decide +kernel
  obtain ⟨page', b, here, formed, same, gap, described⟩ := (describeEnum_span m modeEnum).2.2 found
  obtain rfl : page = page' := Option.some.inj (present.symm.trans here)
  exact ⟨found, b, formed, same, gap, described⟩

/-- Where an enum with a flags type has no description, the white space behind the line of that type
takes the line ends that close the block, and the next block is read as the description. The white
space in front of the line takes them as well. -/
theorem describeEnum_passes_gap :
    let passes (front docs : Text) : Prop :=
      let page := front ++ (docs ++ "\n\n\n".toList)
      let found := (Page.enumBlock {} [] "Mode".toList).search? page
      found.map (fun m => (m.start, m.stop.captures)) =
          some (0, [⟨.docs, docs ++ "\n\n\n".toList, docs.length⟩]) ∧
        "\n\n\n".toList <:+: front ++ docs ∧
        ((modeManual page).describeEnum modeEnum).value.remark = some ⟨docs, none⟩
    passes "enum Mode\nflags Modes\n\n\n".toList "enum Other\nOther modes.".toList ∧
      passes "enum Mode\n\n\nflags Modes\n".toList "Other flags.".toList := by
  decide +kernel

end Apidoc.Manual
