import Apidoc.Proofs.Page.EnumPage

/-!
What the search for an enumerator passes on a page. It finds the heading of the enum, the title of a
table before the next two empty lines, and among the lines behind the title a row of the enumerator.
-/
namespace Apidoc.Page

open Pattern PrintedType

def titleWord : Text := "ConstantValue".toList

theorem titleWord_ne_nil : titleWord ≠ [] := by decide

/-- Where the word opens a title, it stands at the start of a line. -/
def TitlesStartLines (page : Text) : Prop :=
  ∀ u v, page = u ++ (titleWord ++ v) → behind none u = none ∨ behind none u = some '\n'

theorem titlesStartLines_iff {page : Text} : TitlesStartLines page ↔
    ∀ i ≤ page.length, titleWord <+: page.drop i →
      behind none (page.take i) = none ∨ behind none (page.take i) = some '\n' := by
  constructor
  · intro start i _ titled
    obtain ⟨v, eq⟩ := titled
    exact start _ v (by rw [eq, List.take_append_drop])
  · intro start u v eq
    have here := start u.length (by simp [eq]) ⟨v, by simp [eq]⟩
    rwa [eq, List.take_left] at here

instance (page : Text) : Decidable (TitlesStartLines page) :=
  decidable_of_iff _ titlesStartLines_iff.symm

/-- A page around the row of an enumerator: the text between the heading of the enum and the title
of its table, what remains of the line of the title, the lines above the row, and the row up to a
character reference at its end. -/
structure Listing where
  front : Text
  block : Text
  tail : Text
  lines : List Text
  owner : Text
  gap : Text
  value : Text
  space : Text
  docs : Text
  reference : Text
  back : Text

namespace Listing

variable (l : Listing) (scope name item : Text)

def opening : Text := l.front ++ ("enum ".toList ++ Scope.qualify scope name) ++ l.block

def row : Text :=
  l.owner ++ item ++ l.gap ++ l.value ++ l.space ++ l.docs ++ l.reference ++ ['\n']

def table : Text := titleWord ++ l.tail ++ ['\n'] ++ l.lines.flatten ++ l.row item ++ l.back

def text : Text := l.opening scope name ++ l.table item

def Titled : Prop := behind none (l.opening scope name) = some '\n'

structure WellFormed (s : Separator) : Prop where
  edge : (behind none ("enum ".toList ++ Scope.qualify scope name)).any Text.isWord ≠
    (l.block ++ titleWord).head?.any Text.isWord
  dense : ¬ "\n\n\n".toList <:+: l.block
  tail : '\n' ∉ l.tail
  lines : ∀ w ∈ l.lines, IsLine w
  owner : Owns scope l.owner
  gap : s.Gap l.gap
  value : l.value ≠ [] ∧ '\t' ∉ l.value ∧ '\n' ∉ l.value
  space : s.Gap l.space
  docs : '\n' ∉ l.docs
  reference : l.reference = [] ∨ ∃ v, Text.IsWordRun v ∧ l.reference = '&' :: (v ++ [';'])

end Listing

theorem Separator.gap_of_takes {s : Separator} {before : Option Char} {w rest : Text}
    (taken : s.pattern.Takes before w rest) : s.Gap w := by
  cases s with
  | tab =>
    obtain ⟨c, rfl, accepted⟩ := takes_chars_one.mp taken
    simpa [CharClass.accepts, Gap] using accepted
  | spaces =>
    obtain ⟨some, accepted⟩ := takes_chars_plus.mp taken
    exact ⟨some, fun c member => by simpa [CharClass.accepts] using accepted c member⟩

theorem lines_of_takes {n : Nat} {before : Option Char} {w rest : Text}
    (taken : TakesTimes otherLine.Takes n before w rest) :
    ∃ lines : List Text, (∀ l ∈ lines, IsLine l) ∧ w = lines.flatten := by
  induction n generalizing before w with
  | zero =>
    cases taken
    exact ⟨[], by simp, rfl⟩
  | succ n ih =>
    obtain ⟨u, v, rfl, line, others⟩ := taken
    obtain ⟨lines, each, rfl⟩ := ih others
    exact ⟨u :: lines, List.forall_mem_cons.mpr ⟨takes_otherLine.mp line, each⟩, rfl⟩

theorem takes_newlines {n : Nat} {before : Option Char} {w rest : Text} :
    (Pattern.chars (.char '\n') (.exactly n)).Takes before w rest ↔ w = List.replicate n '\n' := by
  rw [Pattern.Takes, Times.allows_exactly, List.eq_replicate_iff, and_comm]
  simp only [CharClass.accepts, beq_iff_eq]

theorem dense_of_takes {n : Nat} {before : Option Char} {w rest : Text}
    (taken : TakesTimes blockCharacter.Takes n before w rest) : ¬ "\n\n\n".toList <:+: w := by
  induction n generalizing before w with
  | zero =>
    cases taken
    simp
  | succ n ih =>
    obtain ⟨_, v, rfl, ⟨_, u, rfl, ⟨rfl, free⟩, any⟩, others⟩ := taken
    obtain ⟨c, rfl, -⟩ := takes_chars_one.mp any
    intro inside
    rcases List.infix_cons_iff.mp inside with ⟨z, here⟩ | later
    · apply free
      refine ⟨"\n\n\n".toList, z ++ rest, ?_, takes_newlines.mpr rfl⟩
      simpa using congrArg (· ++ rest) here.symm
    · exact ih others later

structure Columns (s : Separator) (gap value space docs reference : Text) : Prop where
  gap : s.Gap gap
  value : value ≠ [] ∧ '\t' ∉ value ∧ '\n' ∉ value
  space : s.Gap space
  docs : '\n' ∉ docs
  reference : reference = [] ∨ ∃ v, Text.IsWordRun v ∧ reference = '&' :: (v ++ [';'])

theorem value_of_takes {before : Option Char} {w rest : Text}
    (taken : valuePattern.Takes before w rest) : w ≠ [] ∧ '\t' ∉ w ∧ '\n' ∉ w := by
  obtain ⟨accepted, some, -⟩ := taken
  refine ⟨List.length_pos_iff.mp some, fun tab => ?_, fun newline => ?_⟩
  · exact absurd (accepted _ tab) (by decide)
  · exact absurd (accepted _ newline) (by decide)

theorem columns_of_ends {s : Separator} {c d : Cursor} (member : d ∈ (columnsPattern s).ends c) :
    ∃ gap value space docs reference rest, Columns s gap value space docs reference ∧
      c.Passes (gap ++ value ++ space ++ docs ++ reference ++ ['\n']) d ∧
      d.captures = ⟨.docs, docs ++ rest, docs.length⟩ :: c.captures := by
  have silent : s.pattern.fields = [] := by cases s <;> rfl
  obtain ⟨gap, c₁, passes₁, first, kept₁, member⟩ := mem_ends_seq silent member
  obtain ⟨value, c₂, passes₂, valued, kept₂, member⟩ := mem_ends_seq rfl member
  obtain ⟨space, c₃, passes₃, second, kept₃, member⟩ := mem_ends_seq silent member
  obtain ⟨c₄, field, ended⟩ := List.mem_flatMap.mp member
  obtain ⟨docs, passes₄, line, captures⟩ := mem_ends_field rfl field
  obtain ⟨close, passes₅, closed, kept₅⟩ := mem_ends rfl ended
  obtain ⟨reference, tail, rfl⟩ : ∃ reference, (reference = [] ∨
      ∃ v, Text.IsWordRun v ∧ reference = '&' :: (v ++ [';'])) ∧ close = reference ++ ['\n'] := by
    rcases takes_rowEnd closed with rfl | ⟨v, word, rfl⟩
    · exact ⟨[], .inl rfl, rfl⟩
    · exact ⟨'&' :: (v ++ [';']), .inr ⟨v, word, rfl⟩, by simp⟩
  refine ⟨gap, value, space, docs, reference, c₄.rest, ⟨Separator.gap_of_takes first,
    value_of_takes valued, Separator.gap_of_takes second,
    accepts_line.mp (takes_chars_lazyStar.mp line), tail⟩, ?_, ?_⟩
  · simpa using (((passes₁.trans passes₂).trans passes₃).trans passes₄).trans passes₅
  · rw [kept₅, captures, passes₄.rest, kept₃, kept₂, kept₁]

/-- What the search for an enumerator finds is the description in a row of the enumerator. -/
theorem listing_of_search {scope name item : Text} {s : Separator} {page : Text} {m : Match}
    (found : (enumRow scope name item s).search? page = some m) :
    ∃ l : Listing, l.WellFormed scope name s ∧ page = l.text scope name item ∧
      m.get .docs = l.docs := by
  obtain ⟨front, v, d, rfl, first, rfl⟩ := searchFrom?_eq_some found
  have member := List.mem_of_mem_head? first
  rw [enumRow_eq] at member
  obtain ⟨heading, c₁, passes₁, enum, kept₁, member⟩ := mem_ends_seq rfl member
  obtain ⟨block, c₂, passes₂, ⟨_, -, dense⟩, kept₂, member⟩ := mem_ends_seq rfl member
  obtain ⟨title, c₃, passes₃, titled, kept₃, member⟩ := mem_ends_seq rfl member
  obtain ⟨tail, c₄, passes₄, line, kept₄, member⟩ := mem_ends_seq rfl member
  obtain ⟨_, c₅, passes₅, rfl, kept₅, member⟩ := mem_ends_seq rfl member
  obtain ⟨skipped, c₆, passes₆, ⟨_, -, others⟩, kept₆, member⟩ := mem_ends_seq rfl member
  obtain ⟨_, c₇, passes₇, named, kept₇, member⟩ :=
    mem_ends_seq (by unfold memberName; split <;> rfl) member
  obtain ⟨gap, value, space, docs, reference, rest, columns, passes₈, captures⟩ :=
    columns_of_ends member
  obtain ⟨rfl, edge⟩ := takes_enumHeading.mp enum
  obtain ⟨ending, titled, described⟩ := takes_tableHeading.mp titled
  obtain rfl : title = titleWord ++ ending := titled
  obtain ⟨lines, each, rfl⟩ := lines_of_takes others
  obtain ⟨owner, owned, rfl⟩ := takes_memberName.mp named
  have free : '\n' ∉ ending ++ tail := by
    rw [List.mem_append]
    refine not_or.mpr ⟨?_, accepts_line.mp (takes_chars_star.mp line)⟩
    rcases described with rfl | rfl <;> decide
  refine ⟨⟨front, block, ending ++ tail, lines, owner, gap, value, space, docs, reference, d.rest⟩,
    ⟨?_, dense_of_takes dense, free, each, owned, columns.gap, columns.value, columns.space,
      columns.docs, columns.reference⟩, ?_, ?_⟩
  · have next : c₁.rest = (block ++ titleWord) ++ (ending ++ c₃.rest) := by
      rw [passes₂.rest, passes₃.rest, List.append_assoc, List.append_assoc]
    have some : block ++ titleWord ≠ [] :=
      List.append_ne_nil_of_right_ne_nil _ titleWord_ne_nil
    rw [next, List.head?_append_of_ne_nil _ some] at edge
    exact edge
  · have whole := (((((((passes₁.trans passes₂).trans passes₃).trans passes₄).trans passes₅).trans
      passes₆).trans passes₇).trans passes₈).rest
    have parts := congrArg (front ++ ·) whole
    simp only [List.append_assoc] at parts
    simp only [Listing.text, Listing.opening, Listing.table, Listing.row, List.append_assoc]
    exact parts
  · simp [Match.get, Match.get?, captures, Capture.text]

theorem exists_behind {w : Text} (some : w ≠ []) (before : Option Char) :
    ∃ c, behind before w = .some c := by
  exact ⟨w.getLast some, by rw [behind_eq_getLast?, List.getLast?_eq_some_getLast some]; rfl⟩

theorem Listing.titled_of_text {l : Listing} {scope name item : Text}
    (start : TitlesStartLines (l.text scope name item)) : l.Titled scope name := by
  have parts : l.text scope name item = l.opening scope name ++ (titleWord ++
      (l.tail ++ ['\n'] ++ l.lines.flatten ++ l.row item ++ l.back)) := by
    simp only [text, table, List.append_assoc]
  rcases start _ _ parts with none | line
  · have opened : l.opening scope name ≠ [] := by simp [opening]
    obtain ⟨c, last⟩ := exists_behind opened .none
    rw [last] at none
    cases none
  · exact line

end Apidoc.Page

namespace Apidoc.Manual

theorem rowText?_eq_some {text scope name item docs : Text}
    (found : rowText? text scope name item = some docs) :
    ∃ separator m, (Page.enumRow scope name item separator).search? text = some m ∧
      docs = Text.trim (m.get .docs) := by
  obtain ⟨separator, -, here⟩ := List.exists_of_findSome?_eq_some found
  cases row : (Page.enumRow scope name item separator).search? text with
  | none => simp [row] at here
  | some m =>
    simp only [row] at here
    split at here
    · cases here
    · exact ⟨separator, m, row, (Option.some.inj here).symm⟩

/-- The description of an enumerator comes from a row of the enumerator. The row stands in a block
of its enum without two empty lines, below the title of a table and in front of the next empty line.
The word that opens a title is looked for in the middle of lines as well, so that the table may be
prose where the word stands in a sentence. -/
theorem describeItem_listing (m : Manual) (e : Enum) (item : Enumerator) :
    (∀ page separator found,
      (Page.enumRow (scopeName e.scope) e.name item.name separator).search? page = some found →
      ∃ l : Page.Listing, l.WellFormed (scopeName e.scope) e.name separator ∧
        page = l.text (scopeName e.scope) e.name item.name ∧ found.get .docs = l.docs ∧
        (Page.TitlesStartLines page → l.Titled (scopeName e.scope) e.name)) ∧
    ((m.describeItem e item).2 = false → (m.describeItem e item).1 = item) ∧
    ((m.describeItem e item).2 = true → ∃ page separator, ∃ l : Page.Listing,
      m.pages.find? (m.page e.scope) = some page ∧
        l.WellFormed (scopeName e.scope) e.name separator ∧
        page = l.text (scopeName e.scope) e.name item.name ∧
        (Page.TitlesStartLines page → l.Titled (scopeName e.scope) e.name) ∧
        (m.describeItem e item).1 = { item with remark := some ⟨Text.trim l.docs, none⟩ }) := by
  have listed {page : Text} {separator : Page.Separator} {found : Match}
      (here : (Page.enumRow (scopeName e.scope) e.name item.name separator).search? page =
        some found) :
      ∃ l : Page.Listing, l.WellFormed (scopeName e.scope) e.name separator ∧
        page = l.text (scopeName e.scope) e.name item.name ∧ found.get .docs = l.docs ∧
        (Page.TitlesStartLines page → l.Titled (scopeName e.scope) e.name) := by
    obtain ⟨l, formed, rfl, docs⟩ := Page.listing_of_search here
    exact ⟨l, formed, rfl, docs, Page.Listing.titled_of_text⟩
  refine ⟨fun _ _ _ => listed, ?_, ?_⟩
  · unfold describeItem
    cases m.pages.find? (m.page e.scope) with
    | none => exact fun _ => rfl
    | some text =>
      simp only
      cases rowText? text (scopeName e.scope) e.name item.name with
      | none => exact fun _ => rfl
      | some docs => exact nofun
  · unfold describeItem
    cases present : m.pages.find? (m.page e.scope) with
    | none => exact nofun
    | some page =>
      simp only
      cases row : rowText? page (scopeName e.scope) e.name item.name with
      | none => exact nofun
      | some docs =>
        obtain ⟨separator, found, here, rfl⟩ := rowText?_eq_some row
        obtain ⟨l, formed, same, text, titled⟩ := listed here
        exact fun _ => ⟨page, separator, l, rfl, formed, same, titled, by rw [text]⟩

def modeEnum : Enum := ⟨"Mode".toList, none, none, [⟨"A".toList, none⟩]⟩

def modeManual (page : Text) : Manual := ⟨.ofList [("qtglobal.html".toList, page)], .empty, {}⟩

theorem describeItem_listing_mode :
    let page := "enum Mode\n\nModes.\n\nConstantValueDescription\n".toList ++
      "AB 1 Both.\nQt::A 0 No mode.&nbsp;\n\n\n".toList
    let m := modeManual page
    Page.TitlesStartLines page ∧ (m.describeItem modeEnum ⟨"A".toList, none⟩).2 = true ∧
      ∃ separator, ∃ l : Page.Listing, l.WellFormed [] "Mode".toList separator ∧
        page = l.text [] "Mode".toList "A".toList ∧ l.Titled [] "Mode".toList ∧
        (m.describeItem modeEnum ⟨"A".toList, none⟩).1 =
          ⟨"A".toList, some ⟨Text.trim l.docs, none⟩⟩ := by
  intro page m
  have start : Page.TitlesStartLines page := by decide +kernel
  have found : (m.describeItem modeEnum ⟨"A".toList, none⟩).2 = true := by decide +kernel
  have present : m.pages.find? (m.page modeEnum.scope) = some page := by decide +kernel
  obtain ⟨page', separator, l, here, formed, same, titled, described⟩ :=
    (describeItem_listing m modeEnum ⟨"A".toList, none⟩).2.2 found
  obtain rfl : page = page' := Option.some.inj (present.symm.trans here)
  exact ⟨start, found, separator, l, formed, same, titled start, described⟩

/-- A sentence that names the tables opens a table of prose, although the table itself stands
below. -/
theorem describeItem_reads_prose :
    let page := "enum Mode\n\nThe ConstantValue table lists the modes.\n".toList ++
      "A is the default mode.\n\nConstantValueDescription\nA 0 No mode.\n\n\n".toList
    let docs := "the default mode.".toList
    (modeManual page).describeItem modeEnum ⟨"A".toList, none⟩ =
        (⟨"A".toList, some ⟨docs, none⟩⟩, true) ∧
      (∃ m, (Page.enumRow [] "Mode".toList "A".toList .spaces).search? page = some m ∧
        m.get .docs = docs) ∧
      ∀ separator, ∀ l : Page.Listing, l.WellFormed [] "Mode".toList separator →
        page = l.text [] "Mode".toList "A".toList → l.Titled [] "Mode".toList →
        l.docs ≠ docs := by
  intro page docs
  refine ⟨by decide +kernel, ?_, ?_⟩
  · have found : ((Page.enumRow [] "Mode".toList "A".toList .spaces).search? page).map
        (·.get .docs) = some docs := by decide +kernel
    exact Option.map_eq_some_iff.mp found
  · intro separator l _ same titled read
    -- the only line that starts with a title stands behind the last letter f
    have behindTitle : ∀ i ≤ page.length, Page.titleWord <+: page.drop i →
        behind none (page.take i) = some '\n' → 'f' ∉ page.drop i := by decide +kernel
    have front : page.take (l.opening [] "Mode".toList).length = l.opening [] "Mode".toList := by
      rw [same, Page.Listing.text, List.take_left]
    have table : page.drop (l.opening [] "Mode".toList).length = l.table "A".toList := by
      rw [same, Page.Listing.text, List.drop_left]
    have absent := behindTitle (l.opening [] "Mode".toList).length
      (by rw [same, Page.Listing.text, List.length_append]; exact Nat.le_add_right ..)
      (by rw [table]; simp only [Page.Listing.table, List.append_assoc, List.prefix_append])
      (by rw [front]; exact titled)
    have member : 'f' ∈ l.docs := by rw [read]; decide
    rw [table] at absent
    exact absent (by simp [Page.Listing.table, Page.Listing.row, member])

end Apidoc.Manual
