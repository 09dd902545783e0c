import Apidoc.Proofs.Page.ParameterEnd

/-!
Pages of function blocks. A name is called in a text where white space and an opening parenthesis
follow it; on a page, a name is called in one heading only.
-/
namespace Apidoc.Page

open Pattern PrintedType

/-- A documented parameter: a type alone, or with a name and perhaps a default value. -/
inductive Listed
  | bare (type : Text)
  | named (parameter : NamedType) (value : Option Text)

namespace Listed

def type : Listed → Text
  | bare type => type
  | named n _ => n.type

def text : Listed → Text
  | bare type => type
  | named n none => n.text
  | named n (some value) => n.text ++ (" = ".toList ++ value)

/-- A default value is one line without commas. -/
def WellFormed : Listed → Prop
  | bare _ => True
  | named n value => n.WellFormed ∧ ∀ v ∈ value, v ≠ [] ∧ ∀ c ∈ v, c ∉ [',', '\r', '\n']

end Listed

/-- So many line ends with white space between and behind them. -/
def IsLines : Nat → Text → Prop
  | 0, w => w = []
  | n + 1, w => ∃ s v, w = '\n' :: (s ++ v) ∧ (∀ c ∈ s, Text.isBlank c) ∧ IsLines n v

/-- A mark of an entry, with or without an ampersand and a word in front. -/
def IsMark (w : Text) : Prop :=
  ∃ a t, w = a ++ (t ++ " --".toList) ∧ (a = [] ∨ a = ['&']) ∧ ∀ c ∈ t, Text.isBlank c = false

/-- The description of a function, in which nothing looks like the end of its block. -/
structure IsDescription (w : Text) : Prop where
  word : w.head?.any Text.isWord
  unqualified : ∀ rest, w = constWord ++ rest → rest.head?.any Text.isWord
  solid : ∀ u c, w = u ++ [c] → Text.isBlank c = false
  dense : ∀ u l v, w = u ++ (l ++ v) → ¬ IsLines 3 l
  unmarked : ∀ u s m v, w = u ++ '\n' :: (s ++ (m ++ v)) → (∀ c ∈ s, Text.isBlank c) → ¬ IsMark m

theorem IsDescription.exists_word {w : Text} (described : IsDescription w) :
    ∃ c rest, w = c :: rest ∧ Text.isWord c := by
  have word := described.word
  cases w with
  | nil => cases word
  | cons c rest => exact ⟨c, rest, rfl, word⟩

theorem isDescription_of_line {w : Text} (word : w.head?.any Text.isWord)
    (unqualified : w.head? ≠ some 'c') (trimmed : IsTrimmed w) (line : '\n' ∉ w) :
    IsDescription w where
  word := word
  unqualified := by
    intro rest eq
    exact absurd (by rw [eq]; rfl) unqualified
  solid := trimmed.last
  dense := by
    intro u l v eq lines
    obtain ⟨s, x, rfl, -⟩ := lines
    exact line (by simp [eq])
  unmarked := by
    intro u s m v eq
    exact absurd (by simp [eq]) line

/-- The documentation of a function on a page. -/
structure Block where
  result : Text
  name : Text
  parameters : List Listed
  isConst : Bool
  docs : Text

namespace Block

variable (b : Block)

def arguments : Text := [',', ' '].intercalate (b.parameters.map Listed.text)

def heading (scope : Text) : Text := b.result ++ (scope ++ (':' :: ':' :: b.name))

def qualifier : Text := if b.isConst then " const".toList else []

def body : Text :=
  b.arguments ++ ')' :: (b.qualifier ++ '\n' :: (b.docs ++ List.replicate 4 '\n'))

def text (scope : Text) : Text := b.heading scope ++ '(' :: b.body

/-- The characters in front of the scope are those of a return type, the parameters stand on one
line, and the description follows. -/
structure WellFormed : Prop where
  result : ∀ c ∈ b.result, (CharClass.oneOf (typeChars ++ [.char ','])).accepts c
  name : Text.IsWordRun b.name
  listed : ∀ p ∈ b.parameters, p.WellFormed
  line : '\n' ∉ b.arguments
  trimmed : IsTrimmed b.arguments
  described : IsDescription b.docs

end Block

/-- The name stands somewhere in the text in front of white space and an opening parenthesis. -/
def Calls (name w : Text) : Prop :=
  ∃ u s v, w = u ++ (name ++ (s ++ '(' :: v)) ∧ ∀ c ∈ s, Text.isBlank c

theorem not_calls_of_free {name w : Text} (free : '(' ∉ w) : ¬ Calls name w := by
  intro calls
  obtain ⟨u, s, v, rfl, -⟩ := calls
  exact free (by simp)

/-- A page: a text that ends in an empty line, and the blocks of functions with different names,
none of which is called outside of the headings. -/
structure FunctionPage where
  scope : Text
  front : Text
  blocks : List Block
  plain : ∀ c ∈ scope, Text.isWord c
  opened : ∃ start, front = start ++ "\n\n".toList
  formed : ∀ b ∈ blocks, b.WellFormed
  distinct : (blocks.map Block.name).Nodup
  quiet : ∀ b ∈ blocks, ¬ Calls b.name front ∧
    ∀ c ∈ blocks, ¬ Calls b.name c.arguments ∧ ¬ Calls b.name c.docs

namespace FunctionPage

def textOf (page : FunctionPage) (blocks : List Block) : Text :=
  blocks.flatMap fun b => b.text page.scope

def text (page : FunctionPage) : Text := page.front ++ page.textOf page.blocks

end FunctionPage

/-! The calls of a name on a page. -/

/-- The text ends in the name and white space, and the name is not the end of a longer word. -/
def EndsInName (name u : Text) : Prop :=
  ∃ a s, u = a ++ (name ++ s) ∧ EndsOutside a ∧ ∀ c ∈ s, Text.isBlank c

/-- No opening parenthesis of `w` stands behind the name, where `front` stands before `w`. -/
def IsQuiet (name front w : Text) : Prop :=
  ∀ u v, w = u ++ '(' :: v → ¬ EndsInName name (front ++ u)

namespace IsQuiet

variable {name front u v w : Text}

theorem append (first : IsQuiet name front u) (second : IsQuiet name (front ++ u) v) :
    IsQuiet name front (u ++ v) := by
  intro x y same
  rcases List.append_eq_append_iff.mp same with ⟨t, rfl, eq⟩ | ⟨t, rfl, eq⟩
  · rw [← List.append_assoc]
    exact second t y eq
  · cases t with
    | nil =>
      have here := second [] y eq.symm
      simpa only [List.append_nil] using here
    | cons c t =>
      obtain ⟨rfl, -⟩ := List.cons.inj eq
      exact first x t rfl

theorem of_free (free : '(' ∉ w) : IsQuiet name front w := by
  intro x y same
  exact absurd (by simp [same]) free

theorem of_start (quiet : ¬ Calls name w) : IsQuiet name [] w := by
  intro x y same ends
  obtain ⟨a, s, rfl, -, blank⟩ := ends
  exact quiet ⟨a, s, y, by simpa using same, blank⟩

end IsQuiet

theorem IsQuiet.eq_of_call {name u v x y : Text} (front : IsQuiet name [] u)
    (back : IsQuiet name (u ++ ['(']) v) (called : EndsInName name x)
    (same : u ++ '(' :: v = x ++ '(' :: y) : v = y := by
  rcases List.append_eq_append_iff.mp same with ⟨t, rfl, rest⟩ | ⟨t, rfl, rest⟩
  · cases t with
    | nil => exact (List.cons.inj rest).2
    | cons c t =>
      obtain ⟨rfl, later⟩ := List.cons.inj rest
      exact absurd (by simpa using called) (back t y later)
  · cases t with
    | nil => exact ((List.cons.inj rest).2).symm
    | cons c t =>
      obtain ⟨rfl, -⟩ := List.cons.inj rest
      exact absurd called (front x t rfl)

theorem suffix_of_mark {name a s u x : Text} {c : Char} (word : Text.IsWordRun name)
    (blank : ∀ d ∈ s, Text.isBlank d) (other : Text.isWord c = false)
    (solid : Text.isBlank c = false ∨ u.head?.any Text.isWord)
    (same : x ++ c :: u = a ++ (name ++ s)) : ∃ y, u = y ++ (name ++ s) := by
  have apart : ∀ t, name ++ s ≠ t ++ c :: u := by
    intro t inside
    -- the mark is no character of the name, so it is white space, and so is what follows it
    have gap : ∃ r, s = r ++ c :: u := by
      rcases List.append_eq_append_iff.mp inside with ⟨r, -, rest⟩ | ⟨r, front, rest⟩
      · exact ⟨r, rest⟩
      · cases r with
        | nil => exact ⟨[], rest.symm⟩
        | cons d r =>
          rw [(List.cons.inj rest).1, word.2 d (by simp [front])] at other
          cases other
    obtain ⟨r, rfl⟩ := gap
    rcases solid with solid | head
    · rw [blank c (by simp)] at solid
      cases solid
    · cases u with
      | nil => cases head
      | cons d u =>
        have outside := Text.isWord_of_isBlank (blank d (by simp))
        rw [show Text.isWord d = true from head] at outside
        cases outside
  rcases List.append_eq_append_iff.mp same with ⟨t, rfl, rest⟩ | ⟨t, rfl, rest⟩
  · cases t with
    | nil => exact absurd rest.symm (apart [])
    | cons d t => exact ⟨t, (List.cons.inj rest).2⟩
  · exact absurd rest (apart t)

theorem IsQuiet.of_mark {name front w : Text} {c : Char} (word : Text.IsWordRun name)
    (quiet : ¬ Calls name w) (other : Text.isWord c = false)
    (solid : Text.isBlank c = false ∨ w.head?.any Text.isWord) :
    IsQuiet name (front ++ [c]) w := by
  intro u v same ends
  obtain ⟨a, s, eq, -, blank⟩ := ends
  have inner : Text.isBlank c = false ∨ u.head?.any Text.isWord := by
    rcases solid with solid | head
    · exact .inl solid
    · cases u with
      | nil =>
        have mark : Text.isWord '(' = false := by decide
        rw [same, List.nil_append, List.head?_cons, Option.any_some, mark] at head
        cases head
      | cons d u =>
        rw [same] at head
        exact .inr head
  rw [List.append_assoc] at eq
  obtain ⟨y, rfl⟩ := suffix_of_mark word blank other inner eq
  exact quiet ⟨y, s, v, by simpa using same, blank⟩

theorem opening_not_mem {w : Text} (word : ∀ c ∈ w, Text.isWord c) : '(' ∉ w := by
  intro member
  have mark : Text.isWord '(' = false := by decide
  rw [word '(' member] at mark
  cases mark

section

variable {b : Block} (formed : b.WellFormed) {scope name front : Text}
include formed

theorem Block.WellFormed.opening_not_mem_heading (plain : ∀ c ∈ scope, Text.isWord c) :
    '(' ∉ b.heading scope := by
  have result : '(' ∉ b.result := by
    intro member
    have allowed := formed.result '(' member
    revert allowed
    decide
  simp [Block.heading, result, opening_not_mem plain, opening_not_mem formed.name.2]

theorem Block.WellFormed.quiet_body (word : Text.IsWordRun name)
    (quiet : ¬ Calls name b.arguments ∧ ¬ Calls name b.docs) :
    IsQuiet name (front ++ ['(']) b.body := by
  have first : IsQuiet name (front ++ ['(']) b.arguments :=
    .of_mark word quiet.1 (by decide) (.inl (by decide))
  have line : '(' ∉ ')' :: b.qualifier ++ ['\n'] := by
    unfold Block.qualifier
    split
    · decide
    · decide
  have docs (front : Text) : IsQuiet name (front ++ ['\n']) b.docs :=
    .of_mark word quiet.2 (by decide) (.inr formed.described.word)
  have last (front : Text) : IsQuiet name front (List.replicate 4 '\n') := .of_free (by decide)
  have behind := (docs (front ++ ['('] ++ b.arguments ++ ')' :: b.qualifier)).append (last _)
  have ending : IsQuiet name (front ++ ['('] ++ b.arguments) (')' :: b.qualifier ++ ['\n']) :=
    .of_free line
  have parts := first.append (ending.append (v := b.docs ++ List.replicate 4 '\n')
    (by simpa using behind))
  simpa [Block.body] using parts

theorem Block.WellFormed.name_eq (word : Text.IsWordRun name)
    (ends : EndsInName name (front ++ b.heading scope)) : b.name = name := by
  obtain ⟨a, s, same, outside, blank⟩ := ends
  have split : (front ++ b.result ++ scope ++ [':'] ++ [':']) ++ b.name = a ++ (name ++ s) := by
    simpa [Block.heading] using same
  have none : s = [] := by
    apply (endsOutside_of_blank blank).eq_nil_of_append formed.name
    rw [split, ← List.append_assoc]
  rw [none, List.append_nil] at split
  exact (last_word_unique (endsOutside_concat Text.isWord_colon) outside formed.name word split).2

theorem Block.WellFormed.quiet (plain : ∀ c ∈ scope, Text.isWord c) (word : Text.IsWordRun name)
    (other : b.name ≠ name) (quiet : ¬ Calls name b.arguments ∧ ¬ Calls name b.docs) :
    IsQuiet name front (b.text scope) := by
  have heading : IsQuiet name front (b.heading scope) :=
    .of_free (formed.opening_not_mem_heading plain)
  have opening : IsQuiet name (front ++ b.heading scope) ['('] := by
    intro u v same ends
    have none : u = [] := by
      cases u with
      | nil => rfl
      | cons c u => simp at same
    rw [none, List.append_nil] at ends
    exact other (formed.name_eq word ends)
  exact heading.append (opening.append (formed.quiet_body word quiet))

end

theorem quiet_blocks {scope name front : Text} {blocks : List Block}
    (plain : ∀ c ∈ scope, Text.isWord c) (word : Text.IsWordRun name)
    (formed : ∀ b ∈ blocks, b.WellFormed) (others : ∀ b ∈ blocks, b.name ≠ name)
    (quiet : ∀ b ∈ blocks, ¬ Calls name b.arguments ∧ ¬ Calls name b.docs) :
    IsQuiet name front (blocks.flatMap fun b => b.text scope) := by
  induction blocks generalizing front with
  | nil => exact .of_free List.not_mem_nil
  | cons b blocks ih =>
    have first : IsQuiet name front (b.text scope) :=
      (formed b (.head _)).quiet plain word (others b (.head _)) (quiet b (.head _))
    exact first.append (ih (fun c member => formed c (.tail _ member))
      (fun c member => others c (.tail _ member)) (fun c member => quiet c (.tail _ member)))

namespace FunctionPage

variable {page : FunctionPage} {b : Block} {before behind : List Block}

theorem text_eq (split : page.blocks = before ++ b :: behind) :
    page.text = (page.front ++ page.textOf before ++ b.heading page.scope) ++ '(' ::
      (b.body ++ page.textOf behind) := by
  simp [text, textOf, split, Block.text]

theorem name_ne (split : page.blocks = before ++ b :: behind) :
    (∀ c ∈ before, c.name ≠ b.name) ∧ ∀ c ∈ behind, c.name ≠ b.name := by
  have distinct := page.distinct
  rw [split, List.map_append, List.map_cons, List.nodup_append] at distinct
  obtain ⟨-, behind, apart⟩ := distinct
  rw [List.nodup_cons] at behind
  constructor
  · intro c member
    exact apart c.name (List.mem_map_of_mem member) b.name (.head _)
  · intro c member same
    exact behind.1 (List.mem_map.mpr ⟨c, member, same⟩)

/-- Where the name of a block is called, its body follows. -/
theorem body_of_call (split : page.blocks = before ++ b :: behind) {a s x : Text}
    (outside : EndsOutside a) (blank : ∀ c ∈ s, Text.isBlank c)
    (same : page.text = a ++ (b.name ++ (s ++ '(' :: x))) :
    x = b.body ++ page.textOf behind := by
  have listed (c : Block) (present : c ∈ before ++ b :: behind) : c ∈ page.blocks :=
    split ▸ present
  have formed := page.formed b (listed b (by simp))
  obtain ⟨silent, calls⟩ := page.quiet b (listed b (by simp))
  obtain ⟨earlier, later⟩ := name_ne split
  have first : IsQuiet b.name [] (page.front ++ page.textOf before ++ b.heading page.scope) := by
    have blocks : IsQuiet b.name page.front (page.textOf before) :=
      quiet_blocks page.plain formed.name
        (fun c member => page.formed c (listed c (by simp [member]))) earlier
        (fun c member => calls c (listed c (by simp [member])))
    have heading := formed.opening_not_mem_heading page.plain
    exact ((IsQuiet.of_start silent).append blocks).append (.of_free heading)
  have second : IsQuiet b.name
      (page.front ++ page.textOf before ++ b.heading page.scope ++ ['('])
      (b.body ++ page.textOf behind) := by
    have body : IsQuiet b.name
        (page.front ++ page.textOf before ++ b.heading page.scope ++ ['(']) b.body :=
      formed.quiet_body formed.name (calls b (listed b (by simp)))
    exact body.append (quiet_blocks page.plain formed.name
      (fun c member => page.formed c (listed c (by simp [member]))) later
      (fun c member => calls c (listed c (by simp [member]))))
  have called : EndsInName b.name (a ++ (b.name ++ s)) := ⟨a, s, rfl, outside, blank⟩
  rw [text_eq split] at same
  exact (first.eq_of_call second called (by simpa using same)).symm

end FunctionPage

end Apidoc.Page
