import Apidoc.Manual.Enum
import Apidoc.Proofs.Page.EnumRow
import Apidoc.Proofs.Pattern.Plain
import Mathlib.Data.List.Nodup

/-!
Pages with the value table of an enum. The search for an enumerator skips the text up to the heading
of the table and the rows of other enumerators, and each enumerator gets the description of its own
row.
-/
namespace Apidoc.Page

open Pattern PrintedType

/-- A page from the start: the text in front of an enum, its introduction, its value table, and the
text behind the empty line that ends the table. -/
structure EnumPage where
  scope : Text
  name : Text
  separator : Separator
  front : Text
  introduction : Text
  titled : Bool
  rows : List Row
  back : Text

namespace EnumPage

variable (p : EnumPage)

def heading : Text := "enum ".toList ++ Scope.qualify p.scope p.name

def title : Text := "ConstantValue".toList ++ if p.titled then "Description".toList else []

def body : Text := p.rows.flatMap Row.text ++ '\n' :: p.back

def table : Text := p.title ++ '\n' :: p.body

def text : Text := p.front ++ (p.heading ++ ('\n' :: p.introduction ++ p.table))

/-- The block of the enum is the first of its name. Neither two empty lines nor the heading of a
table stand in front of the table, whose rows belong to different enumerators. -/
structure WellFormed : Prop where
  name : Text.IsWordRun p.name
  line : '\n' ∉ p.scope
  first : ∀ u v, p.text = u ++ (p.heading ++ v) → p.front.length ≤ u.length
  dense : ∀ u v, '\n' :: p.introduction ≠ u ++ ("\n\n\n".toList ++ v)
  untitled : ∀ u v, '\n' :: p.introduction ≠ u ++ ("ConstantValue".toList ++ v)
  formed : ∀ r ∈ p.rows, r.WellFormed p.scope p.separator
  distinct : (p.rows.map Row.item).Nodup
  untabbed : p.separator = .spaces → '\t' ∉ p.text

end EnumPage

/-! The rows of the table. -/

def IsLine (w : Text) : Prop := ∃ l, l ≠ [] ∧ '\n' ∉ l ∧ w = l ++ ['\n']

def otherLine : Pattern := all [.chars (.noneOf [.char '\n']) .plus, .fixed "\n".toList]

theorem takes_otherLine {before : Option Char} {w rest : Text} :
    otherLine.Takes before w rest ↔ IsLine w := by
  constructor
  · intro taken
    obtain ⟨l, _, rfl, line, rfl⟩ := taken
    obtain ⟨some, accepted⟩ := takes_chars_plus.mp line
    exact ⟨l, some, accepts_line.mp accepted, rfl⟩
  · intro line
    obtain ⟨l, some, free, rfl⟩ := line
    exact ⟨l, _, rfl, takes_chars_plus.mpr ⟨some, accepts_line.mpr free⟩, rfl⟩

namespace Row.WellFormed

variable {r : Row} {scope : Text} {s : Separator} (formed : r.WellFormed scope s)
include formed

theorem columns_starts : ∃ t, r.columns = s.mark :: t := by
  obtain ⟨v, eq⟩ := formed.gap.starts
  exact ⟨_, by rw [Row.columns, eq, List.cons_append]⟩

theorem isLine (scope_line : '\n' ∉ scope) (value : '\n' ∉ r.value) : IsLine r.text := by
  refine ⟨r.owner ++ (r.item ++ (r.gap ++ (r.value ++ (r.space ++ r.description)))), ?_, ?_, ?_⟩
  · simp [formed.item.1]
  · have item := formed.item.not_mem Text.isWord_newline
    simp [formed.owner.line scope_line, item, formed.gap.line, value, formed.space.line, formed.line]
  · simp [Row.text, Row.columns]

end Row.WellFormed

theorem row_of_takes {scope item : Text} {s : Separator} {rows : List Row} {back : Text}
    (formed : ∀ r ∈ rows, r.WellFormed scope s) (lines : ∀ r ∈ rows, IsLine r.text) {n : Nat}
    {before : Option Char} {w rest o u : Text} (skipped : TakesTimes otherLine.Takes n before w rest)
    (owner : Owns scope o) (word : Text.IsWordRun item) (free : '\n' ∉ o)
    (same : rows.flatMap Row.text ++ '\n' :: back = w ++ (o ++ (item ++ s.mark :: u))) :
    ∃ r ∈ rows, r.item = item ∧ ∃ v, s.mark :: u = r.columns ++ v := by
  induction n generalizing rows before w with
  | zero =>
    cases skipped
    rw [List.nil_append] at same
    cases rows with
    | nil =>
      -- an empty line does not start with a name
      have inside : '\n' ∉ o ++ item := by
        rw [List.mem_append]
        exact not_or.mpr ⟨free, word.not_mem Text.isWord_newline⟩
      obtain ⟨c, z, eq⟩ := List.exists_cons_of_ne_nil (l := o ++ item) (by simp [word.1])
      rw [← List.append_assoc, eq] at same
      obtain ⟨rfl, -⟩ := List.cons.inj same
      exact absurd (by rw [eq]; exact .head z) inside
    | cons r rows =>
      have own := formed r (.head rows)
      obtain ⟨t, columns⟩ := own.columns_starts
      have here : r.owner ++ (r.item ++ s.mark :: (t ++ (rows.flatMap Row.text ++ '\n' :: back))) =
          o ++ (item ++ s.mark :: u) := by
        rw [← same]
        simp [Row.text, columns]
      obtain ⟨names, rfl⟩ := owner_unique own.owner owner own.item.2 word.2 s.isWord_mark
        s.mark_ne_colon here
      exact ⟨r, .head rows, names, _, by rw [columns]; rfl⟩
  | succ n ih =>
    obtain ⟨_, y, rfl, line, others⟩ := skipped
    obtain ⟨l, some, free, rfl⟩ := takes_otherLine.mp line
    cases rows with
    | nil =>
      obtain ⟨c, z, rfl⟩ := List.exists_cons_of_ne_nil some
      obtain ⟨rfl, -⟩ := List.cons.inj same
      exact absurd (.head z) free
    | cons r rows =>
      obtain ⟨k, -, single, text⟩ := lines r (.head rows)
      obtain ⟨-, behind⟩ := Text.first_unique (x := rows.flatMap Row.text ++ '\n' :: back)
        (y := y ++ (o ++ (item ++ s.mark :: u))) single free (by simpa [text] using same)
      obtain ⟨r', member, found⟩ := ih (List.forall_mem_cons.mp formed).2
        (List.forall_mem_cons.mp lines).2 others behind
      exact ⟨r', .tail r member, found⟩

theorem takes_skipped {rows : List Row} (lines : ∀ r ∈ rows, IsLine r.text)
    (before : Option Char) (rest : Text) :
    (Pattern.group otherLine .lazyStar).Takes before (rows.flatMap Row.text) rest := by
  have times : TakesTimes otherLine.Takes rows.length before (rows.flatMap Row.text) rest := by
    induction rows generalizing before with
    | nil => rfl
    | cons r rows ih =>
      obtain ⟨first, others⟩ := List.forall_mem_cons.mp lines
      exact ⟨r.text, _, rfl, takes_otherLine.mpr first, ih others _⟩
  exact ⟨rows.length, Times.allows_lazyStar _, times⟩

/-! The table. -/

def tablePattern (scope item : Text) (s : Separator) : Pattern :=
  all [tableHeading, .chars (.noneOf [.char '\n']) .star, .fixed "\n".toList,
    .group otherLine .lazyStar, memberName scope item, columnsPattern s]

theorem takes_tableHeading {before : Option Char} {w rest : Text} :
    tableHeading.Takes before w rest ↔
      ∃ t, w = "ConstantValue".toList ++ t ∧ (t = [] ∨ t = "Description".toList) := by
  constructor
  · intro taken
    obtain ⟨_, t, rfl, rfl, description⟩ := taken
    exact ⟨t, rfl, takes_group_optional.mp description⟩
  · intro titled
    obtain ⟨t, rfl, description⟩ := titled
    exact ⟨_, t, rfl, rfl, takes_group_optional.mpr description⟩

theorem EnumPage.takes_title (p : EnumPage) (before : Option Char) (rest : Text) :
    tableHeading.Takes before p.title rest := by
  refine takes_tableHeading.mpr ⟨_, rfl, ?_⟩
  split
  · exact .inr rfl
  · exact .inl rfl

theorem EnumPage.body_eq (p : EnumPage) {before : Option Char} {t z rest rest' : Text}
    (title : tableHeading.Takes before t rest) (free : '\n' ∉ z)
    (same : p.table = (t ++ z) ++ '\n' :: rest') : p.body = rest' := by
  have plain : tableHeading.IsPlain ['\n'] := by decide
  have own : '\n' ∉ p.title := not_mem_of_takes plain (p.takes_title none []) (.head [])
  have both : '\n' ∉ t ++ z := by
    rw [List.mem_append]
    exact not_or.mpr ⟨not_mem_of_takes plain title (.head []), free⟩
  exact (Text.first_unique own both same).2

namespace EnumPage.WellFormed

variable {p : EnumPage} (formed : p.WellFormed) (lines : ∀ r ∈ p.rows, '\n' ∉ r.value)
include formed lines

omit lines in
theorem accepts_value {r : Row} (member : r ∈ p.rows) (line : '\n' ∉ r.value) :
    ∀ c ∈ r.value, valueClass.accepts c := by
  have untabbed : '\t' ∉ r.value := by
    have fits := (formed.formed r member).fits
    cases separator : p.separator with
    | tab =>
      rw [separator] at fits
      exact fits.1
    | spaces =>
      intro inside
      apply formed.untabbed separator
      have row : '\t' ∈ p.rows.flatMap Row.text := by
        refine List.mem_flatMap.mpr ⟨r, member, ?_⟩
        simp [Row.text, Row.columns, inside]
      simp [EnumPage.text, EnumPage.table, EnumPage.body, row]
  intro c inside
  have first : c ≠ '\t' := ne_of_mem_of_not_mem inside untabbed
  have second : c ≠ '\n' := ne_of_mem_of_not_mem inside line
  simp [valueClass, CharClass.accepts, ClassItem.accepts, first, second]

theorem isLine_row : ∀ r ∈ p.rows, IsLine r.text :=
  fun r member => (formed.formed r member).isLine formed.line (lines r member)

theorem takes_table {r : Row} (member : r ∈ p.rows) :
    ∃ w rest, p.table = w ++ rest ∧
      ∀ before, (tablePattern p.scope r.item p.separator).Takes before w rest := by
  obtain ⟨earlier, later, split⟩ := List.append_of_mem member
  have own := formed.formed r member
  have values := formed.accepts_value member (lines r member)
  have others : ∀ r' ∈ earlier, IsLine r'.text :=
    fun r' inside => formed.isLine_row lines r' (by simp [split, inside])
  have none (before : Option Char) (rest : Text) :
      (Pattern.chars (.noneOf [.char '\n']) .star).Takes before [] rest :=
    takes_chars_star.mpr fun _ absent => nomatch absent
  refine ⟨p.title ++ ([] ++ (['\n'] ++ (earlier.flatMap Row.text ++
    ((r.owner ++ r.item) ++ r.columns)))), later.flatMap Row.text ++ '\n' :: p.back, ?_, ?_⟩
  · simp [EnumPage.table, EnumPage.body, split, Row.text]
  · intro before
    exact ⟨_, _, rfl, p.takes_title _ _, _, _, rfl, none _ _, _, _, rfl, rfl, _, _, rfl,
      takes_skipped others _ _, _, _, rfl, takes_memberName.mpr ⟨r.owner, own.owner, rfl⟩,
      own.takes_columns values _ _⟩

theorem keeps_table {item : Text} (word : Text.IsWordRun item) {c x : Cursor}
    (split : c.rest = p.table)
    (first : ((tablePattern p.scope item p.separator).ends c).head? = some x) :
    ∃ r ∈ p.rows, r.item = item ∧ r.IsKept c x := by
  let good (x : Cursor) : Prop := ∃ r ∈ p.rows, r.item = item ∧ r.IsKept c x
  refine head?_seq good ?_ first
  intro c₁ titled x first
  refine head?_seq good ?_ first
  intro c₂ ended x first
  refine head?_seq good ?_ first
  intro c₃ broken x first
  refine head?_seq good ?_ first
  intro c₄ skipped x first
  refine head?_seq good ?_ first
  intro c₅ named x first
  obtain ⟨t, passes₁, title, kept₁⟩ := mem_ends rfl titled
  obtain ⟨z, passes₂, tail, kept₂⟩ := mem_ends rfl ended
  obtain ⟨_, passes₃, rfl, kept₃⟩ := mem_ends rfl broken
  obtain ⟨w, passes₄, ⟨n, -, skipped⟩, kept₄⟩ := mem_ends rfl skipped
  obtain ⟨_, passes₅, name, kept₅⟩ := mem_ends (by unfold memberName; split <;> rfl) named
  obtain ⟨o, owner, rfl⟩ := takes_memberName.mp name
  -- a mark follows the name
  obtain ⟨_, u, next, _, y, rfl, gap, -⟩ :=
    ends_ne_nil_iff.mp (List.ne_nil_of_mem (List.mem_of_mem_head? first))
  obtain ⟨v, rfl⟩ := Separator.mark_of_takes gap
  have body : p.body = w ++ (o ++ (item ++ p.separator.mark :: (v ++ (y ++ u)))) := by
    have whole := ((passes₁.trans passes₂).trans passes₃).rest
    rw [split, List.append_assoc] at whole
    rw [p.body_eq title (accepts_line.mp (takes_chars_star.mp tail)) whole,
      (passes₄.trans passes₅).rest, next]
    simp
  obtain ⟨r, member, names, rest, columns⟩ := row_of_takes formed.formed
    (formed.isLine_row lines) skipped owner word (owner.line formed.line) body
  have row : c₅.rest = r.columns ++ rest := by
    rw [← columns, next]
    simp
  have kept := (formed.formed r member).keeps_columns
    (formed.accepts_value member (lines r member)) row first
  exact ⟨r, member, names, kept.of_captures (by rw [kept₅, kept₄, kept₃, kept₂, kept₁])⟩

end EnumPage.WellFormed

/-! The way to the table. -/

def blockCharacter : Pattern := all [.notAhead (.chars (.char '\n') (.exactly 3)), .chars .any .one]

theorem ends_blockCharacter {d : Cursor} {a : Char} {v : Text} (split : d.rest = a :: v)
    (dense : ∀ z, d.rest ≠ "\n\n\n".toList ++ z) :
    ∃ e, d.Passes [a] e ∧ e.captures = d.captures ∧ blockCharacter.ends d = [e] := by
  have none : (Pattern.chars (.char '\n') (.exactly 3)).ends d = [] := by
    by_contra more
    obtain ⟨w, rest, next, accepted, enough, limited⟩ := ends_ne_nil_iff.mp more
    have three : w = List.replicate 3 '\n' := by
      refine List.eq_replicate_iff.mpr ⟨Nat.le_antisymm (limited 0 rfl) enough, ?_⟩
      intro c member
      simpa [CharClass.accepts] using accepted c member
    exact dense rest (by rw [next, three]; rfl)
  have here : (Pattern.notAhead (.chars (.char '\n') (.exactly 3))).ends d = [d] := by
    rw [Pattern.ends, none]
    rfl
  refine ⟨⟨some a, d.offset + 1, v, d.captures⟩, ⟨split, rfl, rfl⟩, rfl, ?_⟩
  calc blockCharacter.ends d
    _ = ([d] : List Cursor).flatMap fun e => e.stops .any .one := by rw [← here]; rfl
    _ = d.stops .any .one := List.flatMap_singleton ..
    _ = _ := by
      obtain ⟨before, offset, _, captures⟩ := d
      cases split
      cases v <;> rfl

theorem takes_enumHeading {scope name : Text} {before : Option Char} {w rest : Text} :
    (enumHeading scope name).Takes before w rest ↔ w = "enum ".toList ++ Scope.qualify scope name ∧
      (behind before w).any Text.isWord ≠ rest.head?.any Text.isWord := by
  constructor
  · intro taken
    obtain ⟨_, _, rfl, rfl, _, _, rfl, rfl, rfl, edge⟩ := taken
    rw [List.append_nil, behind_append]
    exact ⟨rfl, edge⟩
  · intro heading
    obtain ⟨rfl, edge⟩ := heading
    rw [behind_append] at edge
    exact ⟨_, _, rfl, rfl, _, [], (List.append_nil _).symm, rfl, rfl, edge⟩

theorem enumRow_eq (scope name item : Text) (s : Separator) :
    enumRow scope name item s = seq (enumHeading scope name)
      (seq (.group blockCharacter .lazyStar) (tablePattern scope item s)) :=
  rfl

namespace EnumPage.WellFormed

variable {p : EnumPage} (formed : p.WellFormed) (lines : ∀ r ∈ p.rows, '\n' ∉ r.value)
  {item : Text} {c : Cursor}
include formed

theorem head?_block {g : Cursor → List Cursor} (split : c.rest = '\n' :: p.introduction ++ p.table)
    (titled : ∀ d, g d ≠ [] → ∃ z, d.rest = "ConstantValue".toList ++ z)
    (leads : ∀ d, d.rest = p.table → g d ≠ []) :
    ∃ d, d.rest = p.table ∧ d.captures = c.captures ∧
      (((Pattern.group blockCharacter .lazyStar).ends c).flatMap g).head? = (g d).head? := by
  have places : (Pattern.group blockCharacter .lazyStar).ends c =
      endsUpTo blockCharacter.ends true c.rest.length c := by
    simp [Pattern.ends, endsExactly, Times.low, Times.isLazy, Times.extra?, Times.high?]
  obtain ⟨t, table⟩ : ∃ t, p.table = 'C' :: t := ⟨_, rfl⟩
  have blocked : ∀ u v d, '\n' :: p.introduction = u ++ v → v ≠ [] → c.Passes u d → g d = [] := by
    intro u v d parts some passes
    by_contra more
    obtain ⟨z, next⟩ := titled d more
    have behind : d.rest = v ++ 'C' :: t := by
      apply passes.rest_eq
      rw [split, parts, table, List.append_assoc]
    obtain ⟨y, rfl⟩ := Text.append_of_foreign (by decide) some (behind.symm.trans next)
    exact formed.untitled u y parts
  have step : ∀ u a v d, '\n' :: p.introduction = u ++ a :: v → c.Passes u d →
      ∃ e, d.Passes [a] e ∧ e.captures = d.captures ∧ blockCharacter.ends d = [e] := by
    intro u a v d parts passes
    have behind : d.rest = (a :: v) ++ 'C' :: t := by
      apply passes.rest_eq
      rw [split, parts, table, List.append_assoc]
    apply ends_blockCharacter behind
    intro z next
    obtain ⟨y, eq⟩ := Text.append_of_foreign (by decide) (List.cons_ne_nil a v) (behind.symm.trans next)
    exact formed.dense u y (by rw [parts, eq])
  have enough : ('\n' :: p.introduction).length ≤ c.rest.length := by
    rw [split, List.length_append]
    exact Nat.le_add_right ..
  obtain ⟨d, passes, kept, found⟩ := Cursor.head?_endsUpTo split enough step blocked
    fun d passes => leads d (passes.rest_eq split)
  exact ⟨d, passes.rest_eq split, kept, by rw [places, found]⟩

theorem behind_heading (before : Option Char) : (behind before p.heading).any Text.isWord := by
  obtain ⟨u, c, name⟩ : ∃ u c, p.name = u ++ [c] := by
    rcases List.eq_nil_or_concat' p.name with none | some
    · exact absurd none formed.name.1
    · exact some
  have last : Text.isWord c := formed.name.2 c (by simp [name])
  have ends : ∃ w, p.heading = w ++ [c] := by
    unfold EnumPage.heading Scope.qualify
    split
    · exact ⟨"enum ".toList ++ u, by rw [name, List.append_assoc]⟩
    · exact ⟨"enum ".toList ++ (p.scope ++ "::".toList ++ u), by rw [name]; simp⟩
  obtain ⟨w, ends⟩ := ends
  rw [ends, behind_append]
  exact last

include lines

theorem keeps_block {r : Row} (member : r ∈ p.rows)
    (split : c.rest = '\n' :: p.introduction ++ p.table) :
    ∃ x, ((seq (.group blockCharacter .lazyStar)
        (tablePattern p.scope r.item p.separator)).ends c).head? = some x ∧ r.IsKept c x := by
  have titled (d : Cursor) (more : (tablePattern p.scope r.item p.separator).ends d ≠ []) :
      ∃ z, d.rest = "ConstantValue".toList ++ z := by
    obtain ⟨_, rest, next, _, y, rfl, title, -⟩ := ends_ne_nil_iff.mp more
    obtain ⟨t, rfl, -⟩ := takes_tableHeading.mp title
    exact ⟨t ++ (y ++ rest), by rw [next]; simp⟩
  have leads (d : Cursor) (table : d.rest = p.table) :
      (tablePattern p.scope r.item p.separator).ends d ≠ [] := by
    obtain ⟨w, rest, parts, taken⟩ := formed.takes_table lines member
    exact ends_ne_nil_iff.mpr ⟨w, rest, table.trans parts, taken _⟩
  obtain ⟨d, table, same, found⟩ := formed.head?_block split titled leads
  obtain ⟨x, first⟩ := Option.isSome_iff_exists.mp (List.isSome_head?.mpr (leads d table))
  obtain ⟨r', inside, names, kept⟩ :=
    formed.keeps_table lines (formed.formed r member).item table first
  obtain rfl := List.inj_on_of_nodup_map formed.distinct inside member names
  exact ⟨x, found.trans first, kept.of_captures same⟩

theorem keeps_row {r : Row} (member : r ∈ p.rows)
    (split : c.rest = p.heading ++ ('\n' :: p.introduction ++ p.table)) :
    ∃ x, ((enumRow p.scope p.name r.item p.separator).ends c).head? = some x ∧ r.IsKept c x := by
  rw [enumRow_eq]
  have taken : (enumHeading p.scope p.name).Takes c.before p.heading
      ('\n' :: p.introduction ++ p.table) := by
    refine takes_enumHeading.mpr ⟨rfl, ?_⟩
    simp [formed.behind_heading, Text.isWord_newline]
  obtain ⟨e, heading, passes⟩ := (enumHeading p.scope p.name).faithful.complete split taken
  obtain ⟨x, first, -⟩ := formed.keeps_block lines member (passes.rest_eq split)
  have places : (seq (enumHeading p.scope p.name) (seq (.group blockCharacter .lazyStar)
      (tablePattern p.scope r.item p.separator))).ends c ≠ [] :=
    List.ne_nil_of_mem (List.mem_flatMap.mpr ⟨e, heading, List.mem_of_mem_head? first⟩)
  obtain ⟨x, first⟩ := Option.isSome_iff_exists.mp (List.isSome_head?.mpr places)
  refine ⟨x, first, head?_seq (r.IsKept c) ?_ first⟩
  intro e heading x first
  obtain ⟨w, passes, taken, same⟩ := mem_ends rfl heading
  obtain ⟨rfl, -⟩ := takes_enumHeading.mp taken
  obtain ⟨y, found, kept⟩ := formed.keeps_block lines member (passes.rest_eq split)
  obtain rfl := Option.some.inj (found.symm.trans first)
  exact kept.of_captures same

omit lines in
theorem ends_front {item : Text} {s : Separator} {x y : Text} (front : p.front = x ++ y)
    (some : y ≠ []) : (enumRow p.scope p.name item s).ends
      (.between x (y ++ (p.heading ++ ('\n' :: p.introduction ++ p.table)))) = [] := by
  by_contra more
  obtain ⟨_, rest, next, _, z, rfl, heading, -⟩ := ends_ne_nil_iff.mp more
  obtain ⟨rfl, -⟩ := takes_enumHeading.mp heading
  rw [List.append_assoc] at next
  have text : p.text = x ++ (p.heading ++ (z ++ rest)) := by
    rw [EnumPage.text, front, List.append_assoc]
    exact congrArg (x ++ ·) next
  have near := formed.first x _ text
  have further := List.length_pos_iff.mpr some
  rw [front, List.length_append] at near
  omega

theorem search?_row {r : Row} (member : r ∈ p.rows) :
    ∃ m, (enumRow p.scope p.name r.item p.separator).search? p.text = some m ∧
      m.get .docs = r.description := by
  obtain ⟨x, first, rest, captures⟩ := formed.keeps_row lines member
    (c := .between p.front (p.heading ++ ('\n' :: p.introduction ++ p.table))) rfl
  refine ⟨_, search?_of_leftmost (fun x y => formed.ends_front) first, ?_⟩
  simp [Match.get, Match.get?, captures, Capture.text]

end EnumPage.WellFormed

theorem search?_of_untabbed (scope name item : Text) {text : Text} (untabbed : '\t' ∉ text) :
    (enumRow scope name item .tab).search? text = none := by
  apply search?_eq_none
  intro u w v split taken
  obtain ⟨_, _, rfl, -, _, _, rfl, -, _, _, rfl, -, _, _, rfl, -, _, _, rfl, -, _, _, rfl, -, _, _,
    rfl, -, _, _, rfl, tab, -⟩ := taken
  obtain ⟨z, rfl⟩ := Separator.mark_of_takes (s := .tab) tab
  exact untabbed (by simp [split, Separator.mark])

theorem rowText?_row {p : EnumPage} (formed : p.WellFormed)
    (lines : ∀ r ∈ p.rows, '\n' ∉ r.value) {r : Row} (member : r ∈ p.rows) :
    Manual.rowText? p.text p.scope p.name r.item = some (Text.trim r.description) := by
  obtain ⟨m, found, docs⟩ := formed.search?_row lines member
  obtain ⟨c, visible, solid⟩ := (formed.formed r member).visible
  have some : Text.trim r.description ≠ [] := List.ne_nil_of_mem (Text.mem_trim visible solid)
  unfold Manual.rowText?
  cases separator : p.separator with
  | tab =>
    rw [separator] at found
    simp [found, docs, some]
  | spaces =>
    rw [separator] at found
    have none := search?_of_untabbed p.scope p.name r.item (formed.untabbed separator)
    simp [found, docs, some, none]

/-- On a page with the value table of an enum, each enumerator gets the description in its row. -/
theorem describeEnum_rows (m : Manual) (e : Enum) {p : EnumPage} (formed : p.WellFormed)
    (lines : ∀ r ∈ p.rows, '\n' ∉ r.value) (found : m.pages.find? (m.page e.scope) = some p.text)
    (scope : scopeName e.scope = p.scope) (name : e.name = p.name)
    (listed : ∀ item ∈ e.items, item.name ∈ p.rows.map Row.item) :
    List.Forall₂
      (fun item described => ∃ r ∈ p.rows, r.item = item.name ∧
        described = { item with remark := some ⟨Text.trim r.description, none⟩ })
      e.items (m.describeEnum e).value.items := by
  have items : (m.describeEnum e).value.items =
      e.items.map fun item => (m.describeItem e item).1 := by
    unfold Manual.describeEnum
    simp only
    split <;> rfl
  rw [items, List.forall₂_map_right_iff, List.forall₂_same]
  intro item inside
  obtain ⟨r, member, names⟩ := List.mem_map.mp (listed item inside)
  refine ⟨r, member, names, ?_⟩
  have text := rowText?_row formed lines member
  rw [names] at text
  simp [Manual.describeItem, found, scope, name, text]

def alignmentPage : EnumPage where
  scope := "Qt".toList
  name := "AlignmentFlag".toList
  separator := .tab
  front := "Qt\n\n".toList
  introduction := "How to align.\n".toList
  titled := true
  rows := [
    ⟨"Qt::".toList, "AlignLeft".toList, ['\t'], "0x01".toList, ['\t'], "Left edge.".toList⟩,
    ⟨"Qt::".toList, "AlignRight".toList, ['\t'], "0x02".toList, ['\t'], "Right edge. ".toList⟩]
  back := []

theorem alignmentPage_wellFormed : alignmentPage.WellFormed where
  name := by decide
  line := by decide
  first := by
    intro u v same
    rcases List.append_eq_append_iff.mp same with ⟨t, rfl, -⟩ | ⟨t, front, rest⟩
    · simp
    · cases t with
      | nil => simp [front]
      | cons c t =>
        have head : 'e' = c := (List.cons.inj rest).1
        have none : 'e' ∉ alignmentPage.front := by decide
        rw [front, head] at none
        exact absurd (by simp) none
  dense := by
    intro u v same
    have twice : ('\n' :: alignmentPage.introduction).count '\n' = 2 := by decide
    rw [same] at twice
    simp only [List.count_append] at twice
    have mark : "\n\n\n".toList.count '\n' = 3 := by decide
    omega
  untitled := by
    intro u v same
    have none : 'C' ∉ '\n' :: alignmentPage.introduction := by decide
    exact none (by simp [same])
  formed := by
    rw [alignmentPage, List.forall_mem_cons, List.forall_mem_singleton]
    exact ⟨Row.wellFormed_of_line rfl (by decide) rfl rfl (by decide) (by decide) (by decide)
        (by decide),
      Row.wellFormed_of_line rfl (by decide) rfl rfl (by decide) (by decide) (by decide)
        (by decide)⟩
  distinct := by decide
  untabbed := fun spaces => nomatch spaces

theorem describeEnum_rows_alignment :
    let qt : Scope := ⟨"Qt".toList, .space, [], none⟩
    let e : Enum := ⟨"AlignmentFlag".toList, some qt, none,
      [⟨"AlignRight".toList, none⟩, ⟨"AlignLeft".toList, none⟩]⟩
    let m : Manual := ⟨.ofList [("qt.html".toList, alignmentPage.text)], .empty, {}⟩
    alignmentPage.WellFormed ∧ (∀ r ∈ alignmentPage.rows, '\n' ∉ r.value) ∧
      m.pages.find? (m.page e.scope) = some alignmentPage.text ∧
      scopeName e.scope = alignmentPage.scope ∧ e.name = alignmentPage.name ∧
      (∀ item ∈ e.items, item.name ∈ alignmentPage.rows.map Row.item) ∧
      List.Forall₂
        (fun item described => ∃ r ∈ alignmentPage.rows, r.item = item.name ∧
          described = { item with remark := some ⟨Text.trim r.description, none⟩ })
        e.items (m.describeEnum e).value.items := by
  intro qt e m
  have lines : ∀ r ∈ alignmentPage.rows, '\n' ∉ r.value := by decide
  have found : m.pages.find? (m.page e.scope) = some alignmentPage.text := by decide +kernel
  have listed : ∀ item ∈ e.items, item.name ∈ alignmentPage.rows.map Row.item := by decide
  exact ⟨alignmentPage_wellFormed, lines, found, rfl, rfl, listed,
    describeEnum_rows m e alignmentPage_wellFormed lines found rfl rfl listed⟩

def brokenPage : EnumPage where
  scope := []
  name := "E".toList
  separator := .spaces
  front := []
  introduction := []
  titled := false
  rows := [⟨[], "A".toList, [' '], "1\n2".toList, [' '], "one".toList⟩,
    ⟨[], "B".toList, [' '], "3".toList, [' '], "two ".toList⟩]
  back := []

theorem not_describeEnum_rows_broken :
    let e : Enum := ⟨"E".toList, none, none, [⟨"A".toList, none⟩, ⟨"B".toList, none⟩]⟩
    let m : Manual := ⟨.ofList [("qtglobal.html".toList, brokenPage.text)], .empty, {}⟩
    brokenPage.WellFormed ∧ m.pages.find? (m.page e.scope) = some brokenPage.text ∧
      scopeName e.scope = brokenPage.scope ∧ e.name = brokenPage.name ∧
      e.items.map Enumerator.name = brokenPage.rows.map Row.item ∧
      brokenPage.rows.map Row.description = ["one".toList, "two ".toList] ∧
      (m.describeEnum e).value.items =
        [⟨"A".toList, none⟩, ⟨"B".toList, some ⟨"two".toList, none⟩⟩] := by
  intro e m
  refine ⟨?_, by decide +kernel, rfl, rfl, rfl, rfl, by decide +kernel⟩
  constructor
  case name => decide +kernel
  case line => decide
  case first => exact fun u _ _ => Nat.zero_le u.length
  case dense =>
    intro u v same
    have single := congrArg List.length same
    simp only [brokenPage, List.length_append, List.length_singleton] at single
    have mark : "\n\n\n".toList.length = 3 := by decide
    omega
  case untitled =>
    intro u v same
    have none : 'C' ∉ '\n' :: brokenPage.introduction := by decide
    exact none (by simp [same])
  case formed =>
    rw [brokenPage, List.forall_mem_cons, List.forall_mem_singleton]
    exact ⟨Row.wellFormed_of_line (.inl rfl) (by decide +kernel) (by decide) (by decide)
        (by decide) (by decide) (by decide) (by decide +kernel),
      Row.wellFormed_of_line (.inl rfl) (by decide +kernel) (by decide) (by decide) (by decide)
        (by decide) (by decide) (by decide +kernel)⟩
  case distinct => decide
  case untabbed => exact fun _ => by decide +kernel

end Apidoc.Page
