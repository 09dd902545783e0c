import Apidoc.Page.PropertyEntry
import Apidoc.Proofs.Page.FirstSpelling
import Apidoc.Proofs.Text.Occurrence

namespace Apidoc.Page

open Computability Pattern PrintedType

def sectionHeading : Text := "Property Documentation".toList

def nameMark : Text := " : ".toList

def accessMark : Text := "\nAccess functions:".toList

/-- An entry of a property section: its name, a spelling of its type, its description, and its
access functions. -/
structure PropertyEntry where
  name : Text
  type : Text
  description : Text
  access : Text

namespace PropertyEntry

def body (e : PropertyEntry) : Text := '\n' :: (e.description ++ (accessMark ++ e.access))

def text (e : PropertyEntry) : Text := e.name ++ (nameMark ++ (e.type ++ e.body))

/-- The first line of a description is a sentence, and its end is marked once. -/
structure WellFormed (e : PropertyEntry) : Prop where
  name : Text.IsWordRun e.name
  sentence : '.' ∈ e.description.takeWhile (· != '\n')
  unmarked : ∀ u v, e.description ≠ u ++ (accessMark ++ v)
  line : ∃ front, e.access = front ++ ['\n']

end PropertyEntry

/-- A page with a property section: the text in front of it, the text between its heading and its
entries, and the text behind these. -/
structure PropertyPage where
  front : Text
  introduction : Text
  entries : List PropertyEntry
  back : Text

namespace PropertyPage

variable (p : PropertyPage)

def above (before : List PropertyEntry) : Text :=
  p.front ++ (sectionHeading ++ (p.introduction ++ before.flatMap PropertyEntry.text))

def text : Text := p.above p.entries ++ p.back

/-- Entries start on lines of their own, and their names stand in front of a colon nowhere else. -/
structure WellFormed : Prop where
  line : ∃ front, p.introduction = front ++ ['\n']
  entry : ∀ e ∈ p.entries, e.WellFormed
  single : ∀ before e later, p.entries = before ++ e :: later → ∀ u v,
    p.text = u ++ (e.name ++ (nameMark ++ v)) → (behind none u).any Text.isWord = false →
      u = p.above before

end PropertyPage

variable {p : PropertyPage} {e : PropertyEntry}

theorem PropertyEntry.unmarked_of_not_mem (free : ':' ∉ e.description) (u v : Text) :
    e.description ≠ u ++ (accessMark ++ v) := by
  intro same
  rw [same] at free
  exact free (List.mem_append_right u (List.mem_append_left v (by decide)))

theorem PropertyPage.text_eq {before later : List PropertyEntry}
    (listed : p.entries = before ++ e :: later) : p.text =
      p.above before ++ (e.text ++ (later.flatMap PropertyEntry.text ++ p.back)) := by
  simp [text, above, listed]

theorem eq_of_places {text w front rest u v : Text} (split : text = front ++ rest)
    (only : ∀ n ≤ text.length, w.isPrefixOf (text.drop n) → n = front.length)
    (same : text = u ++ (w ++ v)) : u = front := by
  have place : u.length = front.length := by
    apply only
    · rw [same, List.length_append]
      exact Nat.le_add_right ..
    · rw [same]
      exact Text.isPrefixOf_drop u w v
  exact List.append_inj_left (same.symm.trans split) place

theorem PropertyPage.eq_above_of_places (only : ∀ i : Fin p.entries.length, ∀ n ≤ p.text.length,
      (p.entries[i].name ++ nameMark).isPrefixOf (p.text.drop n) →
        n = (p.above (p.entries.take i)).length)
    {before later : List PropertyEntry} (listed : p.entries = before ++ e :: later) {u v : Text}
    (same : p.text = u ++ (e.name ++ (nameMark ++ v))) : u = p.above before := by
  have bound : before.length < p.entries.length := by simp [listed]
  have entry : p.entries[before.length] = e := by simp [listed]
  have earlier : p.entries.take before.length = before := by simp [listed]
  have whole : p.text = u ++ ((e.name ++ nameMark) ++ v) := same.trans (by simp)
  refine eq_of_places (p.text_eq listed) (fun n inside found => ?_) whole
  rw [← earlier]
  exact only ⟨before.length, bound⟩ n inside (by simpa only [Fin.getElem_fin, entry] using found)

theorem PropertyPage.wellFormed_of_places (line : p.introduction.getLast? = some '\n')
    (entry : ∀ e ∈ p.entries, Text.IsWordRun e.name ∧ '.' ∈ e.description.takeWhile (· != '\n') ∧
      ':' ∉ e.description ∧ e.access.getLast? = some '\n')
    (only : ∀ i : Fin p.entries.length, ∀ n ≤ p.text.length,
      (p.entries[i].name ++ nameMark).isPrefixOf (p.text.drop n) →
        n = (p.above (p.entries.take i)).length) : p.WellFormed where
  line := List.getLast?_eq_some_iff.mp line
  entry e member := by
    obtain ⟨name, sentence, free, access⟩ := entry e member
    exact ⟨name, sentence, PropertyEntry.unmarked_of_not_mem free,
      List.getLast?_eq_some_iff.mp access⟩
  single _ _ _ listed _ _ same _ := eq_above_of_places only listed same

theorem PropertyEntry.WellFormed.exists_stop (formed : e.WellFormed) :
    ∃ u v, e.description = u ++ '.' :: v ∧ '\n' ∉ u := by
  obtain ⟨u, v, stop⟩ := List.append_of_mem formed.sentence
  refine ⟨u, v ++ e.description.dropWhile (· != '\n'), ?_, ?_⟩
  · calc e.description
      _ = e.description.takeWhile (· != '\n') ++ e.description.dropWhile (· != '\n') :=
        List.takeWhile_append_dropWhile.symm
      _ = u ++ '.' :: (v ++ e.description.dropWhile (· != '\n')) := by rw [stop]; simp
  · intro member
    have inside : '\n' ∈ e.description.takeWhile (· != '\n') := by simp [stop, member]
    exact absurd (List.mem_takeWhile_imp inside) (by decide)

theorem PropertyEntry.WellFormed.mem_of_line (formed : e.WellFormed) {s y z : Text}
    (same : e.description ++ y = s ++ '\n' :: z) : '.' ∈ s := by
  obtain ⟨u, v, stop, line⟩ := formed.exists_stop
  rw [stop, List.append_assoc, List.cons_append] at same
  rcases List.append_eq_append_iff.mp same with ⟨r, rfl, rest⟩ | ⟨r, rfl, rest⟩
  · cases r with
    | nil => exact absurd (List.cons.inj rest).1 (by decide)
    | cons d r =>
      obtain ⟨rfl, -⟩ := List.cons.inj rest
      simp
  · cases r with
    | nil => exact absurd (List.cons.inj rest).1 (by decide)
    | cons d r =>
      obtain ⟨rfl, -⟩ := List.cons.inj rest
      exact absurd (by simp) line

def entryEnd : Pattern :=
  all [.group (all [someSpaces, .fixed "const".toList]) .optional, .fixed "\n".toList,
    .field .docs (.chars .any .lazyStar), .fixed "\nAccess functions:".toList]

theorem propertyEntry_eq (table : AliasTable) (name type : Text) :
    propertyEntry table name type = (Pattern.fixed sectionHeading).seq
      ((Pattern.chars .any .star).seq ((Pattern.notAfter .word).seq ((Pattern.quoted name).seq
        ((Pattern.fixed nameMark).seq ((pattern type table true).seq entryEnd))))) := rfl

theorem takes_edge {before : Option Char} {w rest : Text} :
    (Pattern.notAfter .word).Takes before w rest ↔ w = [] ∧ before.any Text.isWord = false := by
  rw [← Bool.not_eq_true]
  rfl

theorem spells_trailing :
    (Pattern.group (all [someSpaces, .fixed "const".toList]) .optional).Spells trailing :=
  (spells_someSpaces.seq (spells_fixed _)).group_optional

theorem stop_not_mem_trailing {t : Text} (member : t ∈ trailing) : '.' ∉ t := by
  rcases member with none | some
  · cases none
    exact List.not_mem_nil
  · obtain ⟨g, ⟨-, blank⟩, _, rfl, rfl⟩ := Language.mem_mul.mp some
    rw [List.mem_append]
    refine not_or.mpr ⟨fun inside => ?_, by decide⟩
    exact absurd (blank '.' inside) (by decide)

theorem PropertyEntry.leads_body (e : PropertyEntry) (rest : Text) :
    entryEnd.Leads (e.body ++ rest) := by
  intro before
  refine ⟨'\n' :: (e.description ++ accessMark), e.access ++ rest, by simp [body], ?_⟩
  have none (before : Option Char) (rest : Text) :
      (Pattern.group (all [someSpaces, .fixed "const".toList]) .optional).Takes before [] rest :=
    takes_group_optional.mpr (.inl rfl)
  have docs (before : Option Char) (rest : Text) :
      (Pattern.field .docs (.chars .any .lazyStar)).Takes before e.description rest := by
    show (Pattern.chars .any .lazyStar).Takes before e.description rest
    exact takes_chars_lazyStar.mpr fun _ _ => rfl
  exact ⟨[], _, rfl, none _ _, ['\n'], _, rfl, rfl, e.description, accessMark, rfl, docs _ _, rfl⟩

variable {c x : Cursor} {rest : Text}

theorem keeps_docs (formed : e.WellFormed)
    (split : c.rest = e.description ++ (accessMark ++ rest))
    (first : (((Pattern.field .docs (.chars .any .lazyStar)).seq
      (.fixed accessMark)).ends c).head? = some x) :
    x.captures = ⟨.docs, c.rest, e.description.length⟩ :: c.captures := by
  have places : ((Pattern.field .docs (.chars .any .lazyStar)).seq (.fixed accessMark)).ends c =
      (c.stops .any .lazyStar).flatMap
        fun d => (Pattern.fixed accessMark).ends (d.keep .docs c) := by
    simp only [ends, List.flatMap_map]
  have blocked : ∀ u v d, e.description = u ++ v → v ≠ [] → c.Passes u d →
      (Pattern.fixed accessMark).ends (d.keep .docs c) = [] := by
    intro u v d parts some passes
    by_contra more
    obtain ⟨_, z, next, rfl⟩ := ends_ne_nil_iff.mp more
    have behind : d.rest = v ++ (accessMark ++ rest) := by
      apply passes.rest_eq
      rw [split, parts, List.append_assoc]
    obtain ⟨t, rfl⟩ := Text.append_of_foreign (by decide) some (behind.symm.trans next)
    exact formed.unmarked u t parts
  have leads : ∀ d, c.Passes e.description d →
      (Pattern.fixed accessMark).ends (d.keep .docs c) ≠ [] :=
    fun d passes => ends_ne_nil_iff.mpr ⟨accessMark, rest, passes.rest_eq split, rfl⟩
  rw [places] at first
  obtain ⟨d, passes, kept, found⟩ := Cursor.head?_stops split blocked leads
  rw [found] at first
  obtain ⟨-, -, -, same⟩ := mem_ends rfl (List.mem_of_mem_head? first)
  rw [same, Cursor.keep, kept, passes.offset, Nat.add_sub_cancel_left]

/-- Behind a spelling of the type that does not end at a line break inside of the entry's, the
description is kept. -/
theorem keeps_end (formed : e.WellFormed) {u w : Text} (plain : '.' ∉ w)
    (apart : ∀ t ∈ trailing, ∀ z, u ≠ w ++ (t ++ '\n' :: z))
    (split : w ++ c.rest = u ++ '\n' :: (e.description ++ (accessMark ++ rest)))
    (first : (entryEnd.ends c).head? = some x) (start : Nat) :
    (⟨start, x⟩ : Match).get .docs = e.description := by
  obtain ⟨t, trails, a, passes, first⟩ := exists_spelling_of_head? spells_trailing first
  obtain ⟨_, rfl, b, passes', first⟩ := exists_spelling_of_head? (spells_fixed _) first
  have whole : (w ++ t) ++ '\n' :: b.rest =
      u ++ '\n' :: (e.description ++ (accessMark ++ rest)) := by
    rw [← split, passes.rest, passes'.rest]
    simp
  have behind : b.rest = e.description ++ (accessMark ++ rest) := by
    rcases List.append_eq_append_iff.mp whole with ⟨s, rfl, next⟩ | ⟨s, longer, next⟩
    · cases s with
      | nil => exact (List.cons.inj next).2
      | cons d s =>
        obtain ⟨rfl, -⟩ := List.cons.inj next
        exact absurd (List.append_assoc ..) (apart t trails s)
    · cases s with
      | nil => exact (List.cons.inj next).2.symm
      | cons d s =>
        have stop := formed.mem_of_line (List.cons.inj next).2
        have none : '.' ∉ w ++ t := by
          rw [List.mem_append]
          exact not_or.mpr ⟨plain, stop_not_mem_trailing trails⟩
        exact absurd (by simp [longer, stop]) none
  have captures := keeps_docs formed behind first
  simp [Match.get, Match.get?, captures, Capture.text, behind]

section

variable {table : AliasTable} (words : table.OfWords) {type : Text} {tree : Tree}
  (parsed : parse type = .ok tree)
include words parsed

theorem stop_not_mem_documented {w : Text} (member : w ∈ tree.documented freeSpace table.names) :
    '.' ∉ w := by
  have marks : ['.'] ⊆ endMarks := by decide
  have plain : (tree.pattern table.extra).IsPlain ['.'] :=
    tree.isPlain_pattern marks (by decide) (isPlain_extra marks words) (named_of_parse parsed)
  exact not_mem_of_takes plain ((tree.spells words none w []).mpr member) (.head [])

theorem keeps_entry (formed : e.WellFormed)
    (lines : '\n' ∈ e.type → IsBreakable table.names tree)
    (member : e.type ∈ tree.documented freeSpace table.names)
    (split : c.rest = e.type ++ (e.body ++ rest))
    (first : (((tree.pattern table.extra).seq entryEnd).ends c).head? = some x) (start : Nat) :
    (⟨start, x⟩ : Match).get .docs = e.description := by
  cases tree with
  | mk form path =>
    obtain ⟨w, spelled, a, passes, here, apart⟩ :=
      first_spelling words parsed lines member split (e.leads_body rest) first
    have whole : w ++ a.rest =
        e.type ++ '\n' :: (e.description ++ (accessMark ++ (e.access ++ rest))) := by
      rw [← passes.rest, split]
      simp [PropertyEntry.body]
    exact keeps_end formed (stop_not_mem_documented words parsed spelled) apart whole here start

end

theorem PropertyEntry.WellFormed.exists_line (formed : e.WellFormed) :
    ∃ front, e.text = front ++ ['\n'] := by
  obtain ⟨front, line⟩ := formed.line
  refine ⟨e.name ++ (nameMark ++ (e.type ++ '\n' :: (e.description ++ (accessMark ++ front)))), ?_⟩
  simp [text, body, line]

theorem PropertyPage.WellFormed.above_line (formed : p.WellFormed) {before : List PropertyEntry}
    (listed : ∀ e ∈ before, e ∈ p.entries) : ∃ front, p.above before = front ++ ['\n'] := by
  rcases List.eq_nil_or_concat' before with rfl | ⟨others, e, rfl⟩
  · obtain ⟨front, line⟩ := formed.line
    exact ⟨p.front ++ (sectionHeading ++ front), by simp [above, line]⟩
  · obtain ⟨front, line⟩ := (formed.entry e (listed e (by simp))).exists_line
    exact ⟨p.above others ++ front, by simp [above, line]⟩

section

variable {table : AliasTable} (words : table.OfWords) {type : Text} {tree : Tree}
  (parsed : parse type = .ok tree) (formed : p.WellFormed) {before later : List PropertyEntry}
  (listed : p.entries = before ++ e :: later)
include words parsed formed listed

/-- Every match of the pattern of a property is in its entry, and the first one keeps its
description. -/
theorem keeps_property (lines : '\n' ∈ e.type → IsBreakable table.names tree)
    (member : e.type ∈ tree.documented freeSpace table.names) {u v : Text} (split : p.text = u ++ v)
    (first : ((propertyEntry table e.name type).ends (.between u v)).head? = some x) :
    (⟨u.length, x⟩ : Match).get .docs = e.description := by
  let good (x : Cursor) : Prop := (⟨u.length, x⟩ : Match).get .docs = e.description
  rw [propertyEntry_eq] at first
  refine head?_seq good ?_ first
  intro c₁ headed x first
  refine head?_seq good ?_ first
  intro c₂ passed x first
  refine head?_seq good ?_ first
  intro c₃ edged x first
  refine head?_seq good ?_ first
  intro c₄ named x first
  refine head?_seq good ?_ first
  intro c₅ marked x first
  obtain ⟨_, passes₁, rfl, -⟩ := mem_ends rfl headed
  obtain ⟨a, passes₂, -, -⟩ := mem_ends rfl passed
  obtain ⟨_, passes₃, bounded, -⟩ := mem_ends rfl edged
  obtain ⟨rfl, edge⟩ := takes_edge.mp bounded
  obtain ⟨_, passes₄, rfl, -⟩ := mem_ends rfl named
  obtain ⟨_, passes₅, rfl, -⟩ := mem_ends rfl marked
  have start : v = sectionHeading ++ a ++ c₂.rest := (passes₁.trans passes₂).rest
  have name := ((passes₃.trans passes₄).trans passes₅).rest
  rw [List.nil_append, List.append_assoc] at name
  have place : u ++ (sectionHeading ++ a) = p.above before := by
    apply formed.single before e later listed _ c₅.rest
    · rw [split, start, name]
      simp
    · have reached : c₂.before = behind none (u ++ (sectionHeading ++ a)) := by
        rw [(passes₁.trans passes₂).before]
        exact (behind_append none u (sectionHeading ++ a)).symm
      rwa [reached] at edge
  have behind : c₅.rest = e.type ++ (e.body ++ (later.flatMap PropertyEntry.text ++ p.back)) := by
    have whole := p.text_eq listed
    rw [split, start, ← List.append_assoc, place, name, PropertyEntry.text] at whole
    simpa using whole
  rw [pattern_of_parse parsed] at first
  exact keeps_entry words parsed (formed.entry e (by simp [listed])) lines member behind first _

theorem search?_property (lines : '\n' ∈ e.type → IsBreakable table.names tree)
    (spelled : (pattern type table true).matchesAll e.type) :
    ∃ found, (propertyEntry table e.name type).search? p.text = some found ∧
      found.get .docs = e.description := by
  rw [pattern_of_parse parsed, (tree.spells words).matchesAll_iff] at spelled
  have earlier : ∀ e ∈ before, e ∈ p.entries := fun e member => by simp [listed, member]
  obtain ⟨front, line⟩ := formed.above_line earlier
  have edge : (behind none (p.above before)).any Text.isWord = false := by
    rw [line, behind_concat]
    exact Text.isWord_newline
  obtain ⟨w, z, parts, taken⟩ := (tree.spells words).leads spelled (e.leads_body
    (later.flatMap PropertyEntry.text ++ p.back)) (behind none (p.above before ++ e.name ++ nameMark))
  have text : p.text = p.front ++ ((sectionHeading ++ (p.introduction ++
      before.flatMap PropertyEntry.text ++ ([] ++ (e.name ++ (nameMark ++ w))))) ++ z) := by
    have rest : e.text ++ (later.flatMap PropertyEntry.text ++ p.back) =
        e.name ++ (nameMark ++ (w ++ z)) := by
      rw [← parts, PropertyEntry.text]
      simp only [List.append_assoc]
    rw [p.text_eq listed, rest, PropertyPage.above]
    simp only [List.append_assoc, List.nil_append]
  refine search?_of_takes (fun u v x split first =>
    keeps_property words parsed formed listed lines spelled split first) text ?_
  have here : behind (behind (behind none p.front) sectionHeading)
      (p.introduction ++ before.flatMap PropertyEntry.text) = behind none (p.above before) := by
    simp only [PropertyPage.above, behind_append]
  rw [propertyEntry_eq, pattern_of_parse parsed]
  refine ⟨_, _, rfl, rfl, _, _, rfl, takes_chars_star.mpr fun _ _ => rfl, [], _, rfl,
    takes_edge.mpr ⟨rfl, ?_⟩, _, _, rfl, rfl, _, w, rfl, rfl, ?_⟩
  · rw [here, edge]
  · rw [behind_append, behind_append, ← here] at taken
    exact taken

end

end Apidoc.Page
