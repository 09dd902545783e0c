import Apidoc.PrintedType.Aliases
import Apidoc.Proofs.PrintedType.Grammar
import Mathlib.Data.List.Basic

namespace Apidoc.PrintedType

namespace AliasTable

def NamesAre (allowed : Text → Prop) (entries : List (Text × List Text)) : Prop :=
  ∀ e ∈ entries, ∀ name ∈ e.2, allowed name

theorem mem_addName {key name other : Text} {names : List Text}
    (member : other ∈ addName key name names) : other = name ∨ other ∈ names := by
  unfold addName at member
  split at member
  · exact .inr member
  · rcases List.mem_append.mp member with old | new
    · exact .inr old
    · exact .inl (List.mem_singleton.mp new)

theorem NamesAre.note {allowed : Text → Prop} {entries : List (Text × List Text)} {name : Text}
    (present : NamesAre allowed entries) (new : allowed name) (key : Text) :
    NamesAre allowed (note key name entries) := by
  have added {names : List Text} (old : ∀ other ∈ names, allowed other) :
      ∀ other ∈ addName key name names, allowed other := by
    intro other member
    rcases mem_addName member with rfl | before
    · exact new
    · exact old other before
  induction entries with
  | nil =>
    intro e member
    rw [AliasTable.note, List.mem_singleton] at member
    subst member
    exact added (fun _ absent => nomatch absent)
  | cons entry rest ih =>
    obtain ⟨first, others⟩ := List.forall_mem_cons.mp present
    simp only [AliasTable.note]
    split
    · exact List.forall_mem_cons.mpr ⟨added first, others⟩
    · exact List.forall_mem_cons.mpr ⟨first, ih others⟩

theorem namesAre_collected {allowed : Text → Prop} {aliases : List Alias}
    (all : ∀ a ∈ aliases, allowed a.name) : NamesAre allowed (collected aliases) := by
  have step (entries : List (Text × List Text)) (present : NamesAre allowed entries) :
      NamesAre allowed (aliases.foldl
        (fun entries a => if a.dependent then entries else note (canonical a.type) a.name entries)
        entries) := by
    induction aliases generalizing entries with
    | nil => exact present
    | cons a aliases ih =>
      obtain ⟨first, others⟩ := List.forall_mem_cons.mp all
      apply ih others
      show NamesAre allowed (if a.dependent then _ else _)
      split
      · exact present
      · exact present.note first _
  exact step [] (fun _ absent => nomatch absent)

theorem names_ofAliases (allowed : Text → Prop) {aliases : List Alias}
    (all : ∀ a ∈ aliases, allowed a.name) {type name : Text}
    (member : name ∈ (ofAliases aliases).names type) : allowed name := by
  unfold names find? at member
  cases found : (ofAliases aliases).entries.lookup (canonical type) with
  | none =>
    rw [found] at member
    cases member
  | some names =>
    rw [found] at member
    obtain ⟨before, behind, eq, -⟩ := List.lookup_eq_some_iff.mp found
    have entry : (canonical type, names) ∈ (ofAliases aliases).entries := by
      rw [eq]
      simp
    exact namesAre_collected all _ (List.mem_of_mem_filter entry) _ member

end AliasTable

theorem NameNode.eq_of_yield_single {d : NameNode} {t : Token} (valid : d.Valid)
    (single : d.yield = [t]) : d = .base (.plain [t]) := by
  cases d with
  | base segment =>
    cases segment with
    | plain words => exact congrArg _ (congrArg _ single)
    | template words opening arguments closing =>
      have lengths := congrArg List.length single
      simp [NameNode.yield, SegmentNode.yield] at lengths
      omega
  | inside scope colons name =>
    have nonempty := List.length_pos_iff.mpr (scope.yield_ne_nil valid.1)
    have lengths := congrArg List.length single
    simp only [NameNode.yield, List.length_append, List.length_cons, List.length_nil] at lengths
    omega

theorem TypeNode.Derives.eq_of_single {d : TypeNode} {t : Token} (derives : d.Derives [t]) :
    d = .mk none none (.base (.plain [t])) [] := by
  obtain ⟨valid, single⟩ := derives
  cases d with
  | mk lead sign name decorations =>
    have named := valid.2.2.2.1
    have nonempty := List.length_pos_iff.mpr (name.yield_ne_nil named)
    have lengths := congrArg List.length single
    simp only [TypeNode.yield, List.length_append, List.length_cons, List.length_nil] at lengths
    have bare : decorations = [] := List.eq_nil_of_length_eq_zero (by omega)
    have unled : lead = none := by
      cases lead with
      | none => rfl
      | some _ => simp only [Option.toList_some, List.length_cons] at lengths; omega
    have unsigned : sign = none := by
      cases sign with
      | none => rfl
      | some _ => simp only [Option.toList_some, List.length_cons] at lengths; omega
    subst bare unled unsigned
    simp only [TypeNode.yield, Option.toList_none, List.nil_append, List.append_nil] at single
    rw [NameNode.eq_of_yield_single named single]

theorem read_of_word {w : Text} (word : ∀ c ∈ w, Text.isWord c) :
    (∃ form : Form, form.sign = none ∧ read w = .tree (.mk form (.base (.plain [w])))) ∨
      read w = .verbatim false w := by
  cases parsed : parse w with
  | error e =>
    right
    have unqualified : List.isPrefixOf? "const ".toList w = none := by
      cases qualified : List.isPrefixOf? "const ".toList w with
      | none => rfl
      | some rest =>
        have space : Text.isWord ' ' :=
          word ' ' (by simp [← List.append_eq_of_isPrefixOf?_eq_some qualified])
        exact absurd space (by decide)
    simp only [read, parsed, Text.trim_of_word word, verbatim, unqualified]
  | ok tree =>
    left
    cases w with
    | nil =>
      have none : parse [] = .error .missingName := by
        rw [parse, tokens]
        rfl
      rw [none] at parsed
      cases parsed
    | cons c w =>
      have spelled := tokens_of_word (List.cons_ne_nil c w) word
      obtain ⟨ts, eq, d, derives, rfl⟩ := parse_eq_ok_iff.mp parsed
      rw [spelled] at eq
      cases eq
      obtain rfl := derives.eq_of_single
      exact ⟨_, rfl, by rw [read, parsed]; rfl⟩

def intTree : Tree := .mk ⟨false, none, false, 0, "int".toList⟩ (.base (.plain ["int".toList]))

theorem parse_int : parse "int".toList = .ok intTree := by
  rw [parse, tokens_of_word (by decide) (by decide)]
  rfl

theorem read_int : read "int".toList =
    .tree (.mk ⟨false, none, false, 0, "int".toList⟩ (.base (.plain ["int".toList]))) := by
  rw [read, parse_int]
  rfl

end Apidoc.PrintedType
