import Apidoc.Proofs.PrintedType.OwnSpelling

/-!
A type outside of the grammar is found as it is written, and with other white space, brackets for
its stars, and white space before its decorations and behind its commas.
-/
namespace Apidoc.PrintedType

open Pattern

def Blank (g : Text) : Prop := ∀ c ∈ g, Text.isBlank c

instance (g : Text) : Decidable (Blank g) := inferInstanceAs (Decidable (∀ c ∈ g, Text.isBlank c))

theorem blank_nil : Blank [] := fun _ absent => nomatch absent

theorem Blank.append {g h : Text} (first : Blank g) (second : Blank h) : Blank (g ++ h) :=
  List.forall_mem_append.mpr ⟨first, second⟩

/-- What may be written for a character of such a type. -/
inductive Spelled : Char → Text → Prop
  | same {c : Char} : Spelled c [c]
  | blank {c : Char} {g : Text} (space : Text.isBlank c) (blank : Blank g) : Spelled c g
  | marked {c : Char} {g : Text} (mark : c = '*' ∨ c = '&') (blank : Blank g) : Spelled c (g ++ [c])
  | brackets {g : Text} (blank : Blank g) : Spelled '*' (g ++ "[]".toList)
  | comma {g : Text} (blank : Blank g) : Spelled ',' (',' :: g)

/-- What may be written for a text, character by character. -/
inductive Loose : Text → Text → Prop
  | nil : Loose [] []
  | cons {c : Char} {s x w : Text} (first : Spelled c x) (rest : Loose s w) :
    Loose (c :: s) (x ++ w)

namespace Loose

variable {s t u v w : Text}

theorem refl : (s : Text) → Loose s s
  | [] => .nil
  | _ :: s => .cons .same (refl s)

theorem append (first : Loose s u) (second : Loose t v) : Loose (s ++ t) (u ++ v) := by
  induction first with
  | nil => exact second
  | cons spelled _ ih =>
    rw [List.append_assoc]
    exact .cons spelled ih

theorem split (loose : Loose (s ++ t) w) : ∃ u v, w = u ++ v ∧ Loose s u ∧ Loose t v := by
  induction s generalizing w with
  | nil => exact ⟨[], w, rfl, .nil, loose⟩
  | cons c s ih =>
    cases loose with
    | @cons _ _ x _ first rest =>
      obtain ⟨u, v, rfl, front, back⟩ := ih rest
      exact ⟨x ++ u, v, (List.append_assoc _ _ _).symm, .cons first front, back⟩

theorem single {c : Char} (loose : Loose [c] w) : Spelled c w := by
  cases loose with
  | cons first rest =>
    cases rest
    rwa [List.append_nil]

theorem blank (loose : Loose s w) (all : Blank s) : Blank w := by
  induction loose with
  | nil => exact all
  | @cons c s x w first rest ih =>
    obtain ⟨space, others⟩ := List.forall_mem_cons.mp all
    refine Blank.append ?_ (ih others)
    cases first with
    | same => simpa [Blank] using space
    | blank _ blank => exact blank
    | marked mark blank =>
      refine blank.append ?_
      simpa [Blank] using space
    | brackets => exact absurd space (by decide)
    | comma => exact absurd space (by decide)

end Loose

theorem Spelled.plain {c : Char} {x : Text} (spelled : Spelled c x) (solid : Text.isBlank c = false)
    (other : c ∉ ['*', '&', ',']) : x = [c] := by
  cases spelled with
  | same => rfl
  | blank space => simp [solid] at space
  | marked mark => simp_all
  | brackets => simp at other
  | comma => simp at other

theorem Spelled.behind_blank {c : Char} {g x : Text} (mark : c = '*' ∨ c = '&') (blank : Blank g)
    (spelled : Spelled c x) : Spelled c (g ++ x) := by
  cases spelled with
  | same => exact .marked mark blank
  | blank space => rcases mark with rfl | rfl <;> exact absurd space (by decide)
  | marked _ more =>
    rw [← List.append_assoc]
    exact .marked mark (blank.append more)
  | brackets more =>
    rw [← List.append_assoc]
    exact .brackets (blank.append more)
  | comma => simp at mark

theorem Spelled.comma_blank {g x : Text} (spelled : Spelled ',' x) (blank : Blank g) :
    Spelled ',' (x ++ g) := by
  cases spelled with
  | same => exact .comma blank
  | blank space => exact absurd space (by decide)
  | marked mark => simp at mark
  | comma more => exact .comma (more.append blank)

theorem Spelled.trans {c : Char} {x y : Text} (spelled : Spelled c x) (loose : Loose x y) :
    Spelled c y := by
  cases spelled with
  | same => exact loose.single
  | blank space blank => exact .blank space (loose.blank blank)
  | marked mark blank =>
    obtain ⟨g, w, rfl, front, back⟩ := loose.split
    exact back.single.behind_blank mark (front.blank blank)
  | brackets blank =>
    obtain ⟨g, w, rfl, front, back⟩ := loose.split
    obtain ⟨opening, closing, rfl, first, last⟩ := Loose.split (s := ['[']) (t := [']']) back
    rw [first.single.plain (by decide) (by decide), last.single.plain (by decide) (by decide)]
    exact .brackets (front.blank blank)
  | @comma g blank =>
    obtain ⟨w, h, rfl, front, back⟩ := Loose.split (s := [',']) (t := g) loose
    exact front.single.comma_blank (back.blank blank)

theorem Loose.trans {s t w : Text} (first : Loose s t) (second : Loose t w) : Loose s w := by
  induction first generalizing w with
  | nil => exact second
  | cons spelled _ ih =>
    obtain ⟨u, v, rfl, front, back⟩ := second.split
    exact .cons (spelled.trans front) (ih back)

/-- One change of a text: white space by other white space or none, a pair of brackets for a star,
white space before a decoration or behind a comma. -/
inductive Edit : Text → Text → Prop
  | blanks (u : Text) {g : Text} (h v : Text) (some : g ≠ []) (blank : Blank g) (blank' : Blank h) :
    Edit (u ++ (g ++ v)) (u ++ (h ++ v))
  | brackets (u v : Text) : Edit (u ++ '*' :: v) (u ++ ("[]".toList ++ v))
  | before (u : Text) {g : Text} {c : Char} (v : Text) (blank : Blank g)
      (mark : c = '*' ∨ c = '&') :
    Edit (u ++ c :: v) (u ++ (g ++ c :: v))
  | behind (u : Text) {g : Text} (v : Text) (blank : Blank g) :
    Edit (u ++ ',' :: v) (u ++ ',' :: (g ++ v))

theorem loose_blanks {g h : Text} (some : g ≠ []) (blank : Blank g) (blank' : Blank h) :
    Loose g h := by
  cases g with
  | nil => exact absurd rfl some
  | cons c g =>
    obtain ⟨space, others⟩ := List.forall_mem_cons.mp blank
    have none : Loose g [] := by
      clear some blank
      induction g with
      | nil => exact .nil
      | cons d g ih =>
        obtain ⟨next, rest⟩ := List.forall_mem_cons.mp others
        exact .cons (.blank next blank_nil) (ih rest)
    rw [← List.append_nil h]
    exact .cons (.blank space blank') none

theorem Edit.loose {s w : Text} (edit : Edit s w) : Loose s w := by
  cases edit with
  | blanks u h v some blank blank' =>
    exact (Loose.refl u).append ((loose_blanks some blank blank').append (.refl v))
  | brackets u v => exact (Loose.refl u).append (.cons (.brackets blank_nil) (.refl v))
  | @before u g c v blank mark =>
    have marked : Loose (c :: v) (g ++ [c] ++ v) := .cons (.marked mark blank) (.refl v)
    rw [List.append_assoc] at marked
    exact (Loose.refl u).append marked
  | behind u v blank => exact (Loose.refl u).append (.cons (.comma blank) (.refl v))

/-- Changes one after another write a text as it may be written. -/
theorem loose_of_edits {s w : Text} (edits : Relation.ReflTransGen Edit s w) : Loose s w := by
  induction edits with
  | refl => exact .refl s
  | tail _ edit ih => exact ih.trans edit.loose

theorem covers_blanks {g : Text} (blank : Blank g) : Covers spaces g :=
  fun _ _ => takes_chars_star.mpr blank

theorem looseChar_of_blank {c : Char} (space : Text.isBlank c) : looseChar c = spaces := by
  have star : c ≠ '*' := Text.ne_of_isBlank space (by decide)
  have reference : c ≠ '&' := Text.ne_of_isBlank space (by decide)
  have comma : c ≠ ',' := Text.ne_of_isBlank space (by decide)
  simp [looseChar, star, reference, comma, space]

theorem Spelled.covers {c : Char} {x : Text} (spelled : Spelled c x) : Covers (looseChar c) x := by
  have pointer {g m : Text} (blank : Blank g) (mark : m = ['*'] ∨ m = "[]".toList) :
      Covers (all [spaces, .group pointerMark .one]) (g ++ m) :=
    (covers_blanks blank).seq (Covers.group_one fun _ _ => mark)
  have reference {g : Text} (blank : Blank g) : Covers (all [spaces, .fixed ['&']]) (g ++ ['&']) :=
    (covers_blanks blank).seq (covers_fixed _)
  have comma {g : Text} (blank : Blank g) : Covers (all [.fixed [','], spaces]) (',' :: g) :=
    (covers_fixed [',']).seq (covers_blanks blank)
  cases spelled with
  | same =>
    unfold looseChar
    split
    · rename_i star
      exact star ▸ pointer blank_nil (.inl rfl)
    · split
      · rename_i other
        exact other ▸ reference blank_nil
      · split
        · rename_i other
          exact other ▸ comma blank_nil
        · split
          · rename_i space
            exact covers_blanks (by simpa [Blank] using space)
          · exact covers_quoted _
  | blank space blank =>
    rw [looseChar_of_blank space]
    exact covers_blanks blank
  | marked mark blank =>
    rcases mark with rfl | rfl
    · exact pointer blank (.inl rfl)
    · exact reference blank
  | brackets blank => exact pointer blank (.inr rfl)
  | comma blank => exact comma blank

theorem Loose.covers {raw w : Text} (loose : Loose raw w) : Covers (loosePattern raw) w := by
  induction loose with
  | nil => exact covers_empty
  | cons first rest ih =>
    intro before more
    exact takes_all_cons.mpr ⟨_, _, rfl, first.covers _ _, ih _ _⟩

/-- A text cut behind a leading `const` and one space, if it starts with them. -/
def cutConst (s : Text) : Text × Text :=
  match List.isPrefixOf? "const ".toList s with
  | some rest => ("const ".toList, rest)
  | none => ([], s)

theorem cutConst_append (s : Text) : (cutConst s).1 ++ (cutConst s).2 = s := by
  unfold cutConst
  split
  · rename_i cut
    exact List.append_eq_of_isPrefixOf?_eq_some cut
  · rfl

theorem covers_verbatim {raw k w : Text} (const : Covers optionalConst k) (loose : Loose raw w)
    (qualified : Bool) (table : AliasTable) (complete : Bool) :
    Covers ((Reading.verbatim qualified raw).pattern table complete) (k ++ w) :=
  covers_anySpelling const ((covers_skip _).seq loose.covers) _

theorem covers_cutConst {s w : Text} (loose : Loose (cutConst s).2 w) (table : AliasTable)
    (complete : Bool) : Covers ((verbatim s).pattern table complete) ((cutConst s).1 ++ w) := by
  cases cut : List.isPrefixOf? "const ".toList s with
  | none =>
    simp only [cutConst, verbatim, cut] at loose ⊢
    exact covers_verbatim (covers_skip _) loose false table complete
  | some rest =>
    simp only [cutConst, verbatim, cut] at loose ⊢
    have parts : rest.takeWhile Text.isBlank ++ Text.trimLeft rest = rest :=
      List.takeWhile_append_dropWhile
    rw [← parts] at loose
    obtain ⟨g, v, rfl, front, back⟩ := loose.split
    have blank : Blank g := front.blank fun c member => List.mem_takeWhile_imp member
    have gap : Covers someSpaces (' ' :: g) := fun _ _ =>
      takes_chars_plus.mpr ⟨List.cons_ne_nil _ _, List.forall_mem_cons.mpr ⟨by decide, blank⟩⟩
    have const : Covers optionalConst (constWord ++ ' ' :: g) :=
      ((covers_fixed constWord).seq gap).optional
    have whole := covers_verbatim const back true table complete
    have text : "const ".toList ++ (g ++ v) = constWord ++ ' ' :: g ++ v := by simp [constWord]
    rw [text]
    exact whole

/-- A type outside of the grammar is found as it is written, and behind its leading `const` with any
changes, one after another; typedef names and complete declarators do not matter. -/
theorem matches_verbatim {type : Text} {e : GrammarError} (rejected : parse type = .error e)
    (table : AliasTable) (complete : Bool) :
    (pattern type table complete).matchesAll (Text.trim type) ∧
      ∀ w, Relation.ReflTransGen Edit (cutConst (Text.trim type)).2 w →
        (pattern type table complete).matchesAll ((cutConst (Text.trim type)).1 ++ w) := by
  have loosened : ∀ w, Relation.ReflTransGen Edit (cutConst (Text.trim type)).2 w →
      (pattern type table complete).matchesAll ((cutConst (Text.trim type)).1 ++ w) := by
    intro w edits
    rw [pattern, read, rejected, matchesAll_iff]
    exact covers_cutConst (loose_of_edits edits) table complete none []
  have itself := loosened _ .refl
  rw [cutConst_append] at itself
  exact ⟨itself, loosened⟩

theorem matches_verbatim_handler :
    ∃ e, parse " const  void (*)(int, char &)".toList = .error e ∧
      ∀ table complete,
        (pattern " const  void (*)(int, char &)".toList table complete).matchesAll
          "const  void (*)(int, char &)".toList ∧
        (pattern " const  void (*)(int, char &)".toList table complete).matchesAll
          "const  void([])(int,\n char\t&)".toList := by
  cases parsed : parse " const  void (*)(int, char &)".toList with
  | ok tree => exact (not_mem_of_parse parsed (c := '(') (by decide) (by decide)).elim
  | error e =>
    refine ⟨e, rfl, ?_⟩
    intro table complete
    obtain ⟨itself, changed⟩ := matches_verbatim parsed table complete
    have edits : Relation.ReflTransGen Edit " void (*)(int, char &)".toList
        " void([])(int,\n char\t&)".toList :=
      .tail (.tail (.tail (.single
        (.blanks " void".toList [] "(*)(int, char &)".toList (g := [' ']) (by simp) (by decide)
          blank_nil))
        (.brackets " void(".toList ")(int, char &)".toList))
        (.behind " void([])(int".toList " char &)".toList (g := ['\n']) (by decide)))
        (.blanks " void([])(int,\n char".toList ['\t'] "&)".toList (g := [' ']) (by simp)
          (by decide) (by decide))
    exact ⟨itself, changed _ edits⟩

end Apidoc.PrintedType
