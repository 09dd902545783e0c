import Apidoc.Proofs.Manual.Function
import Apidoc.Proofs.Page.BlockEnd
import Apidoc.Proofs.Pattern.Within
import Apidoc.Proofs.PrintedType.Registered
import Mathlib.Data.List.Forall2

/-!
Functions whose parameters may have any decoration. What is found with the decorations of the
declaration is found with any, and no later on the page.
-/
namespace Apidoc

open Pattern

namespace PrintedType

theorem Form.decoration_within (form : Form) : form.decoration.Within looseDecoration := by
  unfold Form.decoration
  split
  · have mark : (Pattern.fixed "&".toList).Within
        (.group (.alt (.fixed "&".toList) pointerMarks) .one) := (within_alt_left _ _).group_one
    exact (within_all (.cons (.refl _) (.cons mark (.cons (.refl _) .nil)))).group_optional
  · split
    · have marks : pointerMarks.Within
          (.group (.alt (.fixed "&".toList) pointerMarks) .one) := (within_alt_right _ _).group_one
      exact (within_all (.cons (.refl _) (.cons marks (.cons (.refl _) .nil)))).group_optional
    · exact within_optional_of_empty _

theorem pattern_within (type : Text) (table : AliasTable) :
    (pattern type table true).Within (pattern type table false) := by
  unfold pattern Reading.pattern
  cases read type with
  | tree tree => exact (Within.refl _).seq tree.form.decoration_within
  | verbatim const s => exact .refl _

end PrintedType

namespace Page

open PrintedType

variable (table : AliasTable)

theorem parametersPattern_within (ps : List Parameter) :
    (parametersPattern table true ps).Within (parametersPattern table false ps) := by
  cases ps with
  | nil => exact .refl _
  | cons p ps =>
    have each : List.Forall₂ Within ((p :: ps).map (parameterPattern table true))
        ((p :: ps).map (parameterPattern table false)) := by
      rw [List.forall₂_map_left_iff, List.forall₂_map_right_iff, List.forall₂_same]
      intro q _
      exact (pattern_within q.type table).seq (.refl _)
    exact within_all (.cons (within_separated _ each) (.cons (.refl _) .nil))

theorem functionBlock_within (layout : Layout) (f : Function) :
    (functionBlock layout table true f).Within (functionBlock layout table false f) := by
  have arguments := (parametersPattern_within table f.callParameters).field .arguments
  have same {p : Pattern} : p.Within p := .refl p
  have declared : (declarator table true f).Within (declarator table false f) :=
    within_all (.cons same (.cons same (.cons same (.cons same (.cons arguments
      (.cons same (.cons same (.cons same .nil))))))))
  exact within_all (.cons same (.cons same (.cons same (.cons declared
    (.cons same (.cons same (.cons same .nil)))))))

/-- A function found with its decorations is found with any as well, and no later. -/
theorem findFunction?_anyDecoration {layout : Layout} {table : AliasTable} {f : Function}
    {page : Text} {text : FunctionText}
    (found : findFunction? layout table true f page = .ok (some text)) :
    ∃ m m', (functionBlock layout table true f).search? page = some m ∧
      text = ⟨m.get .docs, m.get .arguments⟩ ∧
      (functionBlock layout table false f).search? page = some m' ∧
      findFunction? layout table false f page = .ok (some ⟨m'.get .docs, m'.get .arguments⟩) ∧
      m'.start ≤ m.start := by
  obtain ⟨valid, m, searched, rfl⟩ := findFunction?_eq_some found
  obtain ⟨m', looser, bound⟩ := (functionBlock_within table layout f).search? searched
  refine ⟨m, m', searched, rfl, looser, ?_, bound⟩
  rw [findFunction?_of_valid valid, looser]
  rfl

theorem findFunction?_anyDecoration_reset :
    let f : Function := ⟨"reset".toList, "reset".toList, none, none,
      [⟨"value".toList, "int*".toList, .regular⟩], []⟩
    let page := ("\n\nvoid reset(int value)\nResets a copy.\n\n\n" ++
      "\nvoid reset(int *value)\nResets in place.\n\n\n\n").toList
    let text : FunctionText := ⟨"Resets in place.".toList, "int *value".toList⟩
    findFunction? {} .empty true f page = .ok (some text) ∧
      ∃ m m', (functionBlock {} .empty true f).search? page = some m ∧
        text = ⟨m.get .docs, m.get .arguments⟩ ∧
        (functionBlock {} .empty false f).search? page = some m' ∧
        findFunction? {} .empty false f page = .ok (some ⟨m'.get .docs, m'.get .arguments⟩) ∧
        m'.start ≤ m.start := by
  intro f page text
  have callParameters : f.callParameters = [⟨"value".toList, "int*".toList, .regular⟩] := rfl
  have found : findFunction? {} .empty true f page = .ok (some text) := by
    rw [findFunction?_of_valid (by decide), functionBlock, declarator, callParameters,
      parametersPattern, List.map_singleton, parameterPattern, pattern_of_parse parse_intPointer]
    exact congrArg Except.ok (by decide +kernel)
  exact ⟨found, findFunction?_anyDecoration found⟩

end Page

end Apidoc
