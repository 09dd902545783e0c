import Apidoc.Manual.Property
import Apidoc.Proofs.PrintedType.Registered
import Apidoc.Proofs.Text.Words

/-!
The name that a macro gives to a property. It is taken for the second word of the macro, so it is
found behind a type that is printed without blanks. Behind any other type the word that follows the
first blanks of the type is taken for it.
-/
namespace Apidoc.Property

open Text

/-- A macro that declares a property. -/
def propertyMacro (type name rest : Text) : Text :=
  "Q_PROPERTY(".toList ++ type ++ ' ' :: (name ++ ' ' :: ("READ ".toList ++ rest ++ ")".toList))

def wordBehindBlank? (s : Text) : Option Text :=
  (words (s.dropWhile fun c => !isBlank c)).head?

theorem behindFirst_apart (s : Text) :
    ∀ c, (s.dropWhile fun c => !isBlank c).head? = some c → isBlank c := by
  intro c head
  have edge := List.head?_dropWhile_not (fun c => !isBlank c) s
  rw [head] at edge
  simpa using edge

/-- Blanks stand only at the end of the text. -/
def IsUnbroken (s : Text) : Prop :=
  ∃ core space, s = core ++ space ∧ (∀ c ∈ core, isBlank c = false) ∧ ∀ c ∈ space, isBlank c

theorem wordBehindBlank?_eq_none_iff {s : Text} : wordBehindBlank? s = none ↔ IsUnbroken s := by
  rw [wordBehindBlank?, List.head?_eq_none_iff, words_eq_nil_iff]
  constructor
  · intro blank
    refine ⟨s.takeWhile fun c => !isBlank c, _, List.takeWhile_append_dropWhile.symm, ?_, blank⟩
    intro c member
    simpa using List.all_eq_true.mp List.all_takeWhile c member
  · rintro ⟨core, space, rfl, solid, blank⟩
    have behind := (span_append (p := fun c => !isBlank c) (by simpa using solid) fun c head => by
      simpa using blank c (List.mem_of_mem_head? head)).2
    rwa [behind]

theorem words_propertyMacro {name : Text} (solid : IsSolid name) (type rest : Text) :
    ∃ first others, words (propertyMacro type name rest) =
      first :: (words (type.dropWhile fun c => !isBlank c) ++ name :: others) := by
  have blank : isBlank ' ' := by decide
  have front : IsSolid ("Q_PROPERTY(".toList ++ type.takeWhile fun c => !isBlank c) := by
    refine ⟨by simp, ?_⟩
    rw [List.forall_mem_append]
    refine ⟨by decide, fun c member => ?_⟩
    simpa using List.all_eq_true.mp List.all_takeWhile c member
  have typed := words_append_of_solid front (behindFirst_apart type)
  rw [List.append_assoc, List.takeWhile_append_dropWhile] at typed
  let tail := ' ' :: ("READ ".toList ++ rest ++ ")".toList)
  have named : words (name ++ tail) = name :: words tail :=
    words_append_of_solid solid (by rintro c ⟨⟩; exact blank)
  refine ⟨"Q_PROPERTY(".toList ++ type.takeWhile fun c => !isBlank c, words tail, ?_⟩
  calc
    words (propertyMacro type name rest) = words ("Q_PROPERTY(".toList ++ type) ++
        words (name ++ tail) := words_append_blank blank _ _
    _ = _ := by rw [typed, named, List.cons_append]

variable {layout : Layout} {p : Property} {scope : Scope} {type rest : Text}

theorem macroName?_of_only {text : Text} (inside : p.scope = some scope)
    (only : scope.macros.filter (fun text => layout.propertyMacros.any (·.occursIn text)) = [text]) :
    p.macroName? layout = secondWord? [p.name, questionName p.name] text := by
  unfold macroName?
  simp only [inside, only, List.findSome?_cons, List.findSome?_nil]
  cases secondWord? [p.name, questionName p.name] text <;> rfl

/-- The name of a property is found in its macro exactly if its type has blanks only at the end or
the name itself behind its first blanks. Any other word behind these is taken for the name if it asks
for the name as a question, and else hides it. -/
theorem macroName?_propertyMacro (inside : p.scope = some scope) (name : IsSolid p.name)
    (only : scope.macros.filter (fun text => layout.propertyMacros.any (·.occursIn text)) =
      [propertyMacro type p.name rest]) :
    (p.macroName? layout = some p.name ↔
        IsUnbroken type ∨ wordBehindBlank? type = some p.name) ∧
      ∀ w, wordBehindBlank? type = some w → w ≠ p.name →
        p.macroName? layout = if w = questionName p.name then some w else none := by
  obtain ⟨first, others, split⟩ := words_propertyMacro name type rest
  rw [macroName?_of_only inside only, secondWord?, split, List.getElem?_cons_succ,
    ← wordBehindBlank?_eq_none_iff, wordBehindBlank?]
  cases words (type.dropWhile fun c => !isBlank c) with
  | nil => simp
  | cons w ws =>
    by_cases own : w = p.name
    · simp [own]
    · by_cases question : w = questionName p.name
      · simp [question]
      · simp [own, question]

theorem macroName?_propertyMacro_steps :
    let type := "QMap<QString,int>*".toList
    let scope : Scope := ⟨"QDial".toList, .classLike false,
      ["Q_OBJECT".toList, propertyMacro type "steps".toList "steps".toList], none⟩
    let p : Property := ⟨"steps".toList, some scope, none, type, none, none, none⟩
    let layout : Layout := {}
    p.scope = some scope ∧ IsSolid p.name ∧
      scope.macros.filter (fun text => layout.propertyMacros.any (·.occursIn text)) =
        [propertyMacro type p.name "steps".toList] ∧
      IsUnbroken type ∧ p.macroName? layout = some p.name := by
  intro type scope p layout
  have solid : IsSolid p.name := by decide
  have only : scope.macros.filter (fun text => layout.propertyMacros.any (·.occursIn text)) =
      [propertyMacro type p.name "steps".toList] :=
    rfl
  have unbroken : IsUnbroken type := ⟨type, [], by simp, by decide, by simp⟩
  exact ⟨rfl, solid, only, unbroken, (macroName?_propertyMacro rfl solid only).1.mpr (.inl unbroken)⟩

/-- Behind types with blanks the name is not found, or another one is. -/
theorem not_macroName?_propertyMacro :
    let property (name type : String) : Property := ⟨name.toList, some ⟨"QDial".toList,
      .classLike false, [propertyMacro type.toList name.toList name.toList], none⟩, none,
      type.toList, none, none, none⟩
    (∀ type ∈ ["unsigned int", "QMap<QString, int>", "const isOn"],
      ∃ tree, PrintedType.parse type.toList = .ok tree) ∧
      (property "value" "unsigned int").macroName? {} = none ∧
      (property "value" "QMap<QString, int>").macroName? {} = none ∧
      (property "on" "const isOn").macroName? {} = some "isOn".toList := by
  intro property
  refine ⟨?_, rfl, rfl, rfl⟩
  simp only [List.forall_mem_cons]
  refine ⟨⟨_, PrintedType.parse_unsignedInt⟩, ?_, ?_, by simp⟩
  · have row : PrintedType.tokens "QMap<QString, int>".toList = .ok
        [⟨.word, [], "QMap".toList⟩, ⟨.mark, [], ['<']⟩, ⟨.word, [], "QString".toList⟩,
          ⟨.mark, [], [',']⟩, ⟨.word, [' '], "int".toList⟩, ⟨.mark, [], ['>']⟩] :=
      PrintedType.tokens_of_readsRow (by decide)
    rw [PrintedType.parse, row]
    exact ⟨_, rfl⟩
  · have row : PrintedType.tokens "const isOn".toList =
        .ok [⟨.word, [], "const".toList⟩, ⟨.word, [' '], "isOn".toList⟩] :=
      PrintedType.tokens_of_readsRow (by decide)
    rw [PrintedType.parse, row]
    exact ⟨_, rfl⟩

end Apidoc.Property
