import Apidoc.Manual.Property
import Apidoc.Proofs.Manual.Function
import Apidoc.Proofs.Page.BlockEnd

/-!
Properties that no description is found for. The functions stay as they are, and so does the property
but for a name that a macro declares: it is taken on before the page is searched.
-/
namespace Apidoc

theorem joinBriefs_eq_nil_iff {a b : Text} : joinBriefs a b = [] ↔ a = [] ∧ b = [] := by
  cases a with
  | nil => simp [joinBriefs]
  | cons c a => cases b <;> simp [joinBriefs]

theorem Page.docs_ne_nil_of_findFunction? {layout : Layout} {table : PrintedType.AliasTable}
    {complete : Bool} {f : Function} {page : Text} {text : FunctionText}
    (found : findFunction? layout table complete f page = .ok (some text)) : text.docs ≠ [] := by
  obtain ⟨valid, m, searched, rfl⟩ := findFunction?_eq_some found
  obtain ⟨front, docs, back, -, ended, kept⟩ := endsFirst_of_search valid searched
  have some : docs ≠ [] := by
    rintro rfl
    cases ended.word
  rw [Pattern.get_of_kept kept]
  exact some

namespace Manual

variable {m : Manual} {f : Function} {functions functions' : List Function} {p : Property}

theorem docs_ne_nil_of_findOn? {key : Text} {edition : Edition} {text : Page.FunctionText}
    (found : m.findOn? f key edition = .ok (some text)) : text.docs ≠ [] := by
  unfold findOn? at found
  split at found
  · cases found
  · exact Page.docs_ne_nil_of_findFunction? found

theorem adopt_brief (f : Function) (edition : Edition) (text : Page.FunctionText) :
    (f.adopt edition text).brief = text.docs := by
  cases edition <;> rfl

theorem describeFrom_brief {pages : List (Text × Edition)} {d : Described Function}
    (described : m.describeFrom f pages = .ok d) : d.value = f ∨ d.value.brief ≠ [] := by
  induction pages with
  | nil =>
    cases described
    exact .inl rfl
  | cons page pages ih =>
    obtain ⟨key, edition⟩ := page
    rw [describeFrom] at described
    split at described
    · cases described
    · exact ih described
    · rename_i text found
      cases described
      right
      rw [adopt_brief]
      exact docs_ne_nil_of_findOn? found

theorem describeAccessor_of_empty {place : Option Nat} {brief : Text} {events : List Event}
    (described : m.describeAccessor functions place = .ok (functions', brief, events))
    (empty : brief = []) : functions' = functions := by
  unfold describeAccessor at described
  split at described
  · cases described
    rfl
  · rename_i i
    split at described
    · cases described
      rfl
    · rename_i f there
      split at described
      · cases described
        rfl
      · cases looked : m.describeFunction f with
        | error e =>
          rw [looked] at described
          cases described
        | ok d =>
          rw [looked] at described
          obtain ⟨set, rfl, -⟩ : functions.set i d.value = functions' ∧ d.value.brief = brief ∧
              d.events = events := by simpa [Except.map] using described
          have same : d.value = f := (describeFrom_brief looked).resolve_right (not_not.mpr empty)
          obtain ⟨bound, eq⟩ := List.getElem?_eq_some_iff.mp there
          rw [← set, same, ← eq]
          exact List.set_getElem_self bound

theorem describeDeclared_cases (m : Manual) (p : Property) :
    (m.describeDeclared p).value = p ∨ (m.describeDeclared p).found := by
  cases page : m.pages.find? (m.page p.scope) with
  | none => simp [describeDeclared, page, Described.unchanged]
  | some text =>
    cases searched : (Page.propertyEntry m.aliases p.name p.type).search? text <;>
      simp [describeDeclared, page, searched, Described.unchanged]

/-- A property has an entry under a declared name, a field of its own, or accessors that are looked
up one after the other. -/
theorem describeProperty_cases {d : Described Property}
    (described : m.describeProperty functions p = .ok (functions', d)) :
    (∃ name, p.macroName? m.layout = some name ∧ functions' = functions ∧
      d = m.describeDeclared { p with name := name }) ∨
    (p.macroName? m.layout = none ∧ functions' = functions ∧ d = .unchanged p) ∨
    ∃ middle first second events events', p.macroName? m.layout = none ∧
      m.describeAccessor functions p.getter = .ok (middle, first, events) ∧
      m.describeAccessor middle p.setter = .ok (functions', second, events') ∧
      d.found = !(joinBriefs first second).isEmpty ∧
      d.value =
        if d.found then { p with remark := some ⟨joinBriefs first second, none⟩ } else p := by
  unfold describeProperty at described
  cases declared : p.macroName? m.layout with
  | some name =>
    rw [declared] at described
    obtain ⟨rfl, rfl⟩ := Prod.mk.inj (Except.ok.inj described)
    exact .inl ⟨name, rfl, rfl, rfl⟩
  | none =>
    right
    simp only [declared] at described
    split at described
    · cases described
      exact .inl ⟨rfl, rfl, rfl⟩
    · split at described
      · cases described
      · rename_i middle first events getter
        split at described
        · cases described
        · rename_i last second events' setter
          right
          refine ⟨middle, first, second, events, events', rfl, getter, ?_⟩
          split at described <;> rename_i brief <;> cases described <;> simp [setter, brief]

/-- A property that no description is found for keeps its comment and its accessors. Only its name
may change, to the one that a macro declares. -/
theorem describeProperty_missing {d : Described Property}
    (described : m.describeProperty functions p = .ok (functions', d)) (missing : d.found = false) :
    functions' = functions ∧ d.value = { p with name := (p.macroName? m.layout).getD p.name } := by
  obtain ⟨name, declared, rfl, rfl⟩ | ⟨undeclared, rfl, rfl⟩ |
    ⟨middle, first, second, _, _, undeclared, getter, setter, found, value⟩ :=
      describeProperty_cases described
  · rw [declared]
    exact ⟨rfl, (m.describeDeclared_cases _).resolve_right (by simp [missing])⟩
  · rw [undeclared]
    exact ⟨rfl, rfl⟩
  · have empty : joinBriefs first second = [] := by simpa [found] using missing
    obtain ⟨none, none'⟩ := joinBriefs_eq_nil_iff.mp empty
    have kept : middle = functions := describeAccessor_of_empty getter none
    have kept' : functions' = middle := describeAccessor_of_empty setter none'
    rw [undeclared, value, missing]
    exact ⟨kept'.trans kept, rfl⟩

theorem describeProperty_missing_value :
    let dial : Scope :=
      ⟨"QDial".toList, .classLike false, ["Q_PROPERTY(int step READ step)".toList], none⟩
    let getter : Function := ⟨"value".toList, "value".toList, some dial, some ⟨[], none⟩, [], []⟩
    let setter : Function := ⟨"reset".toList, "reset".toList, some dial, none, [], []⟩
    let p : Property :=
      ⟨"value".toList, some dial, none, "int".toList, some 0, some 1, none⟩
    let m : Manual := ⟨.ofList [("qdial.html".toList,
      "\n\nint QDial::step()\nA step.\n\n\n\n".toList)], .empty, {}⟩
    ∃ functions' d, m.describeProperty [getter, setter] p = .ok (functions', d) ∧ d.found = false ∧
      functions' = [getter, setter] ∧
      d.value = { p with name := (p.macroName? m.layout).getD p.name } := by
  intro dial getter setter p m
  have pages : m.functionPages setter =
      [("qdial.html".toList, .current), ("qdial-obsolete.html".toList, .retired)] :=
    rfl
  have present : m.pages.find? "qdial.html".toList =
      some "\n\nint QDial::step()\nA step.\n\n\n\n".toList :=
    rfl
  have absent : m.pages.find? "qdial-obsolete.html".toList = none := rfl
  have unseen : m.findOn? setter "qdial.html".toList .current = .ok none := by
    have searched : (Page.functionBlock m.layout m.aliases true setter).search?
        "\n\nint QDial::step()\nA step.\n\n\n\n".toList = none :=
      rfl
    simp only [findOn?, present]
    rw [Page.findFunction?_of_valid (by decide)]
    exact congrArg Except.ok (Option.map_eq_none_iff.mpr searched)
  have looked : m.describeFunction setter = .ok (.unchanged setter) := by
    rw [describeFunction, pages, describeFrom, unseen, describeFrom, findOn?, absent]
    rfl
  have undeclared : p.macroName? m.layout = none := rfl
  have get : m.describeAccessor [getter, setter] p.getter = .ok ([getter, setter], [], []) := rfl
  have set : m.describeAccessor [getter, setter] p.setter = .ok ([getter, setter], [], []) := by
    have there : [getter, setter][1]? = some setter := rfl
    simp only [describeAccessor, p, there, looked, Except.map]
    rfl
  have described :
      m.describeProperty [getter, setter] p = .ok ([getter, setter], .unchanged p) := by
    simp only [describeProperty, undeclared, get, set]
    rfl
  exact ⟨_, _, described, rfl, describeProperty_missing described rfl⟩

theorem describeProperty_renames_missing :
    let slider : Scope := ⟨"QSlider".toList, .classLike false,
      ["Q_PROPERTY(bool isChecked READ isChecked)".toList], none⟩
    let p : Property := ⟨"checked".toList, some slider, none, "bool".toList, none, none, none⟩
    let m : Manual := ⟨.empty, .empty, {}⟩
    ∃ d, m.describeProperty [] p = .ok ([], d) ∧ d.found = false ∧
      d.value.name = "isChecked".toList ∧ d.value.name ≠ p.name := by
  intro slider p m
  have declared : p.macroName? m.layout = some "isChecked".toList := rfl
  have described : m.describeProperty [] p =
      .ok ([], .unchanged { p with name := "isChecked".toList }) := by
    rw [describeProperty, declared]
    rfl
  exact ⟨_, described, rfl, rfl, by decide⟩

end Manual

end Apidoc
