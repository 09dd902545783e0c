import Apidoc.Proofs.ArgumentList.Alignment
import Apidoc.Proofs.Manual.Function
import Apidoc.Proofs.Page.ParameterPieces

namespace Apidoc.Manual

open ArgumentList

variable {m : Manual} {f : Function} {pages : List (Text × Edition)} {key : Text}
  {edition : Edition} {text : Page.FunctionText}

theorem FirstOn.takes (first : m.FirstOn f pages key edition text) : ∃ before rest,
    (Page.parametersPattern m.aliases (edition = .current) f.callParameters).Takes before
      text.arguments rest := by
  obtain ⟨_, _, -, -, found⟩ := first
  unfold findOn? at found
  cases page : m.pages.find? key with
  | none =>
    rw [page] at found
    cases found
  | some s =>
    rw [page] at found
    exact Page.takes_of_findFunction? found

/-- If default values close their brackets, each parameter of a call has its own piece of the list
that was found, and more pieces may follow. A parameter without a name keeps the one it has or takes
the one that its piece gives, if in front of it stand as many implicit parameters as the list is
taken to lack left operands. -/
theorem describeFunction_ownNames (first : m.FirstOn f (m.functionPages f) key edition text)
    (encloses : ∀ p ∈ f.callParameters, PrintedType.Encloses p.type)
    (names : ∀ type, ∀ name ∈ m.aliases.names type, PrintedType.Encloses name)
    (closes : Page.ClosesDefaults text.arguments) :
    ∃ d more, m.describeFunction f = .ok d ∧ d.found ∧
      (pieces text.arguments).length = f.callParameters.length + more ∧
      ∀ i p, f.parameters[i]? = some p → p.role = .regular →
        ∃ piece, (pieces text.arguments)[ahead .regular f.parameters i]? = some piece ∧
          Page.Documents m.aliases (edition = .current) p piece ∧
          (isAnonymous p.name → AlignedAt f.parameters more i →
            ∃ q, d.value.parameters[i]? = some q ∧
              (q.name = p.name ∨ nameIn? piece = some q.name)) := by
  obtain ⟨before, rest, taken⟩ := first.takes
  obtain ⟨own, others, cut, documented⟩ :=
    Page.pieces_of_parameters names closes encloses taken
  have count : (pieces text.arguments).length = f.callParameters.length + others.length := by
    rw [cut, List.length_append, documented.length_eq]
  refine ⟨_, others.length, describeFrom_of_first first, rfl, count, ?_⟩
  intro i p there regular
  have called := getElem?_ahead there regular
  obtain ⟨bound, eq⟩ := List.getElem?_eq_some_iff.mp called
  have inside : ahead .regular f.parameters i < own.length := documented.length_eq ▸ bound
  have piece : (pieces text.arguments)[ahead .regular f.parameters i]? =
      some own[ahead .regular f.parameters i] := by
    rw [cut, List.getElem?_append_left inside, List.getElem?_eq_getElem inside]
  refine ⟨_, piece, eq ▸ documented.get bound inside, ?_⟩
  intro anonymous aligned
  have regulars : f.callParameters.length = f.parameters.countP (·.role = .regular) :=
    List.countP_eq_length_filter.symm
  rw [regulars] at count
  refine ⟨_, (congrArg (·[i]?) (f.adopt_parameters edition text)).trans
    (getElem?_adoptNames there count piece aligned), ?_⟩
  rw [adopt, if_pos anonymous]
  cases given : nameIn? own[ahead .regular f.parameters i] with
  | none => exact .inl rfl
  | some name => exact .inr rfl

theorem describeFunction_ownNames_resize :
    let widget : Scope := ⟨"QWidget".toList, .classLike false, [], none⟩
    let f : Function := ⟨"resize".toList, "resize".toList, some widget, none,
      [⟨"self".toList, "QWidget*".toList, .implicit⟩, ⟨"_1".toList, "int".toList, .regular⟩,
        ⟨"_2".toList, "int".toList, .regular⟩], []⟩
    let key := "qwidget.html".toList
    let text : Page.FunctionText := ⟨"Resizes it.".toList, "int w, int h = height()".toList⟩
    let m : Manual := ⟨.ofList [(key,
      "\n\nvoid QWidget::resize(int w, int h = height())\nResizes it.\n\n\n\n".toList)], .empty, {}⟩
    m.FirstOn f (m.functionPages f) key .current text ∧
      (∀ p ∈ f.callParameters, PrintedType.Encloses p.type) ∧
      (∀ type, ∀ name ∈ m.aliases.names type, PrintedType.Encloses name) ∧
      Page.ClosesDefaults text.arguments ∧
      (isAnonymous "_1".toList ∧ isAnonymous "_2".toList ∧ AlignedAt f.parameters 0 1 ∧
        AlignedAt f.parameters 0 2) ∧
      ∃ d more, m.describeFunction f = .ok d ∧ d.found ∧
        (pieces text.arguments).length = f.callParameters.length + more ∧
        ∀ i p, f.parameters[i]? = some p → p.role = .regular →
          ∃ piece, (pieces text.arguments)[ahead .regular f.parameters i]? = some piece ∧
            Page.Documents m.aliases true p piece ∧
            (isAnonymous p.name → AlignedAt f.parameters more i →
              ∃ q, d.value.parameters[i]? = some q ∧
                (q.name = p.name ∨ nameIn? piece = some q.name)) := by
  intro widget f key text m
  have callParameters : f.callParameters =
      [⟨"_1".toList, "int".toList, .regular⟩, ⟨"_2".toList, "int".toList, .regular⟩] := rfl
  have pages : m.functionPages f =
      [(key, .current), ("qwidget-obsolete.html".toList, .retired)] := by
    decide
  have present : m.pages.find? key = some
      "\n\nvoid QWidget::resize(int w, int h = height())\nResizes it.\n\n\n\n".toList := by
    decide
  have found : m.findOn? f key .current = .ok (some text) := by
    simp only [findOn?, present]
    rw [Page.findFunction?_of_valid (by decide), Page.functionBlock, Page.declarator,
      callParameters, Page.parametersPattern, List.map_cons, List.map_singleton,
      Page.parameterPattern, Page.parameterPattern, PrintedType.pattern, PrintedType.read_int]
    exact congrArg Except.ok (by decide)
  have first : m.FirstOn f (m.functionPages f) key .current text :=
    ⟨[], [("qwidget-obsolete.html".toList, .retired)], pages, by simp, found⟩
  have encloses : ∀ p ∈ f.callParameters, PrintedType.Encloses p.type := by
    have int : PrintedType.Encloses "int".toList := by
      intro const raw reading
      rw [PrintedType.read_int] at reading
      cases reading
    rw [callParameters]
    simp only [List.forall_mem_cons]
    exact ⟨int, int, by simp⟩
  have names : ∀ type, ∀ name ∈ m.aliases.names type, PrintedType.Encloses name := by
    intro type name absent
    cases absent
  have closes : Page.ClosesDefaults text.arguments := by decide
  exact ⟨first, encloses, names, closes, by decide,
    describeFunction_ownNames first encloses names closes⟩

/-- The list gives the parameters of a call and one more, but a function with one implicit parameter
has as many parameters as the list has pieces. Its parameter `_1` takes the name of another. -/
theorem not_describeFunction_ownNames :
    let f : Function := ⟨"f".toList, "f".toList, none, none,
      [⟨"self".toList, "S*".toList, .implicit⟩, ⟨"_1".toList, "int".toList, .regular⟩], []⟩
    let key := "qtglobal.html".toList
    let text : Page.FunctionText := ⟨"Does it.".toList, "int a, int b = 0".toList⟩
    let m : Manual := ⟨.ofList [(key,
      "\n\nvoid f(int a, int b = 0)\nDoes it.\n\n\n\n".toList)], .empty, {}⟩
    m.FirstOn f (m.functionPages f) key .current text ∧
      f.callParameters.map (·.name) = ["_1".toList] ∧
      (pieces text.arguments).map nameIn? = [some "a".toList, some "b".toList] ∧
      ∃ d, m.describeFunction f = .ok d ∧ d.found ∧
        d.value.callParameters.map (·.name) = ["b".toList] := by
  intro f key text m
  have callParameters : f.callParameters = [⟨"_1".toList, "int".toList, .regular⟩] := rfl
  have pages : m.functionPages f =
      [(key, .current), ("qtglobal-obsolete.html".toList, .retired)] := by
    decide
  have present : m.pages.find? key =
      some "\n\nvoid f(int a, int b = 0)\nDoes it.\n\n\n\n".toList := by
    decide
  have found : m.findOn? f key .current = .ok (some text) := by
    simp only [findOn?, present]
    rw [Page.findFunction?_of_valid (by decide), Page.functionBlock, Page.declarator,
      callParameters, Page.parametersPattern, List.map_singleton, Page.parameterPattern,
      PrintedType.pattern, PrintedType.read_int]
    exact congrArg Except.ok (by decide)
  have first : m.FirstOn f (m.functionPages f) key .current text :=
    ⟨[], [("qtglobal-obsolete.html".toList, .retired)], pages, by simp, found⟩
  exact ⟨first, by decide, by decide, _, describeFrom_of_first first, rfl, by decide⟩

/-- An open bracket in a default value hides the commas behind it. -/
example :
    let list := "int a = 1<<2, int b, int c".toList
    let ps : List Parameter := ["_0", "_1", "_2"].map fun name =>
      ⟨name.toList, "int".toList, .regular⟩
    pieces list = [list] ∧
      (adoptNames ps list).map (·.name) = ["c".toList, "_1".toList, "_2".toList] := by
  decide

end Apidoc.Manual
