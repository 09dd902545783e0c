import Apidoc.Model
import Apidoc.Proofs.Manual.Enum
import Apidoc.Proofs.Manual.Property

/-!
Calls give the same model and the same answers in every order. What a call does to a model is told
by a step on models; steps commute, and no call changes what another one finds.
-/
namespace Apidoc

namespace Manual

def classDocumented (m : Manual) (c : ClassDecl) : ClassDecl := (m.describeClass c).value

def classFound (m : Manual) (c : ClassDecl) : Bool := (m.describeClass c).found

theorem classFound_classDocumented (m : Manual) (c : ClassDecl) :
    m.classFound (m.classDocumented c) = m.classFound c := by
  unfold classFound classDocumented
  cases page : m.pages.find? (m.page (some c.scope)) with
  | none => simp [describeClass, page, Described.unchanged]
  | some text =>
    cases found : (Page.classOverview m.layout c.scope.name).search? text <;>
      simp [describeClass, page, found, Described.unchanged]

end Manual

namespace Model

variable {m : Manual}

def touched (m : Manual) (model : Model) : Call → List Nat
  | .function i => [i]
  | .property i => ((model.properties[i]?).map m.accessors).getD []
  | .enum _ | .enumerator _ _ | .classDecl _ => []

def after (m : Manual) (model : Model) : Call → Model
  | .function i => { model with functions := m.documentAt model.functions [i] }
  | .property i =>
    { model with
      functions := m.documentAt model.functions (model.touched m (.property i))
      properties :=
        model.properties.modify i fun p => (m.propertyDocumented model.functions p).1 }
  | .enum i => { model with enums := model.enums.modify i m.enumDocumented }
  | .enumerator i j => { model with enums := model.enums.modify i (m.itemDocumentedAt j) }
  | .classDecl i => { model with classes := model.classes.modify i m.classDocumented }

def answer (m : Manual) (model : Model) : Call → Bool
  | .function i => ((model.functions[i]?).map m.documents).getD false
  | .property i =>
    ((model.properties[i]?).map fun p => (m.propertyDocumented model.functions p).2).getD false
  | .enum i => ((model.enums[i]?).map m.enumFound).getD false
  | .enumerator i j => ((model.enums[i]?).map (m.itemFound j)).getD false
  | .classDecl i => ((model.classes[i]?).map m.classFound).getD false

/-- Functions that have a remark have it from their pages. -/
def Settled (m : Manual) (model : Model) : Prop := ∀ f ∈ model.functions, m.Settled f

theorem functions_after (model : Model) (call : Call) :
    (model.after m call).functions = m.documentAt model.functions (model.touched m call) := by
  cases call <;> rfl

theorem Settled.after (valid : m.layout.IsValid) {model : Model} (settled : model.Settled m)
    (call : Call) : (model.after m call).Settled m := by
  unfold Settled
  rw [functions_after]
  exact Manual.settled_documentAt valid settled _

/-- A call gives the model and the answer told. -/
theorem perform_eq (valid : m.layout.IsValid) {model : Model} (settled : model.Settled m)
    (call : Call) : ∃ events,
    model.perform m call = .ok ⟨model.after m call, model.answer m call, events⟩ := by
  cases call with
  | function i =>
    have functions : m.documentAt model.functions [i] = model.functions.modify i m.documented := rfl
    simp only [perform, after, answer, functions]
    cases there : model.functions[i]? with
    | none => exact ⟨[], by simp [modify_of_getElem?_eq_none there, Described.unchanged]⟩
    | some f =>
      obtain ⟨events, described⟩ := Manual.describeFunction_eq valid f
      exact ⟨events, by simp [described, Except.map, set_eq_modify_of_getElem? there]⟩
  | property i =>
    simp only [perform, after, answer, touched]
    cases there : model.properties[i]? with
    | none =>
      exact ⟨[], by simp [modify_of_getElem?_eq_none there, Described.unchanged,
        Manual.documentAt]⟩
    | some p =>
      obtain ⟨events, described⟩ := Manual.describeProperty_eq valid settled p
      exact ⟨events, by simp [described, Except.map, ← set_eq_modify_of_getElem? there]⟩
  | enum i =>
    simp only [perform, after, answer]
    cases there : model.enums[i]? with
    | none => exact ⟨[], by simp [modify_of_getElem?_eq_none there, Described.unchanged]⟩
    | some e =>
      obtain ⟨events, described⟩ := m.describeEnum_eq e
      exact ⟨events, by simp [described, set_eq_modify_of_getElem? there, Manual.enumFound]⟩
  | enumerator i j =>
    simp only [perform, after, answer]
    cases there : model.enums[i]? with
    | none => exact ⟨[], by simp [modify_of_getElem?_eq_none there, Described.unchanged]⟩
    | some e =>
      cases item : e.items[j]? with
      | none =>
        have unchanged : m.itemDocumentedAt j e = e := by
          rw [Manual.itemDocumentedAt, modify_of_getElem?_eq_none item]
        have same : model.enums.set i e = model.enums := by
          obtain ⟨bound, eq⟩ := List.getElem?_eq_some_iff.mp there
          rw [← eq]
          exact List.set_getElem_self bound
        exact ⟨[], by simp [← set_eq_modify_of_getElem? there, unchanged, same, item,
          Manual.itemFound, Described.unchanged]⟩
      | some item' =>
        exact ⟨[], by simp [← set_eq_modify_of_getElem? there, ← set_eq_modify_of_getElem? item,
          Manual.itemDocumentedAt, Manual.itemFound, Manual.describeItem_eq, item]⟩
  | classDecl i =>
    simp only [perform, after, answer]
    cases there : model.classes[i]? with
    | none => exact ⟨[], by simp [modify_of_getElem?_eq_none there, Described.unchanged]⟩
    | some c =>
      exact ⟨(m.describeClass c).events, by simp [← set_eq_modify_of_getElem? there,
        Manual.classDocumented, Manual.classFound]⟩

theorem getElem?_properties_after (model : Model) {a : Call} {j : Nat} (other : a ≠ .property j) :
    (model.after m a).properties[j]? = model.properties[j]? := by
  cases a with
  | property i =>
    have apart : i ≠ j := fun same => other (congrArg Call.property same)
    simp [after, apart]
  | _ => rfl

theorem touched_after (model : Model) {a b : Call} (other : a ≠ b) :
    (model.after m a).touched m b = model.touched m b := by
  cases b with
  | property j => simp only [touched, getElem?_properties_after model other]
  | _ => rfl

/-- Looking up a function does not interfere with a property that takes its description. -/
theorem after_function_property (valid : m.layout.IsValid) (model : Model) (i j : Nat) :
    (model.after m (.function i)).after m (.property j) =
      (model.after m (.property j)).after m (.function i) := by
  simp only [after, touched, Manual.propertyDocumented_documentAt valid]
  rw [Manual.documentAt_comm]

theorem after_property_property (valid : m.layout.IsValid) (model : Model) (i j : Nat) :
    (model.after m (.property i)).after m (.property j) =
      (model.after m (.property j)).after m (.property i) := by
  let change (p : Property) : Property := (m.propertyDocumented model.functions p).1
  have both {i j : Nat} (apart : i ≠ j) :
      (model.after m (.property i)).after m (.property j) =
        { model with
          functions := m.documentAt (m.documentAt model.functions (model.touched m (.property i)))
            (model.touched m (.property j))
          properties := (model.properties.modify i change).modify j change } := by
    have places := touched_after (m := m) model (mt Call.property.inj apart)
    rw [← places]
    simp only [after, Manual.propertyDocumented_documentAt valid, change]
  by_cases same : i = j
  · rw [same]
  · rw [both same, both (Ne.symm same), Manual.documentAt_comm, List.modify_modify_ne _ _ _ same]

theorem after_enum_enumerator (model : Model) (i j k : Nat) :
    (model.after m (.enum i)).after m (.enumerator j k) =
      (model.after m (.enumerator j k)).after m (.enum i) :=
  congrArg (fun enums => { model with enums := enums })
    (modify_comm (fun e => Manual.enumDocumented_itemDocumentedAt k e) i j model.enums)

theorem after_comm (valid : m.layout.IsValid) (model : Model) (a b : Call) :
    (model.after m a).after m b = (model.after m b).after m a := by
  cases a with
  | function i =>
    cases b with
    | function j =>
      exact congrArg (fun functions => { model with functions := functions })
        (Manual.documentAt_comm model.functions [i] [j])
    | property j => exact after_function_property valid model i j
    | _ => rfl
  | property i =>
    cases b with
    | function j => exact (after_function_property valid model j i).symm
    | property j => exact after_property_property valid model i j
    | _ => rfl
  | enum i =>
    cases b with
    | enum j =>
      exact congrArg (fun enums => { model with enums := enums })
        (modify_comm (fun _ => rfl) i j model.enums)
    | enumerator j k => exact after_enum_enumerator model i j k
    | _ => rfl
  | enumerator i k =>
    cases b with
    | enum j => exact (after_enum_enumerator model j i k).symm
    | enumerator j l =>
      exact congrArg (fun enums => { model with enums := enums })
        (modify_comm (fun e => Manual.itemDocumentedAt_comm k l e) i j model.enums)
    | _ => rfl
  | classDecl i =>
    cases b with
    | classDecl j =>
      exact congrArg (fun classes => { model with classes := classes })
        (modify_comm (fun _ => rfl) i j model.classes)
    | _ => rfl

theorem answer_after (valid : m.layout.IsValid) (model : Model) {a b : Call}
    (other : ∀ i, b = .property i → a ≠ b) :
    (model.after m a).answer m b = model.answer m b := by
  cases b with
  | function i =>
    simp only [answer, functions_after,
      Manual.map_getElem?_documentAt (Manual.documents_documented valid)]
  | property i =>
    simp only [answer, getElem?_properties_after model (other i rfl), functions_after,
      Manual.propertyDocumented_documentAt valid]
  | enum i =>
    cases a with
    | enum j =>
      exact congrArg (·.getD false)
        (map_getElem?_modify Manual.enumFound_enumDocumented j i model.enums)
    | enumerator j k =>
      exact congrArg (·.getD false)
        (map_getElem?_modify (Manual.enumFound_itemDocumentedAt k) j i model.enums)
    | _ => rfl
  | enumerator i k =>
    cases a with
    | enum j =>
      exact congrArg (·.getD false)
        (map_getElem?_modify (Manual.itemFound_enumDocumented k) j i model.enums)
    | enumerator j l =>
      exact congrArg (·.getD false)
        (map_getElem?_modify (Manual.itemFound_itemDocumentedAt k l) j i model.enums)
    | _ => rfl
  | classDecl i =>
    cases a with
    | classDecl j =>
      exact congrArg (·.getD false)
        (map_getElem?_modify m.classFound_classDocumented j i model.classes)
    | _ => rfl

/-- No property is looked up twice. -/
def Once (calls : List Call) : Prop := ∀ i, calls.count (.property i) ≤ 1

theorem Once.tail {call : Call} {calls : List Call} (once : Once (call :: calls)) : Once calls :=
  fun i => (List.count_le_count_cons).trans (once i)

theorem Once.ne {call b : Call} {calls : List Call} (once : Once (call :: calls))
    (later : b ∈ calls) (i : Nat) (property : b = .property i) : call ≠ b := by
  rintro rfl
  have twice : (call :: calls).count (.property i) = calls.count (.property i) + 1 := by
    rw [property, List.count_cons_self]
  have there : 0 < calls.count (.property i) := List.count_pos_iff.mpr (property ▸ later)
  have bound := once i
  omega

/-- Each call of a run finds what it finds in the model that the run starts from. -/
theorem performAll_eq (valid : m.layout.IsValid) {model : Model} (settled : model.Settled m)
    {calls : List Call} (once : Once calls) :
    model.performAll m calls =
      .ok (calls.foldl (Model.after m) model, calls.map (model.answer m)) := by
  induction calls generalizing model with
  | nil => rfl
  | cons call calls ih =>
    obtain ⟨events, performed⟩ := perform_eq valid settled call
    have answers : calls.map ((model.after m call).answer m) = calls.map (model.answer m) :=
      List.map_congr_left fun b later => answer_after valid model (once.ne later)
    simp only [performAll, performed, ih (settled.after valid call) once.tail, answers, Except.map,
      List.foldl_cons, List.map_cons]

/-- A run in another order ends in the same model and gives each call the same answer. -/
theorem performAll_perm (valid : m.layout.IsValid) {model : Model}
    (bare : ∀ f ∈ model.functions, f.remark = none) {calls calls' : List Call}
    (perm : calls.Perm calls') (once : ∀ i, calls.count (.property i) ≤ 1) :
    ∃ final, ∃ answer : Call → Bool,
      model.performAll m calls = .ok (final, calls.map answer) ∧
      model.performAll m calls' = .ok (final, calls'.map answer) := by
  have settled : model.Settled m := fun f member => .inl (bare f member)
  have once' : Once calls' := fun i => by
    rw [← perm.count_eq]
    exact once i
  have same : calls.foldl (Model.after m) model = calls'.foldl (Model.after m) model :=
    perm.foldl_eq' (fun a _ b _ model => after_comm valid model a b) model
  refine ⟨calls.foldl (Model.after m) model, model.answer m, performAll_eq valid settled once, ?_⟩
  rw [same]
  exact performAll_eq valid settled once'

theorem performAll_perm_oldReset :
    let object : Scope := ⟨"QObject".toList, .classLike false, [], none⟩
    let f : Function := ⟨"oldReset".toList, "oldReset".toList, some object, none,
      [⟨"_0".toList, "int".toList, .regular⟩], []⟩
    let p : Property := ⟨"reset".toList, some object, none, "int".toList, none, some 0, none⟩
    let e : Enum := ⟨"Mode".toList, some object, none, [⟨"Fast".toList, none⟩]⟩
    let model : Model := ⟨[f], [p], [e], [⟨object, none⟩]⟩
    let m : Manual := ⟨.ofList [
      ("qobject-obsolete.html".toList,
        "\n\nvoid QObject::oldReset(int value)\nUse reset() instead.\n\n\n\n".toList),
      ("qobject.html".toList,
        "enum QObject::Mode\nConstantValueDescription\nQObject::Fast\t0\tQuick.\n\n".toList)],
      .empty, {}⟩
    let calls : List Call :=
      [.property 0, .function 0, .enum 0, .enumerator 0 0, .function 0, .classDecl 0]
    m.layout.IsValid ∧ (∀ f ∈ model.functions, f.remark = none) ∧ calls.Perm calls.reverse ∧
      (∀ i, calls.count (.property i) ≤ 1) ∧
      ∃ final, ∃ answer : Call → Bool,
        model.performAll m calls = .ok (final, calls.map answer) ∧
        model.performAll m calls.reverse = .ok (final, calls.reverse.map answer) := by
  intro object f p e model m calls
  have valid : m.layout.IsValid := by decide
  have bare : ∀ f ∈ model.functions, f.remark = none := List.forall_mem_singleton.mpr rfl
  have perm : calls.Perm calls.reverse := calls.reverse_perm.symm
  have once (i : Nat) : calls.count (.property i) ≤ 1 := by
    cases i with
    | zero => decide
    | succ i => simp [calls]
  exact ⟨valid, bare, perm, once, performAll_perm valid bare perm once⟩

end Model

end Apidoc
