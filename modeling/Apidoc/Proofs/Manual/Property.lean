import Apidoc.Manual.Property
import Apidoc.Proofs.Manual.Function
import Apidoc.Proofs.Model.Places

namespace Apidoc.Manual

variable {m : Manual}

def documented (m : Manual) (f : Function) : Function :=
  match m.describeFunction f with
  | .ok d => d.value
  | .error _ => f

def documents (m : Manual) (f : Function) : Bool :=
  match m.describeFunction f with
  | .ok d => d.found
  | .error _ => false

theorem describeFunction_eq (valid : m.layout.IsValid) (f : Function) : ∃ events,
    m.describeFunction f = .ok ⟨m.documented f, m.documents f, events⟩ := by
  obtain ⟨d, found, -, -⟩ := describeFunction_repeats valid f
  exact ⟨d.events, by simp only [documented, documents, found]⟩

theorem documented_documented (valid : m.layout.IsValid) (f : Function) :
    m.documented (m.documented f) = m.documented f := by
  obtain ⟨d, found, again, -⟩ := describeFunction_repeats valid f
  simp only [documented, found, again]

theorem documents_documented (valid : m.layout.IsValid) (f : Function) :
    m.documents (m.documented f) = m.documents f := by
  obtain ⟨d, found, again, -⟩ := describeFunction_repeats valid f
  simp only [documented, documents, found, again]

/-- A function that has a remark has it from its pages. -/
def Settled (m : Manual) (f : Function) : Prop := f.remark = none ∨ m.documented f = f

theorem settled_documented (valid : m.layout.IsValid) (f : Function) :
    m.Settled (m.documented f) := .inr (documented_documented valid f)

def documentAt (m : Manual) (functions : List Function) (places : List Nat) : List Function :=
  places.foldl (fun functions i => functions.modify i m.documented) functions

def briefAt (m : Manual) (functions : List Function) (place : Option Nat) : Text :=
  ((place.bind (functions[·]?)).map fun f => (m.documented f).brief).getD []

theorem documentAt_append (functions : List Function) (places others : List Nat) :
    m.documentAt functions (places ++ others) =
      m.documentAt (m.documentAt functions places) others := List.foldl_append

theorem documentAt_comm (functions : List Function) (places others : List Nat) :
    m.documentAt (m.documentAt functions places) others =
      m.documentAt (m.documentAt functions others) places := by
  have swap : ∀ i ∈ places ++ others, ∀ j ∈ places ++ others, ∀ functions : List Function,
      (functions.modify i m.documented).modify j m.documented =
        (functions.modify j m.documented).modify i m.documented :=
    fun i _ j _ => modify_comm (fun _ => rfl) i j
  rw [← documentAt_append, ← documentAt_append]
  exact List.perm_append_comm.foldl_eq' swap functions

theorem map_getElem?_documentAt {α : Type} {read : Function → α}
    (keeps : ∀ f, read (m.documented f) = read f) (functions : List Function) (places : List Nat)
    (i : Nat) : ((m.documentAt functions places)[i]?).map read = functions[i]?.map read := by
  induction places generalizing functions with
  | nil => rfl
  | cons j places ih =>
    rw [documentAt, List.foldl_cons]
    exact (ih _).trans (map_getElem?_modify keeps j i functions)

theorem briefAt_documentAt (valid : m.layout.IsValid) (functions : List Function)
    (places : List Nat) (place : Option Nat) :
    m.briefAt (m.documentAt functions places) place = m.briefAt functions place := by
  cases place with
  | none => rfl
  | some i =>
    let read (f : Function) : Text := (m.documented f).brief
    have keeps (f : Function) : read (m.documented f) = read f :=
      congrArg Function.brief (documented_documented valid f)
    exact congrArg (·.getD []) (map_getElem?_documentAt keeps functions places i)

theorem settled_documentAt (valid : m.layout.IsValid) {functions : List Function}
    (settled : ∀ f ∈ functions, m.Settled f) (places : List Nat) :
    ∀ f ∈ m.documentAt functions places, m.Settled f := by
  induction places generalizing functions with
  | nil => exact settled
  | cons i places ih =>
    exact ih (forall_mem_modify settled (fun f _ => settled_documented valid f) i)

def borrows (m : Manual) (p : Property) : Bool :=
  (p.macroName? m.layout).isNone && p.storage.isNone

def accessors (m : Manual) (p : Property) : List Nat :=
  if m.borrows p then p.getter.toList ++ p.setter.toList else []

def propertyDocumented (m : Manual) (functions : List Function) (p : Property) :
    Property × Bool :=
  match p.macroName? m.layout with
  | some name =>
    let d := m.describeDeclared { p with name := name }
    (d.value, d.found)
  | none =>
    let brief := joinBriefs (m.briefAt functions p.getter) (m.briefAt functions p.setter)
    if p.storage.isSome || brief.isEmpty then (p, false)
    else ({ p with remark := some ⟨brief, none⟩ }, true)

theorem propertyDocumented_documentAt (valid : m.layout.IsValid) (functions : List Function)
    (places : List Nat) (p : Property) :
    m.propertyDocumented (m.documentAt functions places) p = m.propertyDocumented functions p := by
  simp only [propertyDocumented, briefAt_documentAt valid]

theorem describeAccessor_eq (valid : m.layout.IsValid) {functions : List Function}
    (settled : ∀ f ∈ functions, m.Settled f) (place : Option Nat) : ∃ events,
    m.describeAccessor functions place =
      .ok (m.documentAt functions place.toList, m.briefAt functions place, events) := by
  cases place with
  | none => exact ⟨[], rfl⟩
  | some i =>
    have here : m.documentAt functions [i] = functions.modify i m.documented := rfl
    rw [describeAccessor, Option.toList_some, here]
    cases there : functions[i]? with
    | none => exact ⟨[], by simp [modify_of_getElem?_eq_none there, briefAt, there]⟩
    | some f =>
      have brief : m.briefAt functions (some i) = (m.documented f).brief := by
        simp [briefAt, there]
      rw [brief, ← set_eq_modify_of_getElem? there]
      cases remark : f.remark with
      | none =>
        obtain ⟨events, described⟩ := describeFunction_eq valid f
        exact ⟨events, by simp [remark, described, Except.map]⟩
      | some r =>
        -- a function with a remark is what looking it up gives, so setting it changes nothing
        have same : m.documented f = f := by
          rcases settled f (List.mem_of_getElem? there) with bare | same
          · rw [bare] at remark
            cases remark
          · exact same
        obtain ⟨bound, eq⟩ := List.getElem?_eq_some_iff.mp there
        have unchanged : functions.set i f = functions := by
          rw [← eq]
          exact List.set_getElem_self bound
        exact ⟨[], by simp [remark, same, unchanged]⟩

theorem describeProperty_eq (valid : m.layout.IsValid) {functions : List Function}
    (settled : ∀ f ∈ functions, m.Settled f) (p : Property) : ∃ events,
    m.describeProperty functions p = .ok (m.documentAt functions (m.accessors p),
      ⟨(m.propertyDocumented functions p).1, (m.propertyDocumented functions p).2, events⟩) := by
  cases macroName : p.macroName? m.layout with
  | some name =>
    refine ⟨(m.describeDeclared { p with name := name }).events, ?_⟩
    simp only [describeProperty, propertyDocumented, accessors, borrows, macroName]
    rfl
  | none =>
    cases storage : p.storage with
    | some field =>
      exact ⟨[], by simp [describeProperty, propertyDocumented, accessors, borrows, macroName,
        storage, documentAt, Described.unchanged]⟩
    | none =>
      have places : m.accessors p = p.getter.toList ++ p.setter.toList := by
        simp [accessors, borrows, macroName, storage]
      obtain ⟨first, getter⟩ := describeAccessor_eq valid settled p.getter
      obtain ⟨second, setter⟩ :=
        describeAccessor_eq valid (settled_documentAt valid settled p.getter.toList) p.setter
      rw [briefAt_documentAt valid] at setter
      refine ⟨first ++ second, ?_⟩
      simp only [describeProperty, propertyDocumented, macroName, storage, getter, setter, places,
        documentAt_append, Option.isSome_none, Bool.false_eq_true, if_false, Bool.false_or]
      split <;> rfl

end Apidoc.Manual
