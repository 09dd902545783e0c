import Apidoc.Manual.Function
import Apidoc.Proofs.ArgumentList.Adoption
import Apidoc.Proofs.PrintedType.Alias

/-!
Looking a function up. It takes the description of the first of its pages that has it, its patterns
depend only on how it is declared, and looking it up again changes nothing.
-/
namespace Apidoc

namespace Page

theorem parametersPattern_congr (table : PrintedType.AliasTable) (complete : Bool)
    {ps qs : List Parameter} (types : ps.map (·.type) = qs.map (·.type)) :
    parametersPattern table complete ps = parametersPattern table complete qs := by
  have each (ps : List Parameter) : ps.map (parameterPattern table complete) =
      (ps.map (·.type)).map fun type =>
        .seq (PrintedType.pattern type table complete) nameAndDefault := by
    rw [List.map_map]
    rfl
  cases ps with
  | nil =>
    cases qs with
    | nil => rfl
    | cons q qs => cases types
  | cons p ps =>
    cases qs with
    | nil => cases types
    | cons q qs => rw [parametersPattern, parametersPattern, each, each, types]

theorem findFunction?_of_valid {layout : Layout} (valid : layout.IsValid)
    (table : PrintedType.AliasTable) (complete : Bool) (f : Function) (page : Text) :
    findFunction? layout table complete f page =
      .ok (((functionBlock layout table complete f).search? page).map fun m =>
        ⟨m.get .docs, m.get .arguments⟩) := by
  rw [findFunction?, functionSearch, if_pos valid]
  rfl

end Page

namespace Function

structure DeclaredAlike (f g : Function) : Prop where
  documentedName : f.documentedName = g.documentedName
  scope : f.scope = g.scope
  types : f.callParameters.map (·.type) = g.callParameters.map (·.type)

theorem DeclaredAlike.findFunction?_eq {f g : Function} (alike : f.DeclaredAlike g)
    (layout : Layout) (table : PrintedType.AliasTable) (complete : Bool) (page : Text) :
    Page.findFunction? layout table complete f page =
      Page.findFunction? layout table complete g page := by
  have parameters := Page.parametersPattern_congr table complete alike.types
  have block : Page.functionBlock layout table complete f =
      Page.functionBlock layout table complete g := by
    rw [Page.functionBlock, Page.functionBlock, Page.declarator, Page.declarator, parameters,
      alike.documentedName, alike.scope]
  rw [Page.findFunction?, Page.findFunction?, Page.functionSearch, Page.functionSearch, block]

@[simp] theorem retire_parameters (f : Function) : f.retire.parameters = f.parameters := rfl

theorem retire_notices (f : Function) : ∃ hint,
    f.retire.notices = f.notices.filter (!·.marksObsolete) ++ [⟨obsoleteKind, hint⟩] := ⟨_, rfl⟩

theorem marksObsolete_obsoleteKind (hint : Option Text) :
    Notice.marksObsolete ⟨obsoleteKind, hint⟩ = true := beq_self_eq_true obsoleteKind

theorem retire_others (f : Function) :
    f.retire.notices.filter (!·.marksObsolete) = f.notices.filter (!·.marksObsolete) := by
  obtain ⟨hint, notices⟩ := f.retire_notices
  rw [notices, List.filter_append, List.filter_filter]
  simp [marksObsolete_obsoleteKind]

theorem retire_countP (f : Function) : f.retire.notices.countP Notice.marksObsolete = 1 := by
  obtain ⟨hint, notices⟩ := f.retire_notices
  have none : (f.notices.filter (!·.marksObsolete)).countP Notice.marksObsolete = 0 := by
    apply List.countP_eq_zero.mpr
    intro notice member
    simpa using (List.mem_filter.mp member).2
  rw [notices, List.countP_append, none, List.countP_singleton, marksObsolete_obsoleteKind]
  rfl

theorem retire_retire (f : Function) : f.retire.retire = f.retire := by
  let notice : Notice := ⟨obsoleteKind, replacementHint? ((f.remark.map (·.brief)).getD [])⟩
  have again : f.retire.retire =
      { f with notices := f.retire.notices.filter (!·.marksObsolete) ++ [notice] } := rfl
  rw [again, retire_others]
  rfl

theorem adopt_declaredAlike (f : Function) (edition : Edition) (text : Page.FunctionText) :
    (f.adopt edition text).DeclaredAlike f := by
  have types : ((ArgumentList.adoptNames f.parameters text.arguments).filter
      (·.role = .regular)).map (·.type) = f.callParameters.map (·.type) :=
    ArgumentList.types_adoptEach .regular f.parameters _
  cases edition with
  | current => exact ⟨rfl, rfl, types⟩
  | retired => exact ⟨rfl, rfl, types⟩

@[simp] theorem adopt_parameters (f : Function) (edition : Edition) (text : Page.FunctionText) :
    (f.adopt edition text).parameters = ArgumentList.adoptNames f.parameters text.arguments := by
  cases edition <;> rfl

theorem adopt_others (f : Function) (edition : Edition) (text : Page.FunctionText) :
    (f.adopt edition text).notices.filter (!·.marksObsolete) =
      f.notices.filter (!·.marksObsolete) := by
  cases edition with
  | current => rfl
  | retired => exact retire_others _

theorem adopt_adopt (f : Function) (edition : Edition) (text : Page.FunctionText) :
    (f.adopt edition text).adopt edition text = f.adopt edition text := by
  have names := ArgumentList.adoptNames_adoptNames f.parameters text.arguments
  cases edition with
  | current => simp only [adopt, names]
  | retired =>
    let documented : Function :=
      { f with
        remark := some ⟨text.docs, none⟩
        parameters := ArgumentList.adoptNames f.parameters text.arguments }
    have again : (f.adopt .retired text).adopt .retired text = documented.retire.retire := by
      simp only [adopt, retire_parameters, names]
      rfl
    rw [again, retire_retire]
    rfl

end Function

namespace Manual

variable {m : Manual} {f g : Function} {pages : List (Text × Edition)} {key : Text}
  {edition : Edition} {text : Page.FunctionText}

/-- The page is the first of some pages that has the function. -/
def FirstOn (m : Manual) (f : Function) (pages : List (Text × Edition)) (key : Text)
    (edition : Edition) (text : Page.FunctionText) : Prop :=
  ∃ before behind, pages = before ++ (key, edition) :: behind ∧
    (∀ page ∈ before, m.findOn? f page.1 page.2 = .ok none) ∧
    m.findOn? f key edition = .ok (some text)

theorem findOn?_congr (alike : f.DeclaredAlike g) (key : Text) (edition : Edition) :
    m.findOn? f key edition = m.findOn? g key edition := by
  unfold findOn?
  cases m.pages.find? key with
  | none => rfl
  | some text => exact alike.findFunction?_eq m.layout m.aliases _ text

theorem functionPages_congr (alike : f.DeclaredAlike g) : m.functionPages f = m.functionPages g := by
  rw [functionPages, functionPages, alike.scope]

theorem FirstOn.congr (first : m.FirstOn f pages key edition text) (alike : g.DeclaredAlike f) :
    m.FirstOn g pages key edition text := by
  obtain ⟨before, behind, parts, none, found⟩ := first
  refine ⟨before, behind, parts, ?_, (findOn?_congr alike key edition).trans found⟩
  intro page member
  rw [findOn?_congr alike, none page member]

theorem exists_findOn? (valid : m.layout.IsValid) (f : Function) (key : Text) (edition : Edition) :
    ∃ found, m.findOn? f key edition = .ok found := by
  unfold findOn?
  cases m.pages.find? key with
  | none => exact ⟨none, rfl⟩
  | some text => exact ⟨_, Page.findFunction?_of_valid valid m.aliases _ f text⟩

theorem describeFrom_of_first (first : m.FirstOn f pages key edition text) :
    m.describeFrom f pages =
      .ok ⟨f.adopt edition text, true, [.functionDocumented f.documentedName key]⟩ := by
  obtain ⟨before, behind, rfl, none, found⟩ := first
  induction before with
  | nil => simp [describeFrom, found]
  | cons page before ih =>
    obtain ⟨here, others⟩ := List.forall_mem_cons.mp none
    rw [List.cons_append, describeFrom, here]
    exact ih others

/-- A function is on no page and stays as it is, or takes the description of the first page that
has it. -/
theorem describeFrom_cases (valid : m.layout.IsValid) (f : Function)
    (pages : List (Text × Edition)) :
    m.describeFrom f pages = .ok (.unchanged f) ∨
      ∃ key edition text, m.FirstOn f pages key edition text := by
  induction pages with
  | nil => exact .inl rfl
  | cons page pages ih =>
    obtain ⟨key, edition⟩ := page
    obtain ⟨found, eq⟩ := exists_findOn? valid f key edition
    cases found with
    | some text => exact .inr ⟨key, edition, text, [], pages, rfl, by simp, eq⟩
    | none =>
      rcases ih with nowhere | ⟨key', edition', text, before, behind, parts, none, found⟩
      · left
        rw [describeFrom, eq]
        exact nowhere
      · exact .inr ⟨key', edition', text, (key, edition) :: before, behind, by rw [parts]; rfl,
          List.forall_mem_cons.mpr ⟨eq, none⟩, found⟩

/-- Looking a function up takes on a description and settles it, or changes nothing. -/
theorem describeFunction_repeats (valid : m.layout.IsValid) (f : Function) :
    ∃ d, m.describeFunction f = .ok d ∧ m.describeFunction d.value = .ok d ∧
      (d.value = f ∨ ∃ key edition text, m.FirstOn f (m.functionPages f) key edition text ∧
        d.value = f.adopt edition text) := by
  rcases describeFrom_cases valid f (m.functionPages f) with nowhere | ⟨key, edition, text, first⟩
  · exact ⟨.unchanged f, nowhere, nowhere, .inl rfl⟩
  · have found := describeFrom_of_first first
    have alike := f.adopt_declaredAlike edition text
    have again := describeFrom_of_first (first.congr alike)
    rw [f.adopt_adopt, alike.documentedName, ← functionPages_congr alike] at again
    exact ⟨_, found, again, .inr ⟨key, edition, text, first, rfl⟩⟩

/-- Looking a function up a second time gives the same answer and the same function, whatever it was
like before. A function found among the retired ones has one obsolete marker, and its other markers
are as before. -/
theorem describeFunction_again (valid : m.layout.IsValid) (f : Function) :
    ∃ d, m.describeFunction f = .ok d ∧ m.describeFunction d.value = .ok d ∧
      d.value.notices.filter (!·.marksObsolete) = f.notices.filter (!·.marksObsolete) ∧
      ∀ key text, m.FirstOn f (m.functionPages f) key .retired text →
        d.value.notices.countP Notice.marksObsolete = 1 := by
  obtain ⟨d, found, again, changed⟩ := describeFunction_repeats valid f
  refine ⟨d, found, again, ?_, ?_⟩
  · rcases changed with same | ⟨key, edition, text, first, adopted⟩
    · rw [same]
    · rw [adopted]
      exact f.adopt_others edition text
  · intro key text retired
    have adopted := found.symm.trans (describeFrom_of_first retired)
    rw [Except.ok.inj adopted]
    exact Function.retire_countP _

theorem describeFunction_again_oldReset :
    let object : Scope := ⟨"QObject".toList, .classLike false, [], none⟩
    let f : Function := ⟨"oldReset".toList, "oldReset".toList, some object, none,
      [⟨"_0".toList, "int".toList, .regular⟩],
      [⟨obsoleteKind, none⟩, ⟨"Reviewed".toList, none⟩]⟩
    let key := "qobject-obsolete.html".toList
    let text : Page.FunctionText := ⟨"Use reset() instead.".toList, "int _1".toList⟩
    let m : Manual := ⟨.ofList [(key,
      "\n\nvoid QObject::oldReset(int _1)\nUse reset() instead.\n\n\n\n".toList)], .empty, {}⟩
    m.layout.IsValid ∧ m.FirstOn f (m.functionPages f) key .retired text ∧
      ∃ d, m.describeFunction f = .ok d ∧ m.describeFunction d.value = .ok d ∧
        d.value.notices.filter (!·.marksObsolete) = f.notices.filter (!·.marksObsolete) ∧
        ∀ key text, m.FirstOn f (m.functionPages f) key .retired text →
          d.value.notices.countP Notice.marksObsolete = 1 := by
  intro object f key text m
  have valid : m.layout.IsValid := by decide
  have callParameters : f.callParameters = [⟨"_0".toList, "int".toList, .regular⟩] := rfl
  have pages : m.functionPages f = [("qobject.html".toList, .current), (key, .retired)] := by
    decide +kernel
  have absent : m.findOn? f "qobject.html".toList .current = .ok none := by
    have missing : m.pages.find? "qobject.html".toList = none := by decide +kernel
    rw [findOn?, missing]
  have found : m.findOn? f key .retired = .ok (some text) := by
    have present : m.pages.find? key =
        some "\n\nvoid QObject::oldReset(int _1)\nUse reset() instead.\n\n\n\n".toList := by
      decide +kernel
    simp only [findOn?, present]
    rw [Page.findFunction?_of_valid valid, Page.functionBlock, Page.declarator, callParameters,
      Page.parametersPattern, List.map_singleton, Page.parameterPattern, PrintedType.pattern,
      PrintedType.read_int]
    exact congrArg Except.ok (by decide +kernel)
  refine ⟨valid, ⟨[("qobject.html".toList, .current)], [], pages, ?_, found⟩,
    describeFunction_again valid f⟩
  rw [List.forall_mem_singleton]
  exact absent

end Manual

end Apidoc
