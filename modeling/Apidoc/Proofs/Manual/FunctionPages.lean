import Apidoc.Proofs.Manual.Function
import Apidoc.Proofs.Text.Occurrence

namespace Apidoc

namespace Layout

/-- The pages of all functions of a header, told by the name of its file. Only the functions of a
header have such pages. -/
inductive HeaderKeys (layout : Layout) : Option Scope → List Text → Prop
  | math {scope : Scope} {file : Text} (header : scope.kind = .header file)
      (math : layout.mathStem <:+: file) : HeaderKeys layout (some scope) layout.mathKeys
  | algorithm {scope : Scope} {file : Text} (header : scope.kind = .header file)
      (noMath : ¬ layout.mathStem <:+: file) (algorithm : layout.algorithmStem <:+: file) :
      HeaderKeys layout (some scope) layout.algorithmKeys
  | other {scope : Scope} {file : Text} (header : scope.kind = .header file)
      (noMath : ¬ layout.mathStem <:+: file) (noAlgorithm : ¬ layout.algorithmStem <:+: file) :
      HeaderKeys layout (some scope) []
  | noHeader {scope : Scope} (noHeader : ∀ file, scope.kind ≠ .header file) :
      HeaderKeys layout (some scope) []
  | global : HeaderKeys layout none []

theorem headerKeys_spec (layout : Layout) (scope : Option Scope) :
    layout.HeaderKeys scope (layout.headerKeys scope) := by
  rcases scope with _ | ⟨name, kind, macros, enclosing⟩
  · exact .global
  cases kind with
  | header file =>
    show layout.HeaderKeys _ (if _ then _ else if _ then _ else [])
    split_ifs with math algorithm
    · exact .math rfl (Text.occursIn_iff.mp math)
    · exact .algorithm rfl (mt Text.occursIn_iff.mpr math) (Text.occursIn_iff.mp algorithm)
    · exact .other rfl (mt Text.occursIn_iff.mpr math) (mt Text.occursIn_iff.mpr algorithm)
  | _ => exact .noHeader nofun

theorem HeaderKeys.eq {layout : Layout} {scope : Option Scope} {keys : List Text}
    (keyed : layout.HeaderKeys scope keys) : keys = layout.headerKeys scope := by
  cases keyed with
  | math header math => simp [headerKeys, header, Text.occursIn_iff.mpr math]
  | algorithm header noMath algorithm =>
    simp [headerKeys, header, mt Text.occursIn_iff.mp noMath, Text.occursIn_iff.mpr algorithm]
  | other header noMath noAlgorithm =>
    simp [headerKeys, header, mt Text.occursIn_iff.mp noMath, mt Text.occursIn_iff.mp noAlgorithm]
  | @noHeader s noHeader =>
    cases kind : s.kind with
    | header file => exact absurd kind (noHeader file)
    | _ => simp [headerKeys, kind]
  | global => rfl

end Layout

namespace Function

theorem adopt_eq (f : Function) (edition : Edition) (text : Page.FunctionText) :
    f.adopt edition text =
      { f with
        remark := some ⟨text.docs, none⟩
        parameters := ArgumentList.adoptNames f.parameters text.arguments
        notices := if edition = .retired then
            f.notices.filter (!·.marksObsolete) ++ [⟨obsoleteKind, replacementHint? text.docs⟩]
          else f.notices } := by
  cases edition <;> rfl

end Function

namespace Manual

variable {m : Manual} {f : Function} {page : Text × Edition} {text : Page.FunctionText}

/-- The page is in the manual and has a block of the function. Decorations of parameters count on
all pages but those of retired members. -/
def Shows (m : Manual) (f : Function) (page : Text × Edition) (text : Page.FunctionText) : Prop :=
  ∃ content, m.pages.find? page.1 = some content ∧
    Page.findFunction? m.layout m.aliases (page.2 = .current) f content = .ok (some text)

theorem shows_iff : m.Shows f page text ↔ m.findOn? f page.1 page.2 = .ok (some text) := by
  unfold Shows findOn?
  cases m.pages.find? page.1 <;> simp

theorem not_shows_iff (valid : m.layout.IsValid) :
    (∀ text, ¬ m.Shows f page text) ↔ m.findOn? f page.1 page.2 = .ok none := by
  obtain ⟨found, eq⟩ := exists_findOn? valid f page.1 page.2
  simp only [shows_iff, eq]
  cases found <;> simp

theorem firstOn_of_shows (valid : m.layout.IsValid) {before behind : List (Text × Edition)}
    (hidden : ∀ p ∈ before, ∀ text, ¬ m.Shows f p text) (shown : m.Shows f page text) :
    m.FirstOn f (before ++ page :: behind) page.1 page.2 text :=
  ⟨before, behind, rfl, fun p member => (not_shows_iff valid).mp (hidden p member),
    shows_iff.mp shown⟩

theorem Shows.congr {other : Manual} (layout : other.layout = m.layout)
    (aliases : other.aliases = m.aliases)
    (lookup : other.pages.find? page.1 = m.pages.find? page.1) :
    other.Shows f page text ↔ m.Shows f page text := by
  rw [Shows, Shows, layout, aliases, lookup]

theorem exists_first_shows {pages : List (Text × Edition)}
    (seen : ∃ page ∈ pages, ∃ text, m.Shows f page text) :
    ∃ before page behind text, pages = before ++ page :: behind ∧
      (∀ p ∈ before, ∀ text, ¬ m.Shows f p text) ∧ m.Shows f page text := by
  induction pages with
  | nil =>
    obtain ⟨page, member, -⟩ := seen
    cases member
  | cons page pages ih =>
    by_cases here : ∃ text, m.Shows f page text
    · obtain ⟨text, shown⟩ := here
      exact ⟨[], page, pages, text, rfl, by simp, shown⟩
    · have hidden : ∀ text, ¬ m.Shows f page text := fun text shown => here ⟨text, shown⟩
      obtain ⟨p, member, text, shown⟩ := seen
      have later : p ∈ pages := by
        rcases List.mem_cons.mp member with rfl | later
        · exact absurd shown (hidden text)
        · exact later
      obtain ⟨before, first, behind, text, rfl, none, shown⟩ := ih ⟨p, later, text, shown⟩
      exact ⟨page :: before, first, behind, text, rfl, List.forall_mem_cons.mpr ⟨hidden, none⟩,
        shown⟩

theorem describeFrom_of_hidden (valid : m.layout.IsValid) {pages : List (Text × Edition)}
    (hidden : ¬ ∃ page ∈ pages, ∃ text, m.Shows f page text) :
    m.describeFrom f pages = .ok (.unchanged f) := by
  rcases describeFrom_cases valid f pages with nowhere | ⟨key, edition, text, parts⟩
  · exact nowhere
  · obtain ⟨before, behind, rfl, -, found⟩ := parts
    exact absurd ⟨(key, edition), by simp, text, shows_iff.mpr found⟩ hidden

theorem functionPages_congr_layout {other : Manual} (layout : other.layout = m.layout) :
    other.functionPages f = m.functionPages f := by
  rw [functionPages, functionPages, Manual.page, Manual.page, layout]

/-- A function is found where some page of its chain shows it: the page of its scope, those of its
header, or that of retired members. The first such page gives the comment and the names of
parameters, no page behind it or outside of the chain matters, and markers are rewritten only if it
is the page of retired members. A function that is not found stays as it is. -/
theorem describeFunction_chain (valid : m.layout.IsValid) (f : Function) :
    ∃ keys d, m.layout.HeaderKeys f.scope keys ∧ m.describeFunction f = .ok d ∧
      let key := m.page f.scope
      let chain := (key, .current) :: keys.map (·, .current) ++ [(m.layout.retiredKey key, .retired)]
      (d.found = true ↔ ∃ page ∈ chain, ∃ text, m.Shows f page text) ∧
      (d.found = false → d.value = f) ∧
      ∀ before page behind text, chain = before ++ page :: behind →
        (∀ p ∈ before, ∀ text, ¬ m.Shows f p text) → m.Shows f page text →
        d.value =
          { f with
            remark := some ⟨text.docs, none⟩
            parameters := ArgumentList.adoptNames f.parameters text.arguments
            notices := if page.2 = .retired then
                f.notices.filter (!·.marksObsolete) ++ [⟨obsoleteKind, replacementHint? text.docs⟩]
              else f.notices } ∧
        ∀ other : Manual, other.layout = m.layout → other.aliases = m.aliases →
          (∀ p ∈ before ++ [page], other.pages.find? p.1 = m.pages.find? p.1) →
          other.describeFunction f = .ok d := by
  -- the first page that shows the function decides in every manual with the same pages up to it
  have decided {before behind : List (Text × Edition)} {page text}
      (parts : m.functionPages f = before ++ page :: behind)
      (hidden : ∀ p ∈ before, ∀ text, ¬ m.Shows f p text) (shown : m.Shows f page text)
      {other : Manual} (layout : other.layout = m.layout) (aliases : other.aliases = m.aliases)
      (same : ∀ p ∈ before ++ [page], other.pages.find? p.1 = m.pages.find? p.1) :
      other.describeFunction f =
        .ok ⟨f.adopt page.2 text, true, [.functionDocumented f.documentedName page.1]⟩ := by
    have validOther : other.layout.IsValid := layout ▸ valid
    rw [describeFunction, functionPages_congr_layout layout, parts]
    refine describeFrom_of_first (firstOn_of_shows validOther ?_ ?_)
    · intro p member text
      rw [Shows.congr layout aliases (same p (List.mem_append_left _ member))]
      exact hidden p member text
    · exact (Shows.congr layout aliases (same page (by simp))).mpr shown
  by_cases seen : ∃ page ∈ m.functionPages f, ∃ text, m.Shows f page text
  · obtain ⟨before, page, behind, text, parts, hidden, shown⟩ := exists_first_shows seen
    have found := decided parts hidden shown rfl rfl fun _ _ => rfl
    refine ⟨_, _, m.layout.headerKeys_spec f.scope, found, iff_of_true rfl seen, nofun, ?_⟩
    intro before page behind text parts hidden shown
    have same := found.symm.trans (decided parts hidden shown rfl rfl fun _ _ => rfl)
    refine ⟨?_, fun other layout aliases lookups => ?_⟩
    · rw [Except.ok.inj same]
      exact f.adopt_eq page.2 text
    · rw [decided parts hidden shown layout aliases lookups, ← same]
  · have nowhere := describeFrom_of_hidden valid seen
    refine ⟨_, _, m.layout.headerKeys_spec f.scope, nowhere, iff_of_false nofun seen,
      fun _ => rfl, ?_⟩
    intro before page behind text parts _ shown
    have member : page ∈ m.functionPages f := by
      rw [show m.functionPages f = before ++ page :: behind from parts]
      simp
    exact absurd ⟨page, member, text, shown⟩ seen

theorem describeFunction_chain_half :
    let unit : Scope := ⟨[], .header "qmath.h".toList, [], none⟩
    let f : Function := ⟨"qHalf".toList, "qHalf".toList, some unit, none,
      [⟨"_0".toList, "int".toList, .regular⟩], [⟨obsoleteKind, none⟩]⟩
    let text : Page.FunctionText := ⟨"Halves v.".toList, "int v".toList⟩
    let m : Manual := ⟨.ofList [
      ("qtglobal.html".toList, "\n\nint qHalfway(int u)\nOther.\n\n\n\n".toList),
      ("qtcore-qmath-h.html".toList, "\n\nint qHalf(int v)\nHalves v.\n\n\n\n".toList),
      ("qtglobal-obsolete.html".toList, "\n\nint qHalf(int w)\nOld.\n\n\n\n".toList)], .empty, {}⟩
    m.layout.IsValid ∧ m.Shows f ("qtcore-qmath-h.html".toList, .current) text ∧
      m.Shows f ("qtglobal-obsolete.html".toList, .retired) ⟨"Old.".toList, "int w".toList⟩ ∧
      ∃ d, m.describeFunction f = .ok d ∧ d.found = true ∧
        d.value.remark = some ⟨text.docs, none⟩ ∧ d.value.notices = f.notices ∧
        d.value.parameters = [⟨"v".toList, "int".toList, .regular⟩] := by
  intro unit f text m
  have valid : m.layout.IsValid := by decide
  have callParameters : f.callParameters = [⟨"_0".toList, "int".toList, .regular⟩] := rfl
  have search (complete : Bool) (page : Text) :
      Page.findFunction? m.layout m.aliases complete f page =
        .ok (((Page.functionBlock m.layout m.aliases complete f).search? page).map fun found =>
          ⟨found.get .docs, found.get .arguments⟩) :=
    Page.findFunction?_of_valid valid m.aliases complete f page
  simp only [Page.functionBlock, Page.declarator, callParameters, Page.parametersPattern,
    List.map_singleton, Page.parameterPattern, PrintedType.pattern, PrintedType.read_int] at search
  have shown : m.Shows f ("qtcore-qmath-h.html".toList, .current) text :=
    ⟨_, rfl, (search _ _).trans (congrArg Except.ok (by decide +kernel))⟩
  have retired : m.Shows f ("qtglobal-obsolete.html".toList, .retired)
      ⟨"Old.".toList, "int w".toList⟩ :=
    ⟨_, rfl, (search _ _).trans (congrArg Except.ok (by decide +kernel))⟩
  have other : m.findOn? f "qtglobal.html".toList .current = .ok none :=
    (search _ _).trans (congrArg Except.ok (by decide +kernel))
  have missing : m.findOn? f "qtmath.html".toList .current = .ok none := rfl
  let before : List (Text × Edition) :=
    [("qtglobal.html".toList, .current), ("qtmath.html".toList, .current)]
  let page : Text × Edition := ("qtcore-qmath-h.html".toList, .current)
  let behind : List (Text × Edition) := [("qtglobal-obsolete.html".toList, .retired)]
  have hidden : ∀ p ∈ before, ∀ text, ¬ m.Shows f p text := by
    simp only [not_shows_iff valid]
    exact List.forall_mem_cons.mpr ⟨other, List.forall_mem_singleton.mpr missing⟩
  obtain ⟨keys, d, keyed, eq, found, -, first⟩ := describeFunction_chain valid f
  obtain rfl : keys = m.layout.mathKeys := keyed.eq.trans (by decide +kernel)
  have chain : (m.page f.scope, Edition.current) :: m.layout.mathKeys.map (·, .current) ++
      [(m.layout.retiredKey (m.page f.scope), .retired)] = before ++ page :: behind := by
    decide +kernel
  obtain ⟨adopted, -⟩ := first before page behind text chain hidden shown
  refine ⟨valid, shown, retired, d, eq, found.mpr ⟨page, ?_, text, shown⟩, ?_⟩
  · rw [chain]
    simp
  rw [adopted]
  exact ⟨rfl, rfl, by decide +kernel⟩

end Manual

end Apidoc
