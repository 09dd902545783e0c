import Apidoc.Proofs.Collection.Sources

/-!
Loading is all or nothing: the pages of a module are all those of its archive, or all those of its
folder, or none. Two faults are not reported: numbers with too many digits, and a root whose path is
over the limits.
-/
namespace Apidoc

namespace Archive

def isPageRow (row : NameRow) : Bool := row.name.any isPageName

/-- Two archives have the same pages: the same rows under names of pages, with the same payloads.
Other rows need not be the same, and neither need other payloads. -/
structure SamePages (names names' : List NameRow) (payloads payloads' : List PayloadRow) : Prop where
  listed : names.filter isPageRow = names'.filter isPageRow
  stored : ∀ row ∈ names.filter isPageRow, ∀ file, row.file = some file →
    payloads.filter (·.id = some file) = payloads'.filter (·.id = some file)

theorem joined_of_other {payloads : List PayloadRow} {row : NameRow}
    (other : isPageRow row = false) : joined payloads row = [] := by
  obtain ⟨name, file⟩ := row
  unfold joined
  split
  · rename_i named _
    cases named
    exact if_neg (ne_true_of_eq_false other)
  · rfl

theorem flatMap_joined (names : List NameRow) (payloads : List PayloadRow) :
    names.flatMap (joined payloads) = (names.filter isPageRow).flatMap (joined payloads) := by
  induction names with
  | nil => rfl
  | cons row names ih =>
    rw [List.flatMap_cons, ih]
    cases named : isPageRow row with
    | true => rw [List.filter_cons_of_pos named, List.flatMap_cons]
    | false => rw [List.filter_cons_of_neg (ne_true_of_eq_false named), joined_of_other named]; rfl

theorem SamePages.flatMap_joined {names names' : List NameRow} {payloads payloads' : List PayloadRow}
    (same : SamePages names names' payloads payloads') :
    names.flatMap (joined payloads) = names'.flatMap (joined payloads') := by
  rw [Archive.flatMap_joined names, Archive.flatMap_joined names', ← same.listed]
  apply List.flatMap_congr
  intro row member
  unfold joined
  split
  · rename_i file _ stored
    rw [same.stored row member file stored]
  · rfl

theorem readAll_ne_nil {found : List (Text × Bytes)} (nonempty : found ≠ []) :
    (readAll found).2 ≠ .ok [] := by
  obtain ⟨entry, found, rfl⟩ := List.exists_cons_of_ne_nil nonempty
  rw [readAll]
  cases readPage entry.2 with
  | error e => simp
  | ok text =>
    obtain ⟨events, pages⟩ := readAll found
    cases pages <;> simp [Except.map]

end Archive

namespace Collection

def errors (events : List Event) : List Event := events.filter fun e => e.level = .error

def HasFolder (c : Collection) : Prop := ∃ entries, c.root = .ok (some (.folder entries))

/-- Whether a path and its steps are within the limits. -/
structure IsShort (c : Collection) : Prop where
  path : Location.isLongerThan Location.pathLimit c.path = false
  steps : ∀ step ∈ c.origin, Location.isLongerThan Location.nameLimit step = false

/-- What a load may come to. -/
inductive Outcome (c : Collection) (module : Text) : PageTable → List Event → Prop
  | noRoot (absent : ¬ c.HasFolder) : Outcome c module .empty [.rootMissing c.path]
  | archive {pages : List (Text × Text)} {events : List Event} (root : c.HasFolder)
      (given : c.ArchiveGives module (.ok pages)) (nonempty : pages ≠ []) (clean : errors events = [])
      (alone : ∀ path, .readingPages path ∉ events) : Outcome c module (.ofList pages) events
  | folder {pages : List (Text × Text)} {events : List Event} (root : c.HasFolder)
      (noPages : c.ArchiveGives module (.ok [])) (given : c.FolderGives module (.ok pages))
      (clean : errors events = []) : Outcome c module (.ofList pages) events
  | archiveFault {e : LoadError} {events : List Event} (root : c.HasFolder)
      (given : c.ArchiveGives module (.error e))
      (reported : errors events = [.loadingFailed e.message])
      (alone : ∀ path, .readingPages path ∉ events) : Outcome c module .empty events
  | folderFault {e : LoadError} {events : List Event} (root : c.HasFolder)
      (noPages : c.ArchiveGives module (.ok [])) (given : c.FolderGives module (.error e))
      (reported : errors events = [.loadingFailed e.message]) : Outcome c module .empty events

variable {c : Collection} {module : Text}

/-! No fault of a source is a number, unless a page has one that is too long. -/

theorem isReported_of_walk {path : Text} {around : List Node} {node : Node} {location : Location}
    {e : LoadError} (failed : Location.walk path around node location = .error e) :
    e.isReported := by
  fun_induction Location.walk path around node location with
  | case1 | case2 | case6 => cases failed
  | case5 => cases failed; rfl
  | case3 _ _ ih | case4 _ _ _ _ ih | case7 _ _ _ _ _ _ _ _ ih => exact ih failed

theorem isReported_of_find {location : Location} {e : LoadError}
    (failed : c.find location = .error e) : e.isReported := by
  simp only [find] at failed
  split at failed
  · cases failed
  · split at failed
    · cases failed
      rfl
    · exact isReported_of_walk failed

theorem isReported_of_tables {content : Content} {e : LoadError}
    (failed : Archive.tables content = .error e) : e.isReported := by
  unfold Archive.tables at failed
  split at failed
  · split at failed <;> cases failed <;> rfl
  all_goals cases failed <;> rfl

theorem isReported_of_unpack {payload : Bytes} {e : LoadError}
    (failed : Archive.unpack payload = .error e) : e.isReported := by
  unfold Archive.unpack at failed
  split at failed
  · cases failed
    rfl
  · split at failed
    · cases failed
      rfl
    · cases decoded : Text.Utf8.decode _ with
      | error fault => rw [decoded] at failed; cases failed; rfl
      | ok markup => rw [decoded] at failed; cases failed

theorem isReported_of_archiveGives {e : LoadError} (given : c.ArchiveGives module (.error e)) :
    e.isReported := by
  cases given with
  | unreachable failed => exact isReported_of_find failed
  | unreadable _ failed => exact isReported_of_tables failed
  | read _ _ _ _ reads =>
    cases reads with
    | @fault _ _ _ entry _ _ failed =>
      rw [Archive.strip] at failed
      cases unpacked : Archive.unpack entry.2 with
      | ok markup => rw [unpacked] at failed; cases failed
      | error fault =>
        rw [unpacked] at failed
        cases failed
        exact isReported_of_unpack unpacked

theorem isReported_of_folderGives {e : LoadError} (given : c.FolderGives module (.error e)) :
    e.isReported := by
  cases given with
  | unreachable failed => exact isReported_of_find failed
  | read _ _ _ reads =>
    cases reads with
    | fault _ failed =>
      unfold PageFolder.strip at failed
      split at failed
      · cases failed
        rfl
      · split at failed
        · cases failed
          rfl
        · cases failed

/-! The events of a load. -/

theorem errors_fromArchive : errors (c.fromArchive module).1 = [] := by
  rw [errors, List.filter_eq_nil_iff]
  intro e member
  simpa using (fromArchive_events e member).1

theorem errors_fromFolder : errors (c.fromFolder module).1 = [] := by
  rw [errors, List.filter_eq_nil_iff]
  intro e member
  simpa using fromFolder_events e member

theorem errors_append (events more : List Event) :
    errors (events ++ more) = errors events ++ errors more := List.filter_append ..

/-- A load is one of its outcomes: with all pages of one source, or without any. -/
theorem load_outcome (fit : c.NumbersFit module) {node : Option Node} (reached : c.root = .ok node) :
    ∃ table events, c.load module = .ok (table, events) ∧ c.Outcome module table events := by
  rw [load, reached]
  match node with
  | none => exact ⟨_, _, rfl, .noRoot (by simp [HasFolder, reached])⟩
  | some (.file content) => exact ⟨_, _, rfl, .noRoot (by simp [HasFolder, reached])⟩
  | some (.folder entries) =>
    have present : c.HasFolder := ⟨entries, reached⟩
    have archive := archiveGives_fromArchive fit
    have folder := folderGives_fromFolder fit
    have clean : errors (c.fromArchive module).1 = [] := errors_fromArchive
    have alone (path : Text) : .readingPages path ∉ (c.fromArchive module).1 := fun member =>
      (fromArchive_events _ member).2 path rfl
    have quiet {events : List Event} {last : Event} (unread : ∀ path, .readingPages path ∉ events)
        (other : ∀ path, last ≠ .readingPages path) (path : Text) :
        .readingPages path ∉ events ++ [last] := by
      simpa using ⟨unread path, (other path).symm⟩
    simp only [pages]
    -- from here on, only what the archive gives and reports matters
    generalize c.fromArchive module = loaded at archive clean alone folder
    obtain ⟨events, given⟩ := loaded
    match given with
    | .error e =>
      have reported := isReported_of_archiveGives archive
      refine ⟨.empty, events ++ [.loadingFailed e.message], if_pos reported, ?_⟩
      exact .archiveFault present archive (by rw [errors_append, clean]; rfl) (quiet alone nofun)
    | .ok (page :: pages) =>
      refine ⟨_, _, rfl, .archive present archive (List.cons_ne_nil page pages) ?_ (quiet alone nofun)⟩
      rw [errors_append, clean]
      rfl
    | .ok [] =>
      have folder := folder rfl
      have cleanFolder : errors (c.fromFolder module).1 = [] := errors_fromFolder
      simp only
      generalize c.fromFolder module = loaded at folder cleanFolder
      obtain ⟨more, given⟩ := loaded
      match given with
      | .error e =>
        have reported := isReported_of_folderGives folder
        refine ⟨.empty, events ++ more ++ [.loadingFailed e.message], if_pos reported, ?_⟩
        refine .folderFault present archive folder ?_
        rw [errors_append, errors_append, clean, cleanFolder]
        rfl
      | .ok pages =>
        refine ⟨_, _, rfl, .folder present archive folder ?_⟩
        rw [errors_append, errors_append, clean, cleanFolder]
        rfl

/-! What has no effect. -/

theorem pages_of_fromArchive_ne (nonempty : (c.fromArchive module).2 ≠ .ok []) :
    c.pages module = c.fromArchive module := by
  rw [pages]
  split
  · rename_i loaded
    rw [loaded] at nonempty
    exact absurd rfl nonempty
  · rfl

theorem fromArchive_of_tables {names : List NameRow} {payloads : List PayloadRow}
    (present : c.find (archiveLocation module) =
      .ok (some (.file (.tables (some names) (some payloads))))) :
    c.fromArchive module =
      let read := Archive.readAll ((names.flatMap (Archive.joined payloads)).mergeSort
        fun a b => Archive.nameLe a.1 b.1)
      (.readingArchive (Location.below c.path (archiveLocation module)) :: read.1, read.2) := by
  simp only [fromArchive, present]
  rfl

/-- Two collections at the same path, whose archives of a module have the same pages, and at least
one. What stands in their folders need not be the same. -/
structure SameArchive (c other : Collection) (module : Text) : Prop where
  place : other.path = c.path
  root : c.HasFolder
  otherRoot : other.HasFolder
  archives : ∃ names names' payloads payloads',
    c.find (archiveLocation module) =
      .ok (some (.file (.tables (some names) (some payloads)))) ∧
    other.find (archiveLocation module) =
      .ok (some (.file (.tables (some names') (some payloads')))) ∧
    Archive.SamePages names names' payloads payloads' ∧
    names.flatMap (Archive.joined payloads) ≠ []

theorem load_of_sameArchive {other : Collection} (same : c.SameArchive other module) :
    other.load module = c.load module := by
  obtain ⟨names, names', payloads, payloads', present, otherPresent, pages, nonempty⟩ := same.archives
  have read : (c.fromArchive module).2 ≠ .ok [] := by
    rw [fromArchive_of_tables present]
    apply Archive.readAll_ne_nil
    intro empty
    have sorted := List.mergeSort_perm (names.flatMap (Archive.joined payloads))
      fun a b => Archive.nameLe a.1 b.1
    rw [empty] at sorted
    exact nonempty sorted.symm.eq_nil
  have loaded : other.fromArchive module = c.fromArchive module := by
    rw [fromArchive_of_tables present, fromArchive_of_tables otherPresent, pages.flatMap_joined,
      same.place]
  obtain ⟨entries, root⟩ := same.root
  obtain ⟨others, otherRoot⟩ := same.otherRoot
  rw [load, load, root, otherRoot, pages_of_fromArchive_ne read,
    pages_of_fromArchive_ne (loaded ▸ read), loaded]

/-! Roots that cannot be looked up. -/

theorem walk_of_short {path : Text} {around : List Node} {node : Node} {location : Location}
    (short : ∀ step ∈ location, Location.isLongerThan Location.nameLimit step = false) {e : LoadError} :
    Location.walk path around node location ≠ .error e := by
  fun_induction Location.walk path around node location with
  | case1 | case2 | case6 => simp
  | case3 _ _ ih | case4 _ _ _ _ ih => exact ih fun step member => short step (.tail _ member)
  | case5 _ _ step _ _ long =>
    rw [short step (.head _)] at long
    cases long
  | case7 _ _ _ _ _ _ _ _ ih => exact ih fun step member => short step (.tail _ member)

theorem not_isShort {e : LoadError} (failed : c.root = .error e) : ¬ c.IsShort := by
  intro short
  rw [root, find, List.append_nil] at failed
  split at failed
  · cases failed
  · rw [show c.pathTo [] = c.path from rfl, short.path] at failed
    exact walk_of_short short.steps failed

theorem load_of_unreached {e : LoadError} (failed : c.root = .error e) : c.load module = .error e := by
  rw [load, failed]

/-- Loading is all or nothing: where the root can be looked up, it gives all pages of one source, or
none and the fault. What else is in an archive with pages, or in the folder beside it, has no
effect. -/
theorem load_allOrNothing (fit : c.NumbersFit module) :
    (∀ node, c.root = .ok node →
      ∃ table events, c.load module = .ok (table, events) ∧ c.Outcome module table events) ∧
    (∀ e, c.root = .error e → c.load module = .error e ∧ ¬ c.IsShort) ∧
      ∀ other, c.SameArchive other module → other.load module = c.load module :=
  ⟨fun _ reached => load_outcome fit reached,
    fun _ failed => ⟨load_of_unreached failed, not_isShort failed⟩,
    fun _ same => load_of_sameArchive same⟩

/-! Collections in a folder `doc`. -/

def atDoc (entries : List (Text × Node)) : Collection where
  path := "doc".toList
  tree := .folder [("doc".toList, .folder entries)]

section

variable {entries : List (Text × Node)} {node : Option Node}

theorem root_atDoc : (atDoc entries).root = .ok (some (.folder entries)) := by
  have step : Location.isLongerThan Location.nameLimit "doc".toList = false := by decide +kernel
  have path : Location.isLongerThan Location.pathLimit "doc".toList = false := by decide +kernel
  have origin : (atDoc entries).origin ++ [] = ["doc".toList] := rfl
  have place : (atDoc entries).pathTo [] = "doc".toList := rfl
  have tree : (atDoc entries).tree = .folder [("doc".toList, .folder entries)] := rfl
  simp only [root, find, origin, place, path, tree, Location.walk, step]
  rfl

theorem find_coreArchive (found : entries.lookup "qtcore.qch".toList = node) :
    (atDoc entries).find (archiveLocation "Core".toList) = .ok node := by
  have location : archiveLocation "Core".toList = ["qtcore.qch".toList] := by decide +kernel
  have path : (atDoc entries).pathTo ["qtcore.qch".toList] = "doc/qtcore.qch".toList := rfl
  rw [location]
  exact find_entry root_atDoc found path (by decide) (by decide +kernel) (by decide)
    (by decide +kernel)

theorem find_coreFolder (found : entries.lookup "qtcore".toList = node) :
    (atDoc entries).find (folderLocation "Core".toList) = .ok node := by
  have location : folderLocation "Core".toList = ["qtcore".toList] := by decide +kernel
  have path : (atDoc entries).pathTo ["qtcore".toList] = "doc/qtcore".toList := rfl
  rw [location]
  exact find_entry root_atDoc found path (by decide) (by decide +kernel) (by decide)
    (by decide +kernel)

end

def ofArchive (names : List NameRow) (payloads : List PayloadRow) : Collection :=
  atDoc [("qtcore.qch".toList, .file (.tables (some names) (some payloads)))]

def ofFolder (entries : List (Text × Node)) : Collection :=
  atDoc [("qtcore".toList, .folder entries)]

def pageRow : NameRow := ⟨some "a.html".toList, some 1⟩

def pagePayload : PayloadRow := ⟨some 1, Archive.storedPayload "A".toList⟩

def brokenBeside : Collection :=
  atDoc [("qtcore".toList, .folder [("a.html".toList, .file (.bytes [0xFF]))]),
    ("qtcore.qch".toList, .file (.tables (some [⟨some "a.png".toList, some 2⟩, pageRow])
      (some [pagePayload, ⟨some 2, []⟩])))]

def farRoot : Collection where
  path := List.replicate 300 'x'
  tree := .folder []

theorem numbersFit_onePage : (ofArchive [pageRow] [pagePayload]).NumbersFit "Core".toList where
  archive := by
    intro content names payloads found tables entry member markup unpacked
    cases (find_coreArchive rfl).symm.trans found
    cases tables
    have joined : [pageRow].flatMap (Archive.joined [pagePayload]) =
        [("a.html".toList, Archive.storedPayload "A".toList)] := by decide +kernel
    have read : Archive.unpack (Archive.storedPayload "A".toList) = .ok "A".toList := by
      decide +kernel
    rw [joined] at member
    rw [List.mem_singleton.mp member, read] at unpacked
    cases unpacked
    exact Entity.overlong?_eq_none_iff.mp (by decide)
  folder := by
    intro _ entries found
    cases (find_coreFolder rfl).symm.trans found

theorem sameArchive_brokenBeside :
    (ofArchive [pageRow] [pagePayload]).SameArchive brokenBeside "Core".toList where
  place := rfl
  root := ⟨_, root_atDoc⟩
  otherRoot := ⟨_, root_atDoc⟩
  archives := ⟨_, _, _, _, find_coreArchive rfl, find_coreArchive rfl,
    ⟨by decide +kernel, by decide +kernel⟩, by decide +kernel⟩

theorem find_farRoot {location : Location} (plain : (farRoot.pathTo location).contains '\x00' = false) :
    farRoot.find location = .error (.nameTooLong (farRoot.pathTo location)) := by
  have origin : farRoot.origin = [List.replicate 300 'x'] := by decide +kernel
  have step : List.replicate 300 'x' ≠ Location.up := by decide +kernel
  have long : Location.isLongerThan Location.nameLimit (List.replicate 300 'x') = true := by
    decide +kernel
  have tree : farRoot.tree = .folder [] := rfl
  simp only [find, plain, origin, List.cons_append, tree, Location.walk, if_neg step, long,
    Bool.false_eq_true, if_true, if_false, ite_self]

theorem root_farRoot : farRoot.root = .error (.nameTooLong farRoot.path) :=
  find_farRoot (by decide +kernel)

theorem numbersFit_farRoot : farRoot.NumbersFit "Core".toList := by
  have archive : farRoot.find (archiveLocation "Core".toList) = .error _ :=
    find_farRoot (by decide +kernel)
  constructor
  · intro content names payloads found
    cases archive.symm.trans found
  · intro none
    simp only [fromArchive, archive] at none
    cases none

theorem load_allOrNothing_onePage :
    let c := ofArchive [pageRow] [pagePayload]
    c.NumbersFit "Core".toList ∧ c.SameArchive brokenBeside "Core".toList ∧ c.HasFolder ∧
      (∃ table events, c.load "Core".toList = .ok (table, events) ∧
        c.Outcome "Core".toList table events) ∧
      brokenBeside.load "Core".toList = c.load "Core".toList ∧
      farRoot.NumbersFit "Core".toList ∧ farRoot.root = .error (.nameTooLong farRoot.path) ∧
      farRoot.load "Core".toList = .error (.nameTooLong farRoot.path) ∧ ¬ farRoot.IsShort :=
  have given := load_allOrNothing numbersFit_onePage
  have far := (load_allOrNothing numbersFit_farRoot).2.1 _ root_farRoot
  ⟨numbersFit_onePage, sameArchive_brokenBeside, sameArchive_brokenBeside.root,
    given.1 _ root_atDoc, given.2.2 _ sameArchive_brokenBeside, numbersFit_farRoot, root_farRoot,
    far.1, far.2⟩

/-! Numbers with too many digits are not reported. -/

theorem load_of_number {e : Entity.NumberError} (root : c.HasFolder)
    (stopped : (c.pages module).2 = .error (.number e)) : c.load module = .error (.number e) := by
  obtain ⟨entries, root⟩ := root
  simp only [load, root]
  generalize c.pages module = loaded at stopped
  obtain ⟨events, given⟩ := loaded
  cases stopped
  rfl

def pageFile (markup : Text) : Text × Node :=
  ("a.html".toList, .file (.bytes (Text.Utf8.encode markup)))

theorem fromFolder_pageFile {s : Text} (unix : '\r' ∉ s) (plain : '\\' ∉ s) :
    ((ofFolder [pageFile s]).fromFolder "Core".toList).2 =
      ((Page.readMarkup s).mapError .number).map fun text => [("a.html".toList, text)] := by
  have found : (ofFolder [pageFile s]).find (folderLocation "Core".toList) =
      .ok (some (.folder [pageFile s])) := find_coreFolder rfl
  have listed : PageFolder.pageEntries [pageFile s] = [pageFile s] := by
    rw [PageFolder.pageEntries, List.filter_cons_of_pos rfl, List.filter_nil,
      List.mergeSort_singleton]
  have read (path : Text) : PageFolder.readEntry path (pageFile s) =
      ((Page.readMarkup s).mapError .number).map fun text => ("a.html".toList, text) :=
    congrArg (Except.map _) (PageFolder.readPage_of_lineEnds unix plain (.inl rfl))
  simp only [fromFolder, found, PageFolder.pages, listed, List.mapM_cons, List.mapM_nil, read]
  cases Page.readMarkup s <;> rfl

theorem load_pageFile {s : Text} {e : Entity.NumberError} (unix : '\r' ∉ s) (plain : '\\' ∉ s)
    (long : Page.readMarkup s = .error e) :
    (ofFolder [pageFile s]).load "Core".toList = .error (.number e) := by
  have absent : (ofFolder [pageFile s]).find (archiveLocation "Core".toList) = .ok none :=
    find_coreArchive rfl
  have noArchive : (ofFolder [pageFile s]).fromArchive "Core".toList = ([], .ok []) := by
    simp only [fromArchive, absent]
  have read := fromFolder_pageFile unix plain
  rw [long] at read
  have root : (ofFolder [pageFile s]).HasFolder := ⟨_, root_atDoc⟩
  apply load_of_number root
  rw [pages, noArchive]
  exact read

def longNumber : Text := List.replicate 4299 '0' ++ "65".toList

def longPage : Text := "&#".toList ++ (longNumber ++ [';'])

theorem mem_longNumber {a : Char} (member : a ∈ longNumber) : a ∈ "065".toList := by
  rcases List.mem_append.mp member with zero | last
  · rw [List.eq_of_mem_replicate zero]
    decide
  · exact List.mem_cons_of_mem '0' last

theorem length_longNumber : longNumber.length = 4301 := by
  rw [longNumber, List.length_append, List.length_replicate]
  rfl

theorem not_mem_longPage {a : Char} (outside : a ∉ "&#;065".toList) : a ∉ longPage := by
  intro member
  apply outside
  rcases List.mem_append.mp member with mark | member
  · exact List.mem_append_left ";065".toList mark
  · rcases List.mem_append.mp member with digit | last
    · exact List.mem_append_right "&#;".toList (mem_longNumber digit)
    · rw [List.mem_singleton.mp last]
      decide

theorem readMarkup_longPage : Page.readMarkup longPage = .error ⟨4301⟩ := by
  have digits : ∀ a ∈ "065".toList, a.isDigit := by decide
  have read := Page.readMarkup_number (fun a member => digits a (mem_longNumber member))
    (by rw [length_longNumber]; decide)
  rw [length_longNumber] at read
  exact read

/-- The load fails instead of giving an empty table, at a page with such a number and at a root that
cannot be looked up. -/
theorem load_fails :
    (ofFolder [pageFile longPage]).load "Core".toList = .error (.number ⟨4301⟩) ∧
      farRoot.load "Core".toList = .error (.nameTooLong farRoot.path) :=
  ⟨load_pageFile (not_mem_longPage (by decide)) (not_mem_longPage (by decide)) readMarkup_longPage,
    load_of_unreached root_farRoot⟩

end Collection

end Apidoc
