import Apidoc.Collection.Load
import Apidoc.Proofs.Collection.Payload
import Apidoc.Proofs.Entity.LongNumber
import Apidoc.Proofs.Text.Lines
import Apidoc.Proofs.Text.Replacement
import Mathlib.Data.List.Forall2

namespace Apidoc

/-- What reading entries one after the other comes to: all of them, or the first fault. -/
inductive ReadsAll {α β : Type} (read : α → Except LoadError β) :
    List α → Except LoadError (List β) → Prop
  | all {found : List α} {pages : List β}
      (each : List.Forall₂ (fun entry page => read entry = .ok page) found pages) :
      ReadsAll read found (.ok pages)
  | fault {before after : List α} {pages : List β} {entry : α} {e : LoadError}
      (each : List.Forall₂ (fun entry page => read entry = .ok page) before pages)
      (failed : read entry = .error e) :
      ReadsAll read (before ++ entry :: after) (.error e)

theorem readsAll_mapM {α β : Type} (read : α → Except LoadError β) (found : List α) :
    ReadsAll read found (found.mapM read) := by
  induction found with
  | nil => exact .all .nil
  | cons entry found ih =>
    rw [List.mapM_cons]
    cases first : read entry with
    | error e =>
      have stopped : ReadsAll read ([] ++ entry :: found) (.error e) := .fault .nil first
      exact stopped
    | ok page =>
      cases rest : found.mapM read with
      | ok pages =>
        rw [rest] at ih
        cases ih with
        | all each => exact .all (.cons first each)
      | error e =>
        rw [rest] at ih
        cases ih with
        | fault each failed => exact .fault (.cons first each) failed

theorem mapM_congr {α β : Type} {read read' : α → Except LoadError β} {found : List α}
    (same : ∀ entry ∈ found, read entry = read' entry) : found.mapM read = found.mapM read' := by
  induction found with
  | nil => rfl
  | cons entry found ih =>
    obtain ⟨first, others⟩ := List.forall_mem_cons.mp same
    rw [List.mapM_cons, List.mapM_cons, first, ih others]

section

variable {α β : Type} [DecidableEq β] [LT β] [DecidableLT β] [LE β] [Std.IsLinearOrder β]
  [Std.LawfulOrderLT β]

theorem notAfter_iff {a b : List β} : notAfter a b ↔ a < b ∨ a = b := by
  simp only [notAfter, Bool.not_eq_true', decide_eq_false_iff_not, List.not_lt]
  exact List.le_iff_lt_or_eq

theorem pairwise_mergeSort_by (key : α → List β) (l : List α) :
    (l.mergeSort fun a b => notAfter (key a) (key b)).Pairwise
      fun a b => notAfter (key a) (key b) := by
  apply List.pairwise_mergeSort
  · intro a b c first second
    simp only [notAfter, Bool.not_eq_true', decide_eq_false_iff_not, List.not_lt] at first second ⊢
    exact List.le_trans first second
  · intro a b
    simp only [notAfter, Bool.or_eq_true, Bool.not_eq_true', decide_eq_false_iff_not, List.not_lt]
    exact List.le_total ..

end

namespace Archive

def strip (entry : Text × Bytes) : Except LoadError (Text × Text) :=
  (unpack entry.2).map fun markup => (entry.1, Page.plainText markup)

end Archive

namespace PageFolder

def strip (path : Text) (entry : Text × Node) : Except LoadError (Text × Text) :=
  match entry.2 with
  | .folder _ => .error (.isFolder (path ++ '/' :: entry.1))
  | .file content =>
    match Text.Utf8.decode (bytesOf content) with
    | .error e => .error (.encoding e)
    | .ok source => .ok (entry.1, Page.plainText (markup source))

end PageFolder

namespace Collection

/-- What the archive of a module gives. Its pages are the payloads of the rows under names of pages,
in the order of the names. -/
inductive ArchiveGives (c : Collection) (module : Text) :
    Except LoadError (List (Text × Text)) → Prop
  | absent (reached : ∀ e, c.find (archiveLocation module) ≠ .error e)
      (noFile : ∀ content, c.find (archiveLocation module) ≠ .ok (some (.file content))) :
      ArchiveGives c module (.ok [])
  | unreachable {e : LoadError} (failed : c.find (archiveLocation module) = .error e) :
      ArchiveGives c module (.error e)
  | unreadable {content : Content} {e : LoadError}
      (present : c.find (archiveLocation module) = .ok (some (.file content)))
      (failed : Archive.tables content = .error e) :
      ArchiveGives c module (.error e)
  | read {content : Content} {names : List NameRow} {payloads : List PayloadRow}
      {found : List (Text × Bytes)} {outcome : Except LoadError (List (Text × Text))}
      (present : c.find (archiveLocation module) = .ok (some (.file content)))
      (rows : Archive.tables content = .ok (names, payloads))
      (selected : found.Perm (names.flatMap (Archive.joined payloads)))
      (ordered : found.Pairwise fun a b => Archive.nameLe a.1 b.1)
      (reads : ReadsAll Archive.strip found outcome) :
      ArchiveGives c module outcome

/-- What the folder of a module gives: its entries named as pages are, in the order of the names. -/
inductive FolderGives (c : Collection) (module : Text) :
    Except LoadError (List (Text × Text)) → Prop
  | absent (reached : ∀ e, c.find (folderLocation module) ≠ .error e)
      (noFolder : ∀ entries, c.find (folderLocation module) ≠ .ok (some (.folder entries))) :
      FolderGives c module (.ok [])
  | unreachable {e : LoadError} (failed : c.find (folderLocation module) = .error e) :
      FolderGives c module (.error e)
  | read {entries found : List (Text × Node)} {outcome : Except LoadError (List (Text × Text))}
      (present : c.find (folderLocation module) = .ok (some (.folder entries)))
      (selected : found.Perm (entries.filter PageFolder.isPageEntry))
      (ordered : found.Pairwise fun a b => notAfter a.1 b.1)
      (reads : ReadsAll (PageFolder.strip (c.pathTo (folderLocation module))) found outcome) :
      FolderGives c module outcome

/-- No page of the archive has a number with too many decimal digits, and none of the folder has
where the archive gives no pages. -/
structure NumbersFit (c : Collection) (module : Text) : Prop where
  archive : ∀ content names payloads,
    c.find (archiveLocation module) = .ok (some (.file content)) →
    Archive.tables content = .ok (names, payloads) →
    ∀ entry ∈ names.flatMap (Archive.joined payloads), ∀ markup,
      Archive.unpack entry.2 = .ok markup → Page.NumbersFit markup
  folder : (c.fromArchive module).2 = .ok [] →
    ∀ entries, c.find (folderLocation module) = .ok (some (.folder entries)) →
    ∀ name content, (name, .file content) ∈ entries → Archive.htmlEnding <:+ name →
      ∀ source, Text.Utf8.decode (PageFolder.bytesOf content) = .ok source →
        Page.NumbersFit (PageFolder.markup source)

end Collection

namespace Archive

theorem readPage_of_fit {entry : Text × Bytes}
    (fit : ∀ markup, unpack entry.2 = .ok markup → Page.NumbersFit markup) :
    (readPage entry.2).map (entry.1, ·) = strip entry := by
  rw [readPage, strip]
  cases unpacked : unpack entry.2 with
  | error e => rfl
  | ok markup =>
    have read := Page.readMarkup_of_fit (fit markup unpacked)
    simp only [Except.bind, read]
    rfl

theorem readPage_of_inflate {length stream : Bytes} {s : Text}
    (four : length.length = lengthBytes)
    (compressed : Flate.inflate stream = .ok (Text.Utf8.encode s)) :
    readPage (length ++ stream) = (Page.readMarkup s).mapError .number := by
  rw [readPage, unpack_of_inflate four compressed]
  rfl

def storedPayload (markup : Text) : Bytes :=
  List.replicate lengthBytes 0 ++ Flate.stored (Text.Utf8.encode markup)

theorem storedPayload_spec {s : Text} (short : 4 * s.length < 0x10000) :
    ∃ length stream, storedPayload s = length ++ stream ∧ length.length = lengthBytes ∧
      Flate.inflate stream = .ok (Text.Utf8.encode s) := by
  have fits := Nat.lt_of_le_of_lt (Text.Utf8.length_encode_le s) short
  exact ⟨_, _, rfl, rfl, Flate.inflate_stored fits⟩

theorem readAll_eq_mapM (found : List (Text × Bytes)) :
    (readAll found).2 = found.mapM fun entry => (readPage entry.2).map (entry.1, ·) := by
  induction found with
  | nil => rfl
  | cons entry found ih =>
    rw [List.mapM_cons, ← ih, readAll]
    cases readPage entry.2 with
    | error e => rfl
    | ok text =>
      obtain ⟨events, pages⟩ := readAll found
      cases pages <;> rfl

theorem readAll_of_fit {found : List (Text × Bytes)}
    (fit : ∀ entry ∈ found, ∀ markup, unpack entry.2 = .ok markup → Page.NumbersFit markup) :
    (readAll found).2 = found.mapM strip := by
  rw [readAll_eq_mapM]
  exact mapM_congr fun entry member => readPage_of_fit (fit entry member)

theorem readAll_events (found : List (Text × Bytes)) :
    ∀ e ∈ (readAll found).1, ∃ name, e = .pageLoaded name := by
  induction found with
  | nil => exact fun _ member => nomatch member
  | cons entry found ih =>
    rw [readAll]
    cases readPage entry.2 with
    | error e => exact fun _ member => nomatch member
    | ok text => exact List.forall_mem_cons.mpr ⟨⟨entry.1, rfl⟩, ih⟩

theorem nameLe_eq (a b : Text) : nameLe a b = notAfter a b := by
  simp only [nameLe, notAfter, Text.Utf8.encode_lt_iff]

theorem pairwise_mergeSort (rows : List (Text × Bytes)) :
    (rows.mergeSort fun a b => nameLe a.1 b.1).Pairwise fun a b => nameLe a.1 b.1 :=
  pairwise_mergeSort_by (fun row : Text × Bytes => Text.Utf8.encode row.1) rows

end Archive

theorem PageFolder.readPage_of_lineEnds {s written : Text} (unix : '\r' ∉ s) (plain : '\\' ∉ s)
    (lineEnds : written = s ∨ written = Text.crlf s) :
    readPage (Text.Utf8.encode written) = (Page.readMarkup s).mapError .number := by
  have lines : Text.unixLines written = s := by
    rcases lineEnds with rfl | rfl
    · exact Text.unixLines_of_not_mem unix
    · exact Text.unixLines_crlf unix
  have source : markup written = s := by rw [markup, lines, Text.replaceAll_of_not_mem plain]
  rw [readPage, Text.Utf8.decode_encode]
  simp only [source]

namespace Collection

variable {c : Collection} {module : Text}

theorem archiveGives_fromArchive (fit : c.NumbersFit module) :
    c.ArchiveGives module (c.fromArchive module).2 := by
  simp only [fromArchive]
  cases found : c.find (archiveLocation module) with
  | error e => exact .unreachable found
  | ok node =>
    have reached (e : LoadError) : c.find (archiveLocation module) ≠ .error e := by
      rw [found]
      exact nofun
    match node with
    | none => exact .absent reached (by rw [found]; exact nofun)
    | some (.folder entries) => exact .absent reached (by rw [found]; exact nofun)
    | some (.file content) =>
      cases rows : Archive.tables content with
      | error e =>
        have given : (Archive.pages content).2 = .error e := by
          rw [Archive.pages, Archive.entries, rows]
          rfl
        rw [given]
        exact .unreadable found rows
      | ok tables =>
        obtain ⟨names, payloads⟩ := tables
        have selected := List.mergeSort_perm (names.flatMap (Archive.joined payloads))
          fun a b => Archive.nameLe a.1 b.1
        have given : (Archive.pages content).2 = ((names.flatMap (Archive.joined payloads)).mergeSort
            fun a b => Archive.nameLe a.1 b.1).mapM Archive.strip := by
          have fits := fit.archive content names payloads found rows
          rw [← Archive.readAll_of_fit fun entry member => fits entry (selected.mem_iff.mp member),
            Archive.pages, Archive.entries, rows]
          rfl
        rw [given]
        exact .read found rows selected (Archive.pairwise_mergeSort _) (readsAll_mapM _ _)

theorem fromArchive_events :
    ∀ e ∈ (c.fromArchive module).1, e.level ≠ .error ∧ ∀ path, e ≠ .readingPages path := by
  simp only [fromArchive]
  split
  · exact fun _ member => nomatch member
  · rename_i content _
    intro e member
    rcases List.mem_cons.mp member with rfl | member
    · exact ⟨nofun, nofun⟩
    · simp only [Archive.pages] at member
      split at member
      · cases member
      · obtain ⟨name, rfl⟩ := Archive.readAll_events _ e member
        exact ⟨nofun, nofun⟩
  · exact fun _ member => nomatch member

theorem walk_concat {path path' : Text} {around : List Node} {node : Node} {location : Location}
    {entries : List (Text × Node)} {name : Text}
    (reached : Location.walk path around node location = .ok (some (.folder entries)))
    (step : name ≠ Location.up) (short : Location.isLongerThan Location.nameLimit name = false) :
    Location.walk path' around node (location ++ [name]) = .ok (entries.lookup name) := by
  fun_induction Location.walk path around node location with
  | case1 around node =>
    cases reached
    simp only [List.nil_append, Location.walk, if_neg step, short, Bool.false_eq_true, if_false]
    cases entries.lookup name <;> rfl
  | case2 | case5 | case6 => cases reached
  | case3 _ _ ih | case4 _ _ _ _ ih =>
    simpa only [List.cons_append, Location.walk, if_true] using ih reached
  | case7 around inner step location other long node present ih =>
    simpa only [List.cons_append, Location.walk, if_neg other, if_neg long, present] using ih reached

theorem find_entry {entries : List (Text × Node)} (root : c.root = .ok (some (.folder entries)))
    {name path : Text} {node : Option Node} (found : entries.lookup name = node)
    (place : c.pathTo [name] = path) (step : name ≠ Location.up)
    (short : Location.isLongerThan Location.nameLimit name = false)
    (whole : path.contains '\x00' = false)
    (near : Location.isLongerThan Location.pathLimit path = false) :
    c.find [name] = .ok node := by
  have reached : Location.walk c.path [] c.tree (c.origin ++ []) = .ok (some (.folder entries)) := by
    rw [Collection.root, find] at root
    split at root
    · cases root
    · split at root
      · cases root
      · exact root
  rw [List.append_nil] at reached
  simp only [find, place, whole, near, Bool.false_eq_true, if_false, ← found]
  exact walk_concat reached step short

theorem readEntry_of_fit {path : Text} {entry : Text × Node}
    (fit : ∀ content source, entry.2 = .file content →
      Text.Utf8.decode (PageFolder.bytesOf content) = .ok source →
      Page.NumbersFit (PageFolder.markup source)) :
    PageFolder.readEntry path entry = PageFolder.strip path entry := by
  obtain ⟨name, node⟩ := entry
  cases node with
  | folder entries => rfl
  | file content =>
    simp only [PageFolder.readEntry, PageFolder.strip, PageFolder.readPage]
    cases decoded : Text.Utf8.decode (PageFolder.bytesOf content) with
    | error e => rfl
    | ok source =>
      simp only [Page.readMarkup_of_fit (fit content source rfl decoded)]
      rfl

theorem folderGives_fromFolder (fit : c.NumbersFit module)
    (noArchive : (c.fromArchive module).2 = .ok []) :
    c.FolderGives module (c.fromFolder module).2 := by
  simp only [fromFolder]
  cases found : c.find (folderLocation module) with
  | error e => exact .unreachable found
  | ok node =>
    have reached (e : LoadError) : c.find (folderLocation module) ≠ .error e := by
      rw [found]
      exact nofun
    match node with
    | none => exact .absent reached (by rw [found]; exact nofun)
    | some (.file content) => exact .absent reached (by rw [found]; exact nofun)
    | some (.folder entries) =>
      have selected := List.mergeSort_perm (entries.filter PageFolder.isPageEntry)
        fun a b => notAfter a.1 b.1
      have given : PageFolder.pages (c.pathTo (folderLocation module)) entries =
          (PageFolder.pageEntries entries).mapM
            (PageFolder.strip (c.pathTo (folderLocation module))) := by
        apply mapM_congr
        intro entry member
        obtain ⟨listed, named⟩ := List.mem_filter.mp (selected.mem_iff.mp member)
        apply readEntry_of_fit
        intro content source file decoded
        rw [← Prod.eta entry, file] at listed
        exact fit.folder noArchive entries found entry.1 content listed
          (List.isSuffixOf_iff_suffix.mp named) source decoded
      change c.FolderGives module (PageFolder.pages _ entries)
      rw [given]
      exact .read found selected
        (pairwise_mergeSort_by (fun e : Text × Node => e.1) _)
        (readsAll_mapM _ _)

theorem fromFolder_events : ∀ e ∈ (c.fromFolder module).1, e.level ≠ .error := by
  simp only [fromFolder]
  split
  · exact fun _ member => nomatch member
  · exact List.forall_mem_cons.mpr ⟨nofun, nofun⟩
  · exact fun _ member => nomatch member

end Collection

end Apidoc
