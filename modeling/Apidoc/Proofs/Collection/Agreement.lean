import Apidoc.Proofs.Collection.Load

/-!
The same pages in an archive and in a folder. Both sources give them with the same texts, in the
same order.
-/
namespace Apidoc

namespace PageTable

theorem put_of_not_mem {name text : Text} {pages : List (Text × Text)}
    (other : name ∉ pages.map Prod.fst) : put name text pages = pages ++ [(name, text)] := by
  induction pages with
  | nil => rfl
  | cons page pages ih =>
    have differs : page.1 ≠ name := (List.ne_of_not_mem_cons other).symm
    rw [put, if_neg differs, ih (List.not_mem_of_not_mem_cons other), List.cons_append]

theorem ofList_of_nodup {pages : List (Text × Text)} (distinct : (pages.map Prod.fst).Nodup) :
    (ofList pages).pages = pages := by
  have added (rest : List (Text × Text)) : ∀ table : List (Text × Text),
      ((table ++ rest).map Prod.fst).Nodup →
        rest.foldl (fun table p => put p.1 p.2 table) table = table ++ rest := by
    induction rest with
    | nil => exact fun table _ => (List.append_nil table).symm
    | cons page rest ih =>
      intro table distinct
      have other : page.1 ∉ table.map Prod.fst := by
        intro member
        rw [List.map_append, List.map_cons] at distinct
        exact (List.nodup_append.mp distinct).2.2 _ member _ (.head _) rfl
      rw [List.foldl_cons, put_of_not_mem other, ih _ (by simpa using distinct)]
      simp
  exact added pages [] distinct

end PageTable

def readText (page : Text × Text) : Except LoadError (Text × Text) :=
  ((Page.readMarkup page.2).mapError .number).map (page.1, ·)

theorem mapM_readText {pages : List (Text × Text)} (fit : ∀ p ∈ pages, Page.NumbersFit p.2) :
    pages.mapM readText = .ok (pages.map fun p => (p.1, Page.plainText p.2)) := by
  have read : ∀ p ∈ pages, readText p = pure (p.1, Page.plainText p.2) := by
    intro p member
    rw [readText, Page.readMarkup_of_fit (fit p member)]
    rfl
  rw [mapM_congr read, List.mapM_pure]
  rfl

def byName (pages : List (Text × Text)) : List (Text × Text) :=
  pages.mergeSort fun a b => notAfter a.1 b.1

section

variable {pages : List (Text × Text)}

theorem byName_perm : (byName pages).Perm pages := List.mergeSort_perm _ _

theorem byName_ordered : (byName pages).Pairwise fun a b => notAfter a.1 b.1 :=
  pairwise_mergeSort_by (fun p : Text × Text => p.1) pages

theorem byName_strict (distinct : (pages.map Prod.fst).Nodup) :
    (byName pages).Pairwise fun a b => a.1 < b.1 := by
  have names : ((byName pages).map Prod.fst).Nodup := (byName_perm.map _).nodup_iff.mpr distinct
  have both := byName_ordered.and (List.pairwise_map.mp names)
  exact both.imp fun ⟨below, differs⟩ => (notAfter_iff.mp below).resolve_right differs

theorem eq_byName_map {α : Type} (entry : Text → α) {found : List (Text × α)}
    (selected : found.Perm (pages.map fun p => (p.1, entry p.1)))
    (ordered : found.Pairwise fun a b => notAfter a.1 b.1) :
    found = (byName pages).map fun p => (p.1, entry p.1) := by
  have sorted := selected.trans (byName_perm.symm.map fun p => (p.1, entry p.1))
  refine sorted.eq_of_pairwise ?_ ordered (List.pairwise_map.mpr byName_ordered)
  intro a b left right below above
  obtain ⟨p, -, rfl⟩ := List.mem_map.mp (sorted.mem_iff.mp left)
  obtain ⟨q, -, rfl⟩ := List.mem_map.mp right
  have same : p.1 = q.1 := by
    rcases notAfter_iff.mp below with less | same
    · simp [notAfter, less] at above
    · exact same
  rw [same]

end

namespace Archive

/-- The rows of an archive hold the pages, and no others: each name has one row, with a file, and
the file one payload, which is the page behind any bytes for the length. Rows under other names may
be there as well, and all may stand in any order. -/
structure HoldsPages (names : List NameRow) (payloads : List PayloadRow)
    (pages : List (Text × Text)) (file : Text → Int) (payload : Text → Bytes) : Prop where
  listed : (names.filter isPageRow).Perm (pages.map fun p => ⟨some p.1, some (file p.1)⟩)
  stored : ∀ p ∈ pages,
    payloads.filter (·.id = some (file p.1)) = [⟨some (file p.1), payload p.1⟩]
  compressed : ∀ p ∈ pages, ∃ length stream, payload p.1 = length ++ stream ∧
    length.length = lengthBytes ∧ Flate.inflate stream = .ok (Text.Utf8.encode p.2)

section

variable {names : List NameRow} {payloads : List PayloadRow} {pages : List (Text × Text)}
  {file : Text → Int} {payload : Text → Bytes}
  (rows : HoldsPages names payloads pages file payload)
include rows

theorem HoldsPages.joined {p : Text × Text} (member : p ∈ pages) :
    joined payloads ⟨some p.1, some (file p.1)⟩ = [(p.1, payload p.1)] := by
  have row : ⟨some p.1, some (file p.1)⟩ ∈ names.filter isPageRow :=
    rows.listed.mem_iff.mpr (List.mem_map_of_mem member)
  have named : isPageName p.1 := (List.mem_filter.mp row).2
  simp only [Archive.joined]
  rw [if_pos named, rows.stored p member]
  rfl

theorem HoldsPages.flatMap_joined :
    (names.flatMap (Archive.joined payloads)).Perm (pages.map fun p => (p.1, payload p.1)) := by
  have each : (pages.map fun p => (⟨some p.1, some (file p.1)⟩ : NameRow)).flatMap
      (Archive.joined payloads) = pages.map fun p => (p.1, payload p.1) := by
    rw [List.flatMap_map, ← List.flatMap_singleton' (pages.map _), List.flatMap_map]
    exact List.flatMap_congr fun p member => rows.joined member
  rw [Archive.flatMap_joined names, ← each]
  exact rows.listed.flatMap_right _

theorem HoldsPages.readAll :
    (readAll ((names.flatMap (Archive.joined payloads)).mergeSort fun a b =>
      nameLe a.1 b.1)).2 = (byName pages).mapM readText := by
  simp only [nameLe_eq]
  have ordered := pairwise_mergeSort_by (fun e : Text × Bytes => e.1)
    (names.flatMap (Archive.joined payloads))
  have found := eq_byName_map payload ((List.mergeSort_perm ..).trans rows.flatMap_joined) ordered
  rw [found, readAll_eq_mapM, List.mapM_map]
  apply mapM_congr
  intro p member
  obtain ⟨length, stream, written, four, compressed⟩ :=
    rows.compressed p (byName_perm.mem_iff.mp member)
  simp only [Function.comp_apply, readText, written, readPage_of_inflate four compressed]

end

end Archive

namespace PageFolder

/-- The entries of a folder hold the pages, and no others, as text with line feeds or with carriage
returns and line feeds. Entries that are not named as pages are may be there as well, and all may
stand in any order. -/
structure HoldsPages (entries : List (Text × Node)) (pages : List (Text × Text))
    (written : Text → Text) : Prop where
  listed : (entries.filter isPageEntry).Perm
    (pages.map fun p => (p.1, .file (.bytes (Text.Utf8.encode (written p.1)))))
  lineEnds : ∀ p ∈ pages, written p.1 = p.2 ∨ written p.1 = Text.crlf p.2

theorem HoldsPages.pages {entries : List (Text × Node)} {pages : List (Text × Text)}
    {written : Text → Text} (files : HoldsPages entries pages written)
    (unix : ∀ p ∈ pages, '\r' ∉ p.2) (plain : ∀ p ∈ pages, '\\' ∉ p.2) (path : Text) :
    PageFolder.pages path entries = (byName pages).mapM readText := by
  have ordered := pairwise_mergeSort_by (fun e : Text × Node => e.1) (entries.filter isPageEntry)
  have found := eq_byName_map (fun name => .file (.bytes (Text.Utf8.encode (written name))))
    ((List.mergeSort_perm ..).trans files.listed) ordered
  rw [PageFolder.pages, pageEntries, found, List.mapM_map]
  apply mapM_congr
  intro p member
  have member := byName_perm.mem_iff.mp member
  have read := readPage_of_lineEnds (unix p member) (plain p member) (files.lineEnds p member)
  simp only [Function.comp_apply, readEntry, bytesOf, read, readText]

end PageFolder

namespace Collection

/-- An archive and a folder with the same pages come to the same, and where no page has a number
with too many digits, to the texts of all pages in the order of their names. -/
theorem fromArchive_eq_fromFolder {c c' : Collection} {module : Text} {names : List NameRow}
    {payloads : List PayloadRow} {entries : List (Text × Node)} {pages : List (Text × Text)}
    {file : Text → Int} {payload : Text → Bytes} {written : Text → Text}
    (distinct : (pages.map Prod.fst).Nodup)
    (unix : ∀ p ∈ pages, '\r' ∉ p.2) (plain : ∀ p ∈ pages, '\\' ∉ p.2)
    (archive : c.find (archiveLocation module) =
      .ok (some (.file (.tables (some names) (some payloads)))))
    (rows : Archive.HoldsPages names payloads pages file payload)
    (folder : c'.find (folderLocation module) = .ok (some (.folder entries)))
    (files : PageFolder.HoldsPages entries pages written) :
    (c.fromArchive module).2 = (c'.fromFolder module).2 ∧
      ((∀ p ∈ pages, Page.NumbersFit p.2) → ∃ texts,
        (c.fromArchive module).2 = .ok texts ∧
        texts.Perm (pages.map fun p => (p.1, Page.plainText p.2)) ∧
        texts.Pairwise (fun a b => a.1 < b.1) ∧ (PageTable.ofList texts).pages = texts) := by
  have given : (c.fromArchive module).2 = (byName pages).mapM readText := by
    rw [fromArchive_of_tables archive]
    exact rows.readAll
  have same : (c'.fromFolder module).2 = (byName pages).mapM readText := by
    simp only [fromFolder, folder]
    exact files.pages unix plain _
  refine ⟨given.trans same.symm, fun fit => ?_⟩
  have read := mapM_readText fun p member => fit p (byName_perm.mem_iff.mp member)
  refine ⟨_, given.trans read, byName_perm.map _, ?_, ?_⟩
  · exact List.pairwise_map.mpr (byName_strict distinct)
  · apply PageTable.ofList_of_nodup
    rw [List.map_map]
    exact (byName_perm.map _).nodup_iff.mpr distinct

def twoPages : List (Text × Text) :=
  [("b.html".toList, "<p>B".toList), ("a.html".toList, "A\n&lt;".toList)]

def twoNames : List NameRow :=
  [⟨some "a.html".toList, some 1⟩, ⟨some "c.png".toList, some 3⟩, ⟨some "b.html".toList, some 2⟩]

def twoPayloads : List PayloadRow :=
  [⟨some 2, Archive.storedPayload "<p>B".toList⟩, ⟨some 1, Archive.storedPayload "A\n&lt;".toList⟩,
    ⟨some 3, []⟩]

def twoEntries : List (Text × Node) :=
  [("c".toList, .folder []), ("b.html".toList, .file (.bytes (Text.Utf8.encode "<p>B".toList))),
    ("a.html".toList, .file (.bytes (Text.Utf8.encode "A\r\n&lt;".toList)))]

theorem holdsPages_twoNames : Archive.HoldsPages twoNames twoPayloads twoPages
    (fun name => if name = "a.html".toList then 1 else 2)
    (fun name => Archive.storedPayload
      (if name = "a.html".toList then "A\n&lt;".toList else "<p>B".toList)) where
  listed := by decide +kernel
  stored := by decide +kernel
  compressed := by
    have short : ∀ p ∈ twoPages, 4 * p.2.length < 0x10000 ∧
        (if p.1 = "a.html".toList then "A\n&lt;".toList else "<p>B".toList) = p.2 := by decide +kernel
    intro p member
    obtain ⟨short, same⟩ := short p member
    simp only [same]
    exact Archive.storedPayload_spec short

theorem holdsPages_twoEntries : PageFolder.HoldsPages twoEntries twoPages
    (fun name => if name = "a.html".toList then "A\r\n&lt;".toList else "<p>B".toList) where
  listed := .refl _
  lineEnds := by decide +kernel

theorem fromArchive_eq_fromFolder_twoPages :
    let c := ofArchive twoNames twoPayloads
    let c' := ofFolder twoEntries
    (twoPages.map Prod.fst).Nodup ∧ (∀ p ∈ twoPages, '\r' ∉ p.2) ∧ (∀ p ∈ twoPages, '\\' ∉ p.2) ∧
      (∀ p ∈ twoPages, Page.NumbersFit p.2) ∧
      (c.fromArchive "Core".toList).2 = (c'.fromFolder "Core".toList).2 ∧
      ∃ texts, (c.fromArchive "Core".toList).2 = .ok texts ∧
        texts.Perm (twoPages.map fun p => (p.1, Page.plainText p.2)) ∧
        texts.Pairwise (fun a b => a.1 < b.1) ∧ (PageTable.ofList texts).pages = texts := by
  have distinct : (twoPages.map Prod.fst).Nodup := by decide
  have unix : ∀ p ∈ twoPages, '\r' ∉ p.2 := by decide
  have plain : ∀ p ∈ twoPages, '\\' ∉ p.2 := by decide
  have fit : ∀ p ∈ twoPages, Page.NumbersFit p.2 := by
    have none : ∀ p ∈ twoPages, Entity.overlong? (Page.dropTags false [] p.2) = none := by decide
    exact fun p member => Entity.overlong?_eq_none_iff.mp (none p member)
  have archive : (ofArchive twoNames twoPayloads).find (archiveLocation "Core".toList) =
      .ok (some (.file (.tables (some twoNames) (some twoPayloads)))) := find_coreArchive rfl
  have folder : (ofFolder twoEntries).find (folderLocation "Core".toList) =
      .ok (some (.folder twoEntries)) := find_coreFolder rfl
  have given := fromArchive_eq_fromFolder distinct unix plain archive holdsPages_twoNames folder
    holdsPages_twoEntries
  exact ⟨distinct, unix, plain, fit, given.1, given.2 fit⟩

theorem holdsPages_pageRow {s : Text} (short : 4 * s.length < 0x10000) :
    Archive.HoldsPages [pageRow] [⟨some 1, Archive.storedPayload s⟩] [("a.html".toList, s)]
      (fun _ => 1) (fun _ => Archive.storedPayload s) where
  listed := .refl _
  stored := fun _ _ => rfl
  compressed := by
    intro p member
    rw [List.mem_singleton.mp member]
    exact Archive.storedPayload_spec short

theorem fromArchive_pageRow {s : Text} (short : 4 * s.length < 0x10000) :
    ((ofArchive [pageRow] [⟨some 1, Archive.storedPayload s⟩]).fromArchive "Core".toList).2 =
      ((Page.readMarkup s).mapError .number).map fun text => [("a.html".toList, text)] := by
  have given := (holdsPages_pageRow short).readAll
  rw [byName, List.mergeSort_singleton, List.mapM_cons, List.mapM_nil, readText] at given
  have present : (ofArchive [pageRow] [⟨some 1, Archive.storedPayload s⟩]).find
      (archiveLocation "Core".toList) = .ok (some _) := find_coreArchive rfl
  rw [fromArchive_of_tables present, given]
  cases Page.readMarkup s <;> rfl

theorem fromArchive_fromFolder_longPage :
    ((ofArchive [pageRow] [⟨some 1, Archive.storedPayload longPage⟩]).fromArchive "Core".toList).2 =
        .error (.number ⟨4301⟩) ∧
      ((ofFolder [pageFile longPage]).fromFolder "Core".toList).2 = .error (.number ⟨4301⟩) := by
  have short : 4 * longPage.length < 0x10000 := by
    rw [longPage, List.length_append, List.length_append, length_longNumber]
    decide
  have archive := fromArchive_pageRow short
  have folder := fromFolder_pageFile (not_mem_longPage (a := '\r') (by decide))
    (not_mem_longPage (a := '\\') (by decide))
  rw [readMarkup_longPage] at archive folder
  exact ⟨archive, folder⟩

end Collection

end Apidoc
