import Apidoc.Collection.Location
import Apidoc.Collection.PageFolder
import Apidoc.PageTable
import Apidoc.Text.Lowercase

/-!
Loading the pages of a module. Its archive is preferred to its folder of page files, and a source
with a fault gives no pages at all. Numbers that are too long are passed on as faults, and so is a
root that cannot be looked up.
-/
namespace Apidoc

/-- A place for documentation: a path in a tree of folders, where nothing need stand. -/
structure Collection where
  path : Text
  tree : Node
  /-- Where a path without a leading slash starts. -/
  working : Location := []

namespace Collection

abbrev Loaded := List Event × Except LoadError (List (Text × Text))

def pathTo (c : Collection) (location : Location) : Text := Location.below c.path location

def origin (c : Collection) : Location :=
  (if c.path.head? = some '/' then [] else c.working) ++ Location.ofText c.path

/-- What stands at a location below the root. A name has no NUL in it. -/
def find (c : Collection) (location : Location) : Except LoadError (Option Node) :=
  let path := c.pathTo location
  if path.contains '\x00' then .ok none
  else if Location.isLongerThan Location.pathLimit path then .error (.nameTooLong path)
  else Location.walk path [] c.tree (c.origin ++ location)

def root (c : Collection) : Except LoadError (Option Node) := c.find []

/-- The place of a module's folder as it is written, and of its archive up to the ending. -/
def stem (module : Text) : Text := "qt".toList ++ Text.lower module

def folderLocation (module : Text) : Location := Location.ofText (stem module)

def archiveLocation (module : Text) : Location := Location.ofText (stem module ++ ".qch".toList)

def fromArchive (c : Collection) (module : Text) : Loaded :=
  let location := archiveLocation module
  match c.find location with
  | .error e => ([], .error e)
  | .ok (some (.file content)) =>
    let (events, pages) := Archive.pages content
    (.readingArchive (c.pathTo location) :: events, pages)
  | .ok _ => ([], .ok [])

def fromFolder (c : Collection) (module : Text) : Loaded :=
  let location := folderLocation module
  match c.find location with
  | .error e => ([], .error e)
  | .ok (some (.folder entries)) =>
    ([.readingPages (c.pathTo location)], PageFolder.pages (c.pathTo location) entries)
  | .ok _ => ([], .ok [])

def pages (c : Collection) (module : Text) : Loaded :=
  match c.fromArchive module with
  | (events, .ok []) =>
    let (more, pages) := c.fromFolder module
    (events ++ more, pages)
  | found => found

/-- The page table of a module, and a report of the work. A root that cannot be looked up is a
fault that is passed on. -/
def load (c : Collection) (module : Text) : Except LoadError (PageTable × List Event) :=
  match c.root with
  | .error e => .error e
  | .ok (some (.folder _)) =>
    match c.pages module with
    | (events, .error e) =>
      if e.isReported then .ok (.empty, events ++ [.loadingFailed e.message]) else .error e
    | (events, .ok pages) =>
      let table := PageTable.ofList pages
      .ok (table, events ++ [.pagesLoaded table.size module])
  | .ok _ => .ok (.empty, [.rootMissing c.path])

end Collection

end Apidoc
