import Apidoc.Collection.Archive
import Apidoc.Text.Lines

namespace Apidoc.PageFolder

/-- The markup of a page file. Line ends are single line feeds, and backslashes are doubled. -/
def markup (source : Text) : Text := Text.replaceAll ['\\'] ['\\', '\\'] (Text.unixLines source)

def readPage (bytes : Bytes) : Except LoadError Text :=
  match Text.Utf8.decode bytes with
  | .error e => .error (.encoding e)
  | .ok source =>
    (Page.readMarkup (markup source)).mapError .number

def bytesOf : Content → Bytes
  | .bytes bytes => bytes
  | .tables _ _ => []

def readEntry (path : Text) (entry : Text × Node) : Except LoadError (Text × Text) :=
  match entry.2 with
  | .folder _ => .error (.isFolder (path ++ '/' :: entry.1))
  | .file content => (readPage (bytesOf content)).map fun text => (entry.1, text)

def isPageEntry (entry : Text × Node) : Bool := Archive.htmlEnding.isSuffixOf entry.1

def pageEntries (entries : List (Text × Node)) : List (Text × Node) :=
  (entries.filter isPageEntry).mergeSort fun a b => notAfter a.1 b.1

def pages (path : Text) (entries : List (Text × Node)) : Except LoadError (List (Text × Text)) :=
  (pageEntries entries).mapM (readEntry path)

end Apidoc.PageFolder
