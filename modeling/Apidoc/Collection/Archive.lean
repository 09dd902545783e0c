import Apidoc.Collection.Basic
import Apidoc.Log
import Apidoc.Page.PlainText

namespace Apidoc.Archive

def lengthBytes : Nat := 4

def unpack (payload : Bytes) : Except LoadError Text :=
  if payload.length < lengthBytes then .error (.shortEntry payload.length)
  else
    match Flate.inflate (payload.drop lengthBytes) with
    | .error fault => .error (.stream fault)
    | .ok bytes => (Text.Utf8.decode bytes).mapError .encoding

def htmlEnding : Text := ".html".toList

def isPageName (name : Text) : Bool := htmlEnding.isSuffixOf (name.map Char.toLower)

/-- The rows of both tables. The name table is missed first, and a file of at most one byte is a
database without tables. -/
def tables : Content → Except LoadError (List NameRow × List PayloadRow)
  | .bytes bytes =>
    if bytes.length ≤ 1 then .error (.noTable "FileNameTable".toList) else .error .notDatabase
  | .tables none _ => .error (.noTable "FileNameTable".toList)
  | .tables (some _) none => .error (.noTable "FileDataTable".toList)
  | .tables (some names) (some payloads) => .ok (names, payloads)

def joined (payloads : List PayloadRow) (row : NameRow) : List (Text × Bytes) :=
  match row.name, row.file with
  | some name, some file =>
    if isPageName name then
      (payloads.filter (·.id = some file)).map fun p => (name, p.payload)
    else []
  | _, _ => []

def nameLe (a b : Text) : Bool := notAfter (Text.Utf8.encode a) (Text.Utf8.encode b)

def entries (content : Content) : Except LoadError (List (Text × Bytes)) :=
  (tables content).map fun (names, payloads) =>
    (names.flatMap (joined payloads)).mergeSort fun a b => nameLe a.1 b.1

def readPage (payload : Bytes) : Except LoadError Text :=
  (unpack payload).bind fun markup => (Page.readMarkup markup).mapError .number

def readAll : List (Text × Bytes) → List Event × Except LoadError (List (Text × Text))
  | [] => ([], .ok [])
  | (name, payload) :: rest =>
    match readPage payload with
    | .error e => ([], .error e)
    | .ok text =>
      let (events, pages) := readAll rest
      (.pageLoaded name :: events, pages.map ((name, text) :: ·))

def pages (content : Content) : List Event × Except LoadError (List (Text × Text)) :=
  match entries content with
  | .error e => ([], .error e)
  | .ok found => readAll found

end Apidoc.Archive
