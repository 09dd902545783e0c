import Apidoc.Entity
import Apidoc.Flate.Inflate
import Apidoc.Text.Quoted
import Apidoc.Text.Utf8

namespace Apidoc

abbrev Bytes := List UInt8

/-- Whether a list is the same as another or stands in front of it, in the order of the elements. -/
def notAfter {α : Type} [DecidableEq α] [LT α] [DecidableLT α] (a b : List α) : Bool :=
  !decide (b < a)

structure NameRow where
  name : Option Text
  file : Option Int
  deriving DecidableEq, Repr

structure PayloadRow where
  id : Option Int
  payload : Bytes
  deriving DecidableEq, Repr

inductive Content
  | bytes (bytes : Bytes)
  | tables (names : Option (List NameRow)) (payloads : Option (List PayloadRow))
  deriving DecidableEq, Repr

inductive Node
  | file (content : Content)
  | folder (entries : List (Text × Node))
  deriving Repr

namespace Node

def isFolder : Node → Bool
  | .folder _ => true
  | .file _ => false

def putEntry (name : Text) (node : Node) : List (Text × Node) → List (Text × Node)
  | [] => [(name, node)]
  | (n, old) :: rest => if n = name then (n, node) :: rest else (n, old) :: putEntry name node rest

/-- Adds a node at a path and the folders on the way to it. A folder that is there stays. -/
def insert (node : Node) : List Text → List (Text × Node) → List (Text × Node)
  | [], entries => entries
  | [name], entries =>
    match entries.lookup name with
    | some (.folder _) => if node.isFolder then entries else putEntry name node entries
    | _ => putEntry name node entries
  | name :: path, entries =>
    match entries.lookup name with
    | some (.folder inner) => putEntry name (.folder (insert node path inner)) entries
    | some (.file _) => entries
    | none => putEntry name (.folder (insert node path [])) entries

end Node

inductive LoadError
  | shortEntry (size : Nat)
  | notDatabase
  | noTable (name : Text)
  | stream (fault : Flate.Fault)
  | encoding (error : Text.Utf8.DecodeError)
  | number (error : Entity.NumberError)
  | isFolder (path : Text)
  | nameTooLong (path : Text)
  deriving DecidableEq, Repr

def LoadError.message : LoadError → Text
  | .shortEntry size => "Archive entry too short: ".toList ++ Text.ofNat size ++ " bytes".toList
  | .notDatabase => "file is not a database".toList
  | .noTable name => "no such table: ".toList ++ name
  | .stream fault => fault.message
  | .encoding error => error.message
  | .number error => error.message
  | .isFolder path => "[Errno 21] Is a directory: ".toList ++ Text.quoted path
  | .nameTooLong path => "[Errno 36] File name too long: ".toList ++ Text.quoted path

/-- Whether a load reports the fault and goes on without pages. It passes others on. -/
def LoadError.isReported : LoadError → Bool
  | .number _ => false
  | _ => true

end Apidoc
