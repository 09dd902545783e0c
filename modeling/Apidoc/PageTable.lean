import Apidoc.Text.Quoted

namespace Apidoc

structure PageTable where
  pages : List (Text × Text)
  deriving DecidableEq, Repr

namespace PageTable

def empty : PageTable := ⟨[]⟩

/-- Sets a page. One of the same name keeps its place. -/
def put (name text : Text) : List (Text × Text) → List (Text × Text)
  | [] => [(name, text)]
  | (n, t) :: rest => if n = name then (n, text) :: rest else (n, t) :: put name text rest

def ofList (pages : List (Text × Text)) : PageTable :=
  ⟨pages.foldl (fun table p => put p.1 p.2 table) []⟩

def size (table : PageTable) : Nat := table.pages.length

def find? (table : PageTable) (name : Text) : Option Text := table.pages.lookup name

def contains (table : PageTable) (name : Text) : Bool := (table.find? name).isSome

def names (table : PageTable) : List Text := table.pages.map (·.1)

def agrees (a b : PageTable) : Bool :=
  a.size == b.size && a.pages.all fun p => b.find? p.1 == some p.2

def summary (table : PageTable) : Text :=
  "DocumentationStore(".toList ++ Text.ofNat table.size ++ " pages)".toList

inductive AccessError
  | missing (name : Text)
  | assignment
  | deletion
  deriving DecidableEq, Repr

def AccessError.message : AccessError → Text
  | .missing name => Text.quoted name
  | .assignment => "'DocumentationStore' object does not support item assignment".toList
  | .deletion => "'DocumentationStore' object does not support item deletion".toList

def get (table : PageTable) (name : Text) : Except AccessError Text :=
  match table.find? name with
  | some text => .ok text
  | none => .error (.missing name)

end PageTable

end Apidoc
