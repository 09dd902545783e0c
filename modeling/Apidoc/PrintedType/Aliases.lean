import Apidoc.PrintedType.Spelling

namespace Apidoc.PrintedType

/-- A typedef: its name and the type it stands for, which is no one type if it depends on template
parameters. -/
structure Alias where
  name : Text
  type : Text
  dependent : Bool
  deriving DecidableEq, Repr

/-- Canonical types with their names, in the order in which the types came up. -/
structure AliasTable where
  entries : List (Text × List Text)
  deriving DecidableEq, Repr

namespace AliasTable

def empty : AliasTable := ⟨[]⟩

def size (table : AliasTable) : Nat := table.entries.length

def find? (table : AliasTable) (type : Text) : Option (List Text) :=
  table.entries.lookup (canonical type)

def names (table : AliasTable) (type : Text) : List Text := (table.find? type).getD []

def contains (table : AliasTable) (type : Text) : Bool := (table.find? type).isSome

/-- Adds a name to those of a type unless it is one of them or spells the type itself. -/
def addName (key name : Text) (names : List Text) : List Text :=
  if names.contains name || canonical name == key then names else names ++ [name]

def note (key name : Text) : List (Text × List Text) → List (Text × List Text)
  | [] => [(key, addName key name [])]
  | (k, names) :: rest =>
    if k = key then (k, addName key name names) :: rest else (k, names) :: note key name rest

def collected (aliases : List Alias) : List (Text × List Text) :=
  aliases.foldl
    (fun entries a => if a.dependent then entries else note (canonical a.type) a.name entries) []

def dependentTypes (aliases : List Alias) : List Text :=
  (aliases.filter (·.dependent)).map fun a => canonical a.type

/-- The table of a list of typedefs, without the types that have no names left and those of
dependent typedefs. -/
def ofAliases (aliases : List Alias) : AliasTable :=
  ⟨(collected aliases).filter fun e => !e.2.isEmpty && !(dependentTypes aliases).contains e.1⟩

end AliasTable

end Apidoc.PrintedType
