import Apidoc.Collection.Basic
import Apidoc.Text.Blank

namespace Apidoc

/-- The steps of a way, from the first to the last: the names of entries, or steps up. -/
abbrev Location := List Text

namespace Location

def parts : Text → List Text
  | [] => [[]]
  | c :: cs => if c = '/' then [] :: parts cs else Text.consHead c (parts cs)

def up : Text := "..".toList

/-- A written location. Empty steps and the step `.` lead nowhere and are left out. -/
def ofText (s : Text) : Location := (parts s).filter fun step => step != [] && step != ['.']

/-- The path of a location below a folder. The path `.` is left out, and a final slash stays. -/
def below (path : Text) : Location → Text
  | [] => path
  | step :: location =>
    let front := if path = ['.'] then [] else if path.getLast? = some '/' then path else path ++ ['/']
    front ++ step ++ location.flatMap fun step => '/' :: step

def nameLimit : Nat := 255

def pathLimit : Nat := 4095

def isLongerThan (limit : Nat) (s : Text) : Bool := decide (limit < (Text.Utf8.encode s).length)

/-- What a location leads to from a node, given the folders around it from the nearest on. Nothing
lies beyond a file, and the outermost folder is around itself. The path is that of the whole
location. -/
def walk (path : Text) : List Node → Node → Location → Except LoadError (Option Node)
  | _, node, [] => .ok (some node)
  | _, .file _, _ :: _ => .ok none
  | around, .folder entries, step :: location =>
    if step = up then
      match around with
      | [] => walk path [] (.folder entries) location
      | outer :: rest => walk path rest outer location
    else if isLongerThan nameLimit step then .error (.nameTooLong path)
    else
      match entries.lookup step with
      | none => .ok none
      | some node => walk path (.folder entries :: around) node location

end Location

end Apidoc
