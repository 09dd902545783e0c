import Apidoc.Manual.Function
import Apidoc.Page.PropertyEntry
import Apidoc.Text.Uppercase

/-!
Descriptions of properties. A property that a macro declares has an entry of its own; any other
without a backing field takes the descriptions of its accessors.
-/
namespace Apidoc

namespace Property

/-- The name in the form of a question. Names of one letter have none. -/
def questionName (name : Text) : Text :=
  match name with
  | [c] => [c]
  | [] => "is".toList
  | c :: cs => "is".toList ++ Text.upperChar c ++ cs

def secondWord? (names : List Text) (text : Text) : Option Text :=
  (Text.words text)[1]?.filter names.contains

def macroName? (layout : Layout) (p : Property) : Option Text :=
  match p.scope with
  | none => none
  | some scope =>
    let marked := scope.macros.filter fun text => layout.propertyMacros.any (·.occursIn text)
    marked.findSome? (secondWord? [p.name, questionName p.name])

end Property

def joinBriefs (a b : Text) : Text :=
  if a.isEmpty then b else if b.isEmpty then a else a ++ '\n' :: b

def Function.brief (f : Function) : Text := (f.remark.map (·.brief)).getD []

namespace Manual

def describeDeclared (m : Manual) (p : Property) : Described Property :=
  let key := m.page p.scope
  match m.pages.find? key with
  | none => .unchanged p
  | some text =>
    match (Page.propertyEntry m.aliases p.name p.type).search? text with
    | none => .unchanged p
    | some found =>
      ⟨{ p with remark := some ⟨found.get .docs, none⟩ }, true, [.propertyDocumented p.name key]⟩

/-- Describes one function of a list unless it has a remark, and gives its brief text. -/
def describeAccessor (m : Manual) (functions : List Function) (place : Option Nat) :
    Except LayoutError (List Function × Text × List Event) :=
  match place with
  | none => .ok (functions, [], [])
  | some i =>
    match functions[i]? with
    | none => .ok (functions, [], [])
    | some f =>
      match f.remark with
      | some _ => .ok (functions, f.brief, [])
      | none =>
        (m.describeFunction f).map fun d => (functions.set i d.value, d.value.brief, d.events)

/-- Describes a property whose accessors are in a list of functions. A declared name is taken on
even if its entry is not found. -/
def describeProperty (m : Manual) (functions : List Function) (p : Property) :
    Except LayoutError (List Function × Described Property) :=
  match p.macroName? m.layout with
  | some name => .ok (functions, m.describeDeclared { p with name := name })
  | none =>
    if p.storage.isSome then .ok (functions, .unchanged p)
    else
      match m.describeAccessor functions p.getter with
      | .error e => .error e
      | .ok (functions, getterBrief, getterEvents) =>
        match m.describeAccessor functions p.setter with
        | .error e => .error e
        | .ok (functions, setterBrief, setterEvents) =>
          let brief := joinBriefs getterBrief setterBrief
          let events := getterEvents ++ setterEvents
          if brief.isEmpty then .ok (functions, ⟨p, false, events⟩)
          else .ok (functions, ⟨{ p with remark := some ⟨brief, none⟩ }, true, events⟩)

end Manual

end Apidoc
