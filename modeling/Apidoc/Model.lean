import Apidoc.Manual.Class
import Apidoc.Manual.Enum
import Apidoc.Manual.Property

/-!
A model of declarations, and the calls that look up their descriptions. A call names a declaration
by its place among those of its kind.
-/
namespace Apidoc

structure Model where
  functions : List Function
  properties : List Property
  enums : List Enum
  classes : List ClassDecl
  deriving Repr

inductive Call
  | function (place : Nat)
  | property (place : Nat)
  | enum (place : Nat)
  | enumerator (place item : Nat)
  | classDecl (place : Nat)
  deriving DecidableEq, Repr

namespace Model

def empty : Model := ⟨[], [], [], []⟩

/-- Looks up one description; a call that names nothing finds nothing. -/
def perform (m : Manual) (model : Model) : Call → Except LayoutError (Described Model)
  | .function i =>
    match model.functions[i]? with
    | none => .ok (.unchanged model)
    | some f =>
      (m.describeFunction f).map fun d =>
        ⟨{ model with functions := model.functions.set i d.value }, d.found, d.events⟩
  | .property i =>
    match model.properties[i]? with
    | none => .ok (.unchanged model)
    | some p =>
      (m.describeProperty model.functions p).map fun (functions, d) =>
        ⟨{ model with functions := functions, properties := model.properties.set i d.value },
          d.found, d.events⟩
  | .enum i =>
    match model.enums[i]? with
    | none => .ok (.unchanged model)
    | some e =>
      let d := m.describeEnum e
      .ok ⟨{ model with enums := model.enums.set i d.value }, d.found, d.events⟩
  | .enumerator i j =>
    match model.enums[i]? with
    | none => .ok (.unchanged model)
    | some e =>
      match e.items[j]? with
      | none => .ok (.unchanged model)
      | some item =>
        let (item, found) := m.describeItem e item
        .ok ⟨{ model with enums := model.enums.set i { e with items := e.items.set j item } },
          found, []⟩
  | .classDecl i =>
    match model.classes[i]? with
    | none => .ok (.unchanged model)
    | some c =>
      let d := m.describeClass c
      .ok ⟨{ model with classes := model.classes.set i d.value }, d.found, d.events⟩

def performAll (m : Manual) (model : Model) : List Call → Except LayoutError (Model × List Bool)
  | [] => .ok (model, [])
  | call :: calls =>
    match model.perform m call with
    | .error e => .error e
    | .ok d =>
      (performAll m d.value calls).map fun (model, found) => (model, d.found :: found)

inductive Handle
  | function (place : Nat)
  | property (place : Nat)
  | enum (place : Nat)
  | classDecl (place : Nat)
  deriving DecidableEq, Repr

def rename (model : Model) (name : Text) : Handle → Model
  | .function i => { model with functions := model.functions.modify i ({ · with name := name }) }
  | .property i => { model with properties := model.properties.modify i ({ · with name := name }) }
  | .enum i => { model with enums := model.enums.modify i ({ · with name := name }) }
  | .classDecl i =>
    { model with classes := model.classes.modify i fun c => { c with scope.name := name } }

def clearRemark (model : Model) : Handle → Model
  | .function i => { model with functions := model.functions.modify i ({ · with remark := none }) }
  | .property i =>
    { model with properties := model.properties.modify i ({ · with remark := none }) }
  | .enum i => { model with enums := model.enums.modify i ({ · with remark := none }) }
  | .classDecl i => { model with classes := model.classes.modify i ({ · with remark := none }) }

def retire (model : Model) (i : Nat) : Model :=
  { model with functions := model.functions.modify i Function.retire }

end Model

end Apidoc
