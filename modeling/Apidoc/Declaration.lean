import Apidoc.Scope
import Apidoc.Text.Quoted

namespace Apidoc

structure Remark where
  brief : Text
  detail : Option Text
  deriving DecidableEq, Repr

structure Notice where
  kind : Text
  message : Option Text
  deriving DecidableEq, Repr

inductive Role
  | regular
  | implicit
  deriving DecidableEq, Repr

structure RoleError where
  text : Text
  deriving DecidableEq, Repr

def RoleError.message (e : RoleError) : Text :=
  Text.quoted e.text ++ " is not a valid ParameterKind".toList

def Role.ofText (s : Text) : Except RoleError Role :=
  if s = "regular".toList then .ok .regular
  else if s = "implicit".toList then .ok .implicit
  else .error ⟨s⟩

structure Parameter where
  name : Text
  type : Text
  role : Role
  deriving DecidableEq, Repr

/-- `documentedName` is the name that its documentation uses. -/
structure Function where
  name : Text
  documentedName : Text
  scope : Option Scope
  remark : Option Remark
  parameters : List Parameter
  notices : List Notice
  deriving Repr

namespace Function

def declare (name other : Text) (scope : Option Scope) (remark : Option Remark)
    (parameters : List Parameter) (notices : List Notice) : Function :=
  ⟨name, if other.isEmpty then name else other, scope, remark, parameters, notices⟩

/-- The parameters that are written in a call. -/
def callParameters (f : Function) : List Parameter := f.parameters.filter (·.role = .regular)

end Function

def obsoleteKind : Text := "Obsolete".toList

def Notice.marksObsolete (n : Notice) : Bool := n.kind == obsoleteKind

def Function.isDeprecated (f : Function) : Bool := f.notices.any Notice.marksObsolete

/-- The accessors of a property are places in a list of functions. `storage` is the field that backs
it, and counts even if its name is empty. -/
structure Property where
  name : Text
  scope : Option Scope
  remark : Option Remark
  type : Text
  getter : Option Nat
  setter : Option Nat
  storage : Option Text
  deriving Repr

structure Enumerator where
  name : Text
  remark : Option Remark
  deriving DecidableEq, Repr

structure Enum where
  name : Text
  scope : Option Scope
  remark : Option Remark
  items : List Enumerator
  deriving Repr

structure ClassDecl where
  scope : Scope
  remark : Option Remark
  deriving Repr

end Apidoc
