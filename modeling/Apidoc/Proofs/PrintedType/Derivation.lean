import Apidoc.PrintedType.Parser
import Apidoc.Proofs.PrintedType.Token

/-!
The grammar of printed types. A derivation keeps the tokens of its leaves, so that it is determined
by its row of tokens, and says which tree it stands for.
-/
namespace Apidoc.PrintedType

namespace Token

def isConst (t : Token) : Bool := t.text == constWord

def isSign (t : Token) : Bool := (Sign.ofText? t.text).isSome

def isPointer (t : Token) : Bool := t.kind == .array || t.text == ['*']

def isReference (t : Token) : Bool := t.text == ['&']

def isDecoration (t : Token) : Bool := t.isConst || t.isPointer || t.isReference

end Token

mutual

/-- A leading `const`, a sign, a name, and decorations. -/
inductive TypeNode
  | mk (lead sign : Option Token) (name : NameNode) (decorations : List Token)

inductive NameNode
  | base (segment : SegmentNode)
  | inside (scope : SegmentNode) (colons : Token) (name : NameNode)

inductive SegmentNode
  | plain (words : List Token)
  | template (words : List Token) (opening : Token) (arguments : ArgumentsNode) (closing : Token)

inductive ArgumentsNode
  | one (type : TypeNode)
  | cons (type : TypeNode) (comma : Token) (rest : ArgumentsNode)

end

mutual

def TypeNode.yield : TypeNode → List Token
  | .mk lead sign name decorations => lead.toList ++ (sign.toList ++ name.yield ++ decorations)

def NameNode.yield : NameNode → List Token
  | .base segment => segment.yield
  | .inside scope colons name => scope.yield ++ colons :: name.yield

def SegmentNode.yield : SegmentNode → List Token
  | .plain words => words
  | .template words opening arguments closing =>
    words ++ opening :: (arguments.yield ++ [closing])

def ArgumentsNode.yield : ArgumentsNode → List Token
  | .one type => type.yield
  | .cons type comma rest => type.yield ++ comma :: rest.yield

end

/-- One word that is no builtin word, or a run of builtin words. -/
def IsName (words : List Token) : Prop :=
  (∃ t, words = [t] ∧ t.kind = .word ∧ isCombining t.text = false) ∨
    (words ≠ [] ∧ ∀ t ∈ words, t.kind = .word ∧ isCombining t.text = true)

def SignLeads : List Token → Prop
  | t :: u :: _ => t.isSign ∧ u.kind = .word ∧ u.isConst = false
  | _ => False

mutual

/-- The rules of the grammar. A `const` in front is never part of the name, and a sign in front is
the name itself unless a word other than `const` follows. -/
def TypeNode.Valid : TypeNode → Prop
  | .mk lead sign name decorations =>
    (∀ t ∈ lead, t.isConst) ∧
      (lead = none → ∀ t, (sign.toList ++ name.yield).head? = some t → t.isConst = false) ∧
      (sign.isSome ↔ SignLeads (sign.toList ++ name.yield ++ decorations)) ∧
      name.Valid ∧ ∀ t ∈ decorations, t.isDecoration

def NameNode.Valid : NameNode → Prop
  | .base segment => segment.Valid
  | .inside scope colons name => scope.Valid ∧ colons.text = [':', ':'] ∧ name.Valid

def SegmentNode.Valid : SegmentNode → Prop
  | .plain words => IsName words
  | .template words opening arguments closing =>
    IsName words ∧ opening.text = ['<'] ∧ arguments.Valid ∧ closing.text = ['>']

def ArgumentsNode.Valid : ArgumentsNode → Prop
  | .one type => type.Valid
  | .cons type comma rest => type.Valid ∧ comma.text = [','] ∧ rest.Valid

end

mutual

/-- The type that a derivation stands for. It is `const` by the qualifier in front or by the first
decoration, and each star and each pair of brackets counts as a pointer. -/
def TypeNode.tree : TypeNode → Tree
  | .mk lead sign name decorations =>
    .mk
      { const := lead.isSome || decorations.head?.any Token.isConst
        sign := sign.bind fun t => Sign.ofText? t.text
        reference := decorations.any Token.isReference
        pointers := decorations.countP Token.isPointer
        spelling := canonical ((sign.toList ++ name.yield).flatMap Token.source) }
      name.path

def NameNode.path : NameNode → Path
  | .base segment => .base segment.segment
  | .inside scope _ name => .inside scope.segment name.path

def SegmentNode.segment : SegmentNode → Segment
  | .plain words => .plain (words.map Token.text)
  | .template words _ arguments _ => .template (words.map Token.text) arguments.arguments

def ArgumentsNode.arguments : ArgumentsNode → Arguments
  | .one type => .one type.tree
  | .cons type _ rest => .cons type.tree rest.arguments

end

/-- The grammar derives a row of tokens as a type. -/
def TypeNode.Derives (d : TypeNode) (ts : List Token) : Prop := d.Valid ∧ d.yield = ts

theorem IsName.ne_nil {words : List Token} (name : IsName words) : words ≠ [] := by
  rcases name with ⟨t, rfl, -, -⟩ | ⟨some, -⟩
  · exact List.cons_ne_nil _ _
  · exact some

theorem SegmentNode.yield_ne_nil {d : SegmentNode} (valid : d.Valid) : d.yield ≠ [] := by
  cases d with
  | plain words => exact IsName.ne_nil valid
  | template words opening arguments closing => simp [SegmentNode.yield]

theorem NameNode.yield_ne_nil {d : NameNode} (valid : d.Valid) : d.yield ≠ [] := by
  cases d with
  | base segment => exact SegmentNode.yield_ne_nil valid
  | inside scope colons name => simp [NameNode.yield]

theorem TypeNode.yield_ne_nil {d : TypeNode} (valid : d.Valid) : d.yield ≠ [] := by
  cases d with
  | mk lead sign name decorations =>
    have named := name.yield_ne_nil valid.2.2.2.1
    simp [TypeNode.yield, named]

end Apidoc.PrintedType
