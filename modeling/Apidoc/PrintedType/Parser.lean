import Apidoc.Text.Quoted
import Apidoc.PrintedType.Tree

/-!
Reading printed types. Parsing goes down from the type to its names; types outside the grammar are
kept as text.
-/
namespace Apidoc.PrintedType

inductive GrammarError
  | unexpectedCharacter (c : Char)
  | expectedName
  | missingName
  | unexpectedToken (text : Text)
  | unterminatedArguments
  deriving DecidableEq, Repr

def GrammarError.message (type : Text) : GrammarError → Text
  | .unexpectedCharacter c =>
    "Unexpected character ".toList ++ Text.quoted [c] ++ " in type ".toList ++ Text.quoted type
  | .expectedName => "Expected a name in type ".toList ++ Text.quoted type
  | .missingName => "Missing type name in ".toList ++ Text.quoted type
  | .unexpectedToken t =>
    "Unexpected ".toList ++ Text.quoted t ++ " in type ".toList ++ Text.quoted type
  | .unterminatedArguments => "Unterminated template arguments in type ".toList ++ Text.quoted type

abbrev Parsed (α : Type) := Except GrammarError (α × List Token)

def constWord : Text := "const".toList

def accept? (text : Text) : List Token → Option (List Token)
  | [] => none
  | t :: ts => if t.text = text then some ts else none

def constAt (ts : List Token) : Bool × List Token :=
  match accept? constWord ts with
  | some rest => (true, rest)
  | none => (false, ts)

/-- A sign needs a name behind it; alone it is a name itself. -/
def signAt : List Token → Option Sign × List Token
  | t :: u :: ts =>
    match Sign.ofText? t.text with
    | some sign =>
      if u.kind = .word ∧ u.text ≠ constWord then (some sign, u :: ts) else (none, t :: u :: ts)
    | none => (none, t :: u :: ts)
  | ts => (none, ts)

def combiningRun : List Token → List Text × List Token
  | [] => ([], [])
  | t :: ts =>
    if isCombining t.text then
      let (ws, rest) := combiningRun ts
      (t.text :: ws, rest)
    else ([], t :: ts)

def nameAt : List Token → Parsed (List Text)
  | [] => .error .expectedName
  | t :: ts =>
    if t.kind ≠ .word then .error .expectedName
    else if isCombining t.text then .ok (combiningRun (t :: ts))
    else .ok ([t.text], ts)

def decorations : List Token → (Bool × Nat) × List Token
  | [] => ((false, 0), [])
  | t :: ts =>
    if t.kind = .array ∨ t.text = ['*'] then
      let ((reference, pointers), rest) := decorations ts
      ((reference, pointers + 1), rest)
    else if t.text = ['&'] then
      let ((_, pointers), rest) := decorations ts
      ((true, pointers), rest)
    else if t.text = constWord then decorations ts
    else ((false, 0), t :: ts)

def spellingOf (ts rest : List Token) : Text :=
  canonical ((ts.take (ts.length - rest.length)).flatMap Token.source)

mutual

/-- Reads a type; the first argument bounds the depth, and every step down lowers it. -/
def typeAt : Nat → List Token → Parsed Tree
  | 0, _ => .error .missingName
  | fuel + 1, ts =>
    let (before, name) := constAt ts
    if name.isEmpty then .error .missingName
    else
      let (sign, ts₁) := signAt name
      match pathAt fuel ts₁ with
      | .error e => .error e
      | .ok (path, ts₂) =>
        let (behind, ts₃) := constAt ts₂
        let ((reference, pointers), rest) := decorations ts₃
        .ok (.mk ⟨before || behind, sign, reference, pointers, spellingOf name ts₂⟩ path, rest)

def pathAt : Nat → List Token → Parsed Path
  | 0, _ => .error .missingName
  | fuel + 1, ts =>
    match segmentAt fuel ts with
    | .error e => .error e
    | .ok (segment, ts₁) =>
      match accept? [':', ':'] ts₁ with
      | none => .ok (.base segment, ts₁)
      | some ts₂ =>
        match pathAt fuel ts₂ with
        | .error e => .error e
        | .ok (path, rest) => .ok (.inside segment path, rest)

def segmentAt : Nat → List Token → Parsed Segment
  | 0, _ => .error .missingName
  | fuel + 1, ts =>
    match nameAt ts with
    | .error e => .error e
    | .ok (words, ts₁) =>
      match accept? ['<'] ts₁ with
      | none => .ok (.plain words, ts₁)
      | some ts₂ =>
        match argumentsAt fuel ts₂ with
        | .error e => .error e
        | .ok (arguments, ts₃) =>
          match accept? ['>'] ts₃ with
          | none => .error .unterminatedArguments
          | some rest => .ok (.template words arguments, rest)

def argumentsAt : Nat → List Token → Parsed Arguments
  | 0, _ => .error .missingName
  | fuel + 1, ts =>
    match typeAt fuel ts with
    | .error e => .error e
    | .ok (type, ts₁) =>
      match accept? [','] ts₁ with
      | none => .ok (.one type, ts₁)
      | some ts₂ =>
        match argumentsAt fuel ts₂ with
        | .error e => .error e
        | .ok (others, rest) => .ok (.cons type others, rest)

end

/-- A depth that no row of tokens reaches: each token takes at most four steps down. -/
def depthBound (ts : List Token) : Nat := 4 * ts.length + 4

def parseTokens (ts : List Token) : Except GrammarError Tree :=
  match typeAt (depthBound ts) ts with
  | .error e => .error e
  | .ok (tree, []) => .ok tree
  | .ok (_, t :: _) => .error (.unexpectedToken t.text)

def parse (s : Text) : Except GrammarError Tree :=
  match tokens s with
  | .error c => .error (.unexpectedCharacter c)
  | .ok ts => parseTokens ts

/-- A printed type as it is searched for. -/
inductive Reading
  | tree (tree : Tree)
  | verbatim (const : Bool) (text : Text)
  deriving Repr

/-- Text outside the grammar is kept without outer blanks and without a `const` in front. -/
def verbatim (s : Text) : Reading :=
  match List.isPrefixOf? "const ".toList s with
  | some rest => .verbatim true (Text.trimLeft rest)
  | none => .verbatim false s

def read (s : Text) : Reading :=
  match parse s with
  | .ok tree => .tree tree
  | .error _ => verbatim (Text.trim s)

end Apidoc.PrintedType
