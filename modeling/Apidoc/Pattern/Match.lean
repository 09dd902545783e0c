import Apidoc.Pattern.Basic

/-!
Matching by ordered backtracking: of all ways to match, the first in the order of preference is
taken, and a search takes the leftmost place that has one.
-/
namespace Apidoc

/-- A named part: the first `length` characters of `source`. -/
structure Capture where
  field : Field
  source : Text
  length : Nat
  deriving DecidableEq, Repr

def Capture.text (c : Capture) : Text := c.source.take c.length

/-- A place in a text, and the named parts found on the way there, the latest first. -/
structure Cursor where
  before : Option Char
  offset : Nat
  rest : Text
  captures : List Capture
  deriving DecidableEq, Repr

namespace Cursor

def atStart (s : Text) : Cursor := ⟨none, 0, s, []⟩

def step? (cls : CharClass) (c : Cursor) : Option Cursor :=
  match c.rest with
  | [] => none
  | d :: ds => if cls.accepts d then some ⟨some d, c.offset + 1, ds, c.captures⟩ else none

def stepText? : Text → Cursor → Option Cursor
  | [], c => some c
  | d :: ds, c => (c.step? (.char d)).bind (stepText? ds)

def stepMany? (cls : CharClass) : Nat → Cursor → Option Cursor
  | 0, c => some c
  | n + 1, c => (c.step? cls).bind (stepMany? cls n)

/-- The places reached from here through characters of the class, at most `limit` of them, the
furthest place first; `nearer` come last. -/
def reach (cls : CharClass) (captures : List Capture) (nearer : List Cursor) :
    Option Char → Nat → Text → Option Nat → List Cursor
  | before, offset, [], _ => ⟨before, offset, [], captures⟩ :: nearer
  | before, offset, d :: ds, limit =>
    let here : Cursor := ⟨before, offset, d :: ds, captures⟩
    if limit ≠ some 0 ∧ cls.accepts d then
      reach cls captures (here :: nearer) (some d) (offset + 1) ds (limit.map (· - 1))
    else here :: nearer

def stops (cls : CharClass) (times : Times) (c : Cursor) : List Cursor :=
  match c.stepMany? cls times.low with
  | none => []
  | some d =>
    let places := reach cls d.captures [] d.before d.offset d.rest times.extra?
    if times.isLazy then places.reverse else places

def keep (c : Cursor) (field : Field) (opened : Cursor) : Cursor :=
  { c with captures := ⟨field, opened.rest, c.offset - opened.offset⟩ :: c.captures }

/-- The end of the text, or the place before a line feed that ends it. -/
def isFinish (c : Cursor) : Bool := c.rest.isEmpty || c.rest == ['\n']

def isWordEdge (c : Cursor) : Bool := c.before.any Text.isWord != c.rest.head?.any Text.isWord

end Cursor

/-- What may follow a part: `none` makes the part try its next way. -/
abbrev Follow := Cursor → Option Cursor

def repeatExactly (body : Cursor → Follow → Option Cursor) :
    Nat → Cursor → Follow → Option Cursor
  | 0, c, k => k c
  | n + 1, c, k => body c fun d => repeatExactly body n d k

/-- Repeats a part at most so many times; each time has to take something of the text. -/
def repeatUpTo (body : Cursor → Follow → Option Cursor) (isLazy : Bool) :
    Nat → Cursor → Follow → Option Cursor
  | 0, c, k => k c
  | n + 1, c, k =>
    let again := fun _ : Unit => body c fun d =>
      if c.offset < d.offset then repeatUpTo body isLazy n d k else none
    if isLazy then k c <|> again () else again () <|> k c

namespace Pattern

/-- Matches from a place on and hands the places behind the match to `k` until one will do. -/
def run : Pattern → Cursor → Follow → Option Cursor
  | .empty, c, k => k c
  | .fixed t, c, k => (c.stepText? t).bind k
  | .quoted t, c, k => (c.stepText? t).bind k
  | .chars cls times, c, k => (c.stops cls times).findSome? k
  | .seq p q, c, k => p.run c fun d => q.run d k
  | .alt p q, c, k => p.run c k <|> q.run c k
  | .group p times, c, k =>
    repeatExactly p.run times.low c fun d =>
      repeatUpTo p.run times.isLazy (times.extra?.getD d.rest.length) d k
  | .field name p, c, k => p.run c fun d => k (d.keep name c)
  | .start, c, k => if c.before.isNone then k c else none
  | .finish, c, k => if c.isFinish then k c else none
  | .wordEdge, c, k => if c.isWordEdge then k c else none
  | .after cls, c, k => if c.before.any cls.accepts then k c else none
  | .notAfter cls, c, k => if c.before.any cls.accepts then none else k c
  | .notAhead p, c, k => if (p.run c some).isSome then none else k c

end Pattern

structure Match where
  start : Nat
  stop : Cursor
  deriving DecidableEq, Repr

def Match.get? (m : Match) (field : Field) : Option Text :=
  (m.stop.captures.find? (·.field = field)).map Capture.text

def Match.get (m : Match) (field : Field) : Text := (m.get? field).getD []

namespace Pattern

def matchAt? (p : Pattern) (c : Cursor) : Option Match :=
  (p.run c some).map fun d => ⟨c.offset, d⟩

def searchFrom? (p : Pattern) : Option Char → Nat → Text → Option Match
  | before, offset, [] => p.matchAt? ⟨before, offset, [], []⟩
  | before, offset, d :: ds =>
    p.matchAt? ⟨before, offset, d :: ds, []⟩ <|> searchFrom? p (some d) (offset + 1) ds

def search? (p : Pattern) (s : Text) : Option Match := p.searchFrom? none 0 s

def matchStart? (p : Pattern) (s : Text) : Option Match := p.matchAt? (.atStart s)

def matchesAll (p : Pattern) (s : Text) : Bool :=
  (p.run (.atStart s) fun d => if d.rest.isEmpty then some d else none).isSome

/-- Removes matches from left to right; the first `skip` characters belong to one. -/
def removeFrom (p : Pattern) : Nat → Option Char → Nat → Text → Text
  | _, _, _, [] => []
  | skip + 1, _, offset, d :: ds => p.removeFrom skip (some d) (offset + 1) ds
  | 0, before, offset, d :: ds =>
    match p.matchAt? ⟨before, offset, d :: ds, []⟩ with
    | some m =>
      if m.stop.offset = offset then d :: p.removeFrom 0 (some d) (offset + 1) ds
      else p.removeFrom (m.stop.offset - offset - 1) (some d) (offset + 1) ds
    | none => d :: p.removeFrom 0 (some d) (offset + 1) ds

def removeAll (p : Pattern) (s : Text) : Text := p.removeFrom 0 none 0 s

end Pattern

end Apidoc
