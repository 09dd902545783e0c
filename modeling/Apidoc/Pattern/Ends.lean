import Apidoc.Pattern.Match

/-!
All the ways in which a pattern matches. `Pattern.ends` lists the places behind its matches in the
order of preference, and a run takes the first of them that will do.
-/
namespace Apidoc

def endsExactly (body : Cursor → List Cursor) : Nat → Cursor → List Cursor
  | 0, c => [c]
  | n + 1, c => (body c).flatMap (endsExactly body n)

def endsUpTo (body : Cursor → List Cursor) (isLazy : Bool) : Nat → Cursor → List Cursor
  | 0, c => [c]
  | n + 1, c =>
    let again := (body c).flatMap fun d =>
      if c.offset < d.offset then endsUpTo body isLazy n d else []
    if isLazy then c :: again else again ++ [c]

def Pattern.ends : Pattern → Cursor → List Cursor
  | .empty, c => [c]
  | .fixed t, c => (c.stepText? t).toList
  | .quoted t, c => (c.stepText? t).toList
  | .chars cls times, c => c.stops cls times
  | .seq p q, c => (p.ends c).flatMap q.ends
  | .alt p q, c => p.ends c ++ q.ends c
  | .group p times, c =>
    (endsExactly p.ends times.low c).flatMap fun d =>
      endsUpTo p.ends times.isLazy (times.extra?.getD d.rest.length) d
  | .field name p, c => (p.ends c).map fun d => d.keep name c
  | .start, c => if c.before.isNone then [c] else []
  | .finish, c => if c.isFinish then [c] else []
  | .wordEdge, c => if c.isWordEdge then [c] else []
  | .after cls, c => if c.before.any cls.accepts then [c] else []
  | .notAfter cls, c => if c.before.any cls.accepts then [] else [c]
  | .notAhead p, c => if (p.ends c).isEmpty then [c] else []

theorem findSome?_flatMap {α β γ : Type} (f : α → List β) (k : β → Option γ) (l : List α) :
    (l.flatMap f).findSome? k = l.findSome? fun a => (f a).findSome? k := by
  induction l with
  | nil => rfl
  | cons a l ih =>
    rw [List.flatMap_cons, List.findSome?_append, ih, List.findSome?_cons]
    cases (f a).findSome? k <;> rfl

variable {body : Cursor → Follow → Option Cursor} {places : Cursor → List Cursor}

theorem repeatExactly_eq_findSome? (same : ∀ c k, body c k = (places c).findSome? k)
    (n : Nat) (c : Cursor) (k : Follow) :
    repeatExactly body n c k = (endsExactly places n c).findSome? k := by
  induction n generalizing c with
  | zero => simp [repeatExactly, endsExactly]
  | succ n ih => simp [repeatExactly, endsExactly, same, ih, findSome?_flatMap]

theorem repeatUpTo_eq_findSome? (same : ∀ c k, body c k = (places c).findSome? k)
    (isLazy : Bool) (n : Nat) (c : Cursor) (k : Follow) :
    repeatUpTo body isLazy n c k = (endsUpTo places isLazy n c).findSome? k := by
  induction n generalizing c with
  | zero => simp [repeatUpTo, endsUpTo]
  | succ n ih =>
    have next (d : Cursor) :
        (if c.offset < d.offset then repeatUpTo body isLazy n d k else none) =
          (if c.offset < d.offset then endsUpTo places isLazy n d else []).findSome? k := by
      split <;> simp [ih]
    cases isLazy <;>
      simp only [repeatUpTo, endsUpTo, same, next, Bool.false_eq_true, if_true, if_false]
    · rw [List.findSome?_append, findSome?_flatMap]
      simp only [List.findSome?_cons, List.findSome?_nil]
      cases k c <;> simp
    · rw [List.findSome?_cons, findSome?_flatMap]
      cases k c <;> rfl

/-- A run answers with the first place that satisfies what follows. -/
theorem Pattern.run_eq_findSome? (p : Pattern) (c : Cursor) (k : Follow) :
    p.run c k = (p.ends c).findSome? k := by
  induction p generalizing c k with
  | seq p q hp hq => simp [run, ends, hp, hq, findSome?_flatMap]
  | alt p q hp hq => simp [run, ends, hp, hq, List.findSome?_append]
  | group p times hp =>
    simp [run, ends, repeatExactly_eq_findSome? hp, repeatUpTo_eq_findSome? hp, findSome?_flatMap]
  | field name p hp => simp [run, ends, hp, List.findSome?_map, Function.comp_def]
  | fixed t => cases h : c.stepText? t <;> simp [run, ends, h]
  | quoted t => cases h : c.stepText? t <;> simp [run, ends, h]
  | notAhead p hp => cases h : p.ends c <;> simp [run, ends, hp, h]
  | chars => rfl
  | empty => simp [run, ends]
  | start | finish | wordEdge | after | notAfter =>
    simp only [run, ends]
    split <;> simp

end Apidoc
