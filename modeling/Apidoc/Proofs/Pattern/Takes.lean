import Apidoc.Pattern.Ends

/-!
What a pattern takes of a text, whatever the order of its choices. `Pattern.Takes before w rest`
tells that a pattern can match `w` between the character `before` and the text `rest`; the places
listed by `Pattern.ends` are exactly the ends of such matches.
-/
namespace Apidoc

def behind : Option Char → Text → Option Char
  | before, [] => before
  | _, c :: w => behind (some c) w

@[simp] theorem behind_nil (before : Option Char) : behind before [] = before := rfl

@[simp] theorem behind_cons (before : Option Char) (c : Char) (w : Text) :
    behind before (c :: w) = behind (some c) w := rfl

@[simp] theorem behind_append (before : Option Char) (u v : Text) :
    behind before (u ++ v) = behind (behind before u) v := by
  induction u generalizing before with
  | nil => rfl
  | cons c u ih => exact ih (some c)

theorem behind_eq_getLast? (before : Option Char) (w : Text) :
    behind before w = w.getLast?.or before := by
  induction w generalizing before with
  | nil => rfl
  | cons c w ih =>
    rw [behind_cons, ih, List.getLast?_cons]
    cases w.getLast? <;> rfl

/-- How a piece of text is taken: by the character in front of it and the text behind it. -/
abbrev Taking := Option Char → Text → Text → Prop

def TakesTimes (takes : Taking) : Nat → Taking
  | 0, _, w, _ => w = []
  | n + 1, before, w, rest =>
    ∃ u v, w = u ++ v ∧ takes before u (v ++ rest) ∧ TakesTimes takes n (behind before u) v rest

/-- The numbers of times that a repetition may stand for. -/
def Times.Allows (times : Times) (n : Nat) : Prop :=
  times.low ≤ n ∧ ∀ extra, times.extra? = some extra → n ≤ times.low + extra

def Pattern.Takes : Pattern → Taking
  | .empty, _, w, _ => w = []
  | .fixed t, _, w, _ => w = t
  | .quoted t, _, w, _ => w = t
  | .chars cls times, _, w, _ => (∀ c ∈ w, cls.accepts c) ∧ times.Allows w.length
  | .seq p q, before, w, rest =>
    ∃ u v, w = u ++ v ∧ p.Takes before u (v ++ rest) ∧ q.Takes (behind before u) v rest
  | .alt p q, before, w, rest => p.Takes before w rest ∨ q.Takes before w rest
  | .group p times, before, w, rest =>
    ∃ n, times.Allows n ∧ TakesTimes p.Takes n before w rest
  | .field _ p, before, w, rest => p.Takes before w rest
  | .start, before, w, _ => w = [] ∧ before = none
  | .finish, _, w, rest => w = [] ∧ (rest = [] ∨ rest = ['\n'])
  | .wordEdge, before, w, rest =>
    w = [] ∧ before.any Text.isWord ≠ rest.head?.any Text.isWord
  | .after cls, before, w, _ => w = [] ∧ before.any cls.accepts
  | .notAfter cls, before, w, _ => w = [] ∧ ¬ before.any cls.accepts
  | .notAhead p, before, w, rest =>
    w = [] ∧ ¬ ∃ u v, rest = u ++ v ∧ p.Takes before u v

structure Cursor.Passes (c : Cursor) (w : Text) (d : Cursor) : Prop where
  rest : c.rest = w ++ d.rest
  before : d.before = behind c.before w
  offset : d.offset = c.offset + w.length

theorem Cursor.Passes.refl (c : Cursor) : c.Passes [] c := ⟨rfl, rfl, rfl⟩

theorem Cursor.Passes.trans {c d e : Cursor} {u v : Text} (first : c.Passes u d)
    (second : d.Passes v e) : c.Passes (u ++ v) e where
  rest := by rw [first.rest, second.rest, List.append_assoc]
  before := by rw [second.before, first.before, behind_append]
  offset := by rw [second.offset, first.offset, List.length_append, Nat.add_assoc]

theorem Cursor.Passes.rest_eq {c d : Cursor} {w rest : Text} (passes : c.Passes w d)
    (split : c.rest = w ++ rest) : d.rest = rest :=
  List.append_cancel_left (passes.rest.symm.trans split)

theorem Cursor.Passes.cancel {c d e : Cursor} {u v : Text} (first : c.Passes u e)
    (whole : c.Passes (u ++ v) d) : e.Passes v d where
  rest := first.rest_eq (by rw [whole.rest, List.append_assoc])
  before := by rw [whole.before, behind_append, first.before]
  offset := by rw [whole.offset, first.offset, List.length_append, Nat.add_assoc]

/-- The places listed are the ends of the pieces taken. -/
structure Faithful (places : Cursor → List Cursor) (takes : Taking) : Prop where
  sound : ∀ {c d}, d ∈ places c → ∃ w, c.Passes w d ∧ takes c.before w d.rest
  complete : ∀ {c w rest}, c.rest = w ++ rest → takes c.before w rest →
    ∃ d ∈ places c, c.Passes w d

theorem Cursor.step?_eq_some {cls : CharClass} {c d : Cursor} (h : c.step? cls = some d) :
    ∃ a, cls.accepts a ∧ c.Passes [a] d ∧ d.captures = c.captures := by
  unfold step? at h
  split at h
  · cases h
  · rename_i a rest eq
    split at h
    · rename_i accepted
      cases h
      exact ⟨a, accepted, ⟨eq, rfl, rfl⟩, rfl⟩
    · cases h

theorem Cursor.step?_of_rest {cls : CharClass} {c : Cursor} {a : Char} {w : Text}
    (rest : c.rest = a :: w) (accepted : cls.accepts a) :
    ∃ d, c.step? cls = some d ∧ c.Passes [a] d ∧ d.captures = c.captures := by
  refine ⟨⟨some a, c.offset + 1, w, c.captures⟩, ?_, ⟨rest, rfl, rfl⟩, rfl⟩
  rw [step?, rest]
  exact if_pos accepted

theorem Cursor.stepText?_eq_some {t : Text} {c d : Cursor} (h : c.stepText? t = some d) :
    c.Passes t d := by
  induction t generalizing c with
  | nil => cases h; exact .refl _
  | cons a t ih =>
    simp only [stepText?, Option.bind_eq_some_iff] at h
    obtain ⟨e, first, later⟩ := h
    obtain ⟨b, same, passes, -⟩ := step?_eq_some first
    simp only [CharClass.accepts, beq_iff_eq] at same
    subst same
    exact passes.trans (ih later)

theorem Cursor.stepText?_of_rest {t rest : Text} {c : Cursor} (split : c.rest = t ++ rest) :
    ∃ d, c.stepText? t = some d := by
  induction t generalizing c with
  | nil => exact ⟨c, rfl⟩
  | cons a t ih =>
    obtain ⟨d, first, passes, -⟩ :=
      @step?_of_rest (.char a) c a _ split (by simp [CharClass.accepts])
    obtain ⟨e, later⟩ := ih (passes.rest_eq split)
    exact ⟨e, by simp [stepText?, first, later]⟩

theorem Cursor.stepMany?_eq_some {cls : CharClass} {n : Nat} {c d : Cursor}
    (h : c.stepMany? cls n = some d) :
    ∃ w, c.Passes w d ∧ w.length = n ∧ (∀ a ∈ w, cls.accepts a) ∧ d.captures = c.captures := by
  induction n generalizing c with
  | zero => cases h; exact ⟨[], .refl _, rfl, by simp, rfl⟩
  | succ n ih =>
    simp only [stepMany?, Option.bind_eq_some_iff] at h
    obtain ⟨e, first, later⟩ := h
    obtain ⟨a, accepted, passes, kept⟩ := step?_eq_some first
    obtain ⟨w, more, length, all, same⟩ := ih later
    refine ⟨a :: w, passes.trans more, by simp [length], ?_, same.trans kept⟩
    simpa [accepted] using all

theorem Cursor.stepMany?_of_rest {cls : CharClass} {w rest : Text} {c : Cursor}
    (split : c.rest = w ++ rest) (all : ∀ a ∈ w, cls.accepts a) :
    ∃ d, c.stepMany? cls w.length = some d ∧ c.Passes w d ∧ d.captures = c.captures := by
  induction w generalizing c with
  | nil => exact ⟨c, rfl, .refl c, rfl⟩
  | cons a w ih =>
    obtain ⟨accepted, others⟩ := List.forall_mem_cons.mp all
    obtain ⟨d, first, passes, kept⟩ := step?_of_rest split accepted
    obtain ⟨e, later, more, same⟩ := ih (passes.rest_eq split) others
    exact ⟨e, by simp [stepMany?, first, later], passes.trans more, same.trans kept⟩

theorem Cursor.Passes.eq_of_nil {c d : Cursor} (passes : c.Passes [] d)
    (kept : d.captures = c.captures) : d = c := by
  obtain ⟨rest, before, offset⟩ := passes
  cases c
  cases d
  simp_all

theorem Cursor.reach_append (cls : CharClass) (captures : List Capture) (nearer : List Cursor)
    (before : Option Char) (offset : Nat) (s : Text) (limit : Option Nat) :
    reach cls captures nearer before offset s limit =
      reach cls captures [] before offset s limit ++ nearer := by
  induction s generalizing nearer before offset limit with
  | nil => rfl
  | cons a s ih =>
    simp only [reach]
    split
    · rw [ih (_ :: nearer), ih [_], List.append_assoc, List.singleton_append]
    · rfl

theorem Cursor.mem_reach {cls : CharClass} {captures : List Capture} {before : Option Char}
    {offset : Nat} {s : Text} {limit : Option Nat} {d : Cursor} :
    d ∈ reach cls captures [] before offset s limit ↔
      ∃ w, (⟨before, offset, s, captures⟩ : Cursor).Passes w d ∧ (∀ a ∈ w, cls.accepts a) ∧
        (∀ n, limit = some n → w.length ≤ n) ∧ d.captures = captures := by
  induction s generalizing before offset limit with
  | nil =>
    simp only [reach, List.mem_singleton]
    constructor
    · rintro rfl
      exact ⟨[], .refl _, by simp, by simp, rfl⟩
    · intro reached
      obtain ⟨w, passes, -, -, kept⟩ := reached
      obtain rfl : w = [] := (List.append_eq_nil_iff.mp passes.rest.symm).1
      exact passes.eq_of_nil kept
  | cons a s ih =>
    -- either the place itself, or one behind the next character
    have further : d ∈ reach cls captures [] before offset (a :: s) limit ↔
        d = ⟨before, offset, a :: s, captures⟩ ∨ (limit ≠ some 0 ∧ cls.accepts a) ∧
          d ∈ reach cls captures [] (some a) (offset + 1) s (limit.map (· - 1)) := by
      rw [reach]
      split
      · rename_i more
        rw [reach_append, List.mem_append, List.mem_singleton, or_comm, and_iff_right more]
      · rename_i blocked
        rw [List.mem_singleton, or_iff_left fun reached => blocked reached.1]
    have here : (⟨before, offset, a :: s, captures⟩ : Cursor).Passes [a]
        ⟨some a, offset + 1, s, captures⟩ := ⟨rfl, rfl, rfl⟩
    rw [further, ih]
    constructor
    · intro member
      rcases member with rfl | ⟨⟨some, accepted⟩, w, passes, all, limited, kept⟩
      · exact ⟨[], .refl _, by simp, by simp, rfl⟩
      · refine ⟨a :: w, here.trans passes, by simpa [accepted] using all, ?_, kept⟩
        intro n eq
        have pos : n ≠ 0 := fun zero => some (zero ▸ eq)
        have := limited (n - 1) (by simp [eq])
        simp only [List.length_cons]
        omega
    · intro reached
      obtain ⟨w, passes, all, limited, kept⟩ := reached
      cases w with
      | nil => exact .inl (passes.eq_of_nil kept)
      | cons b w =>
        obtain rfl : a = b := (List.cons.inj passes.rest).1
        obtain ⟨accepted, others⟩ := List.forall_mem_cons.mp all
        refine .inr ⟨⟨?_, accepted⟩, w, here.cancel passes, others, ?_, kept⟩
        · intro zero
          simpa using limited 0 zero
        · intro n eq
          obtain ⟨m, rfl, rfl⟩ : ∃ m, limit = some m ∧ m - 1 = n := by simpa using eq
          have := limited m rfl
          simp only [List.length_cons] at this
          omega

theorem Cursor.mem_stops {cls : CharClass} {times : Times} {c d : Cursor} :
    d ∈ c.stops cls times ↔
      ∃ w, c.Passes w d ∧ (∀ a ∈ w, cls.accepts a) ∧ times.Allows w.length ∧
        d.captures = c.captures := by
  have places (e : Cursor) :
      d ∈ (if times.isLazy
        then (reach cls e.captures [] e.before e.offset e.rest times.extra?).reverse
        else reach cls e.captures [] e.before e.offset e.rest times.extra?) ↔
      ∃ w, e.Passes w d ∧ (∀ a ∈ w, cls.accepts a) ∧
        (∀ n, times.extra? = some n → w.length ≤ n) ∧ d.captures = e.captures := by
    split <;> simp only [List.mem_reverse, mem_reach]
  constructor
  · intro member
    unfold stops at member
    split at member
    · cases member
    · rename_i e first
      obtain ⟨u, passes, length, all, kept⟩ := stepMany?_eq_some first
      obtain ⟨v, more, others, limited, same⟩ := (places e).mp member
      refine ⟨u ++ v, passes.trans more, ?_, ⟨?_, ?_⟩, same.trans kept⟩
      · intro a member
        rcases List.mem_append.mp member with member | member
        · exact all a member
        · exact others a member
      · rw [List.length_append]
        omega
      · intro extra eq
        have := limited extra eq
        rw [List.length_append]
        omega
  · intro reached
    obtain ⟨w, passes, all, ⟨enough, limited⟩, kept⟩ := reached
    obtain ⟨u, v, rfl, length⟩ : ∃ u v, w = u ++ v ∧ u.length = times.low :=
      ⟨_, _, (List.take_append_drop times.low w).symm, by rw [List.length_take]; omega⟩
    obtain ⟨first, second⟩ := List.forall_mem_append.mp all
    obtain ⟨e, stepped, near, same⟩ :=
      stepMany?_of_rest (passes.rest.trans (List.append_assoc ..)) first
    rw [length] at stepped
    unfold stops
    rw [stepped]
    refine (places e).mpr ⟨v, near.cancel passes, second, ?_, kept.trans same.symm⟩
    intro n eq
    have := limited n eq
    rw [List.length_append] at this
    omega

theorem takesTimes_add {takes : Taking} {m n : Nat} {before : Option Char} {w rest : Text} :
    TakesTimes takes (m + n) before w rest ↔
      ∃ u v, w = u ++ v ∧ TakesTimes takes m before u (v ++ rest) ∧
        TakesTimes takes n (behind before u) v rest := by
  induction m generalizing before w with
  | zero =>
    rw [Nat.zero_add]
    constructor
    · intro taken
      exact ⟨[], w, rfl, rfl, taken⟩
    · intro taken
      obtain ⟨u, v, rfl, rfl, taken⟩ := taken
      exact taken
  | succ m ih =>
    rw [Nat.succ_add]
    constructor
    · intro taken
      obtain ⟨u, v, rfl, first, others⟩ := taken
      obtain ⟨x, y, rfl, some, more⟩ := ih.mp others
      refine ⟨u ++ x, y, (List.append_assoc ..).symm, ⟨u, x, rfl, ?_, some⟩, ?_⟩
      · rwa [List.append_assoc] at first
      · rwa [behind_append]
    · intro taken
      obtain ⟨u, v, rfl, ⟨x, y, rfl, first, some⟩, more⟩ := taken
      refine ⟨x, y ++ v, List.append_assoc .., ?_, ih.mpr ⟨y, v, rfl, some, ?_⟩⟩
      · rwa [List.append_assoc]
      · rwa [behind_append] at more

/-! Places stay faithful where patterns are put together. -/

theorem faithful_empty : Faithful (fun c => [c]) fun _ w _ => w = [] := by
  constructor
  · intro c d member
    obtain rfl := List.mem_singleton.mp member
    exact ⟨[], .refl _, rfl⟩
  · intro c w rest split taken
    cases taken
    exact ⟨c, List.mem_singleton_self c, .refl c⟩

section

variable {places others : Cursor → List Cursor} {takes takes' : Taking}

theorem Faithful.congr (body : Faithful places takes)
    (same : ∀ before w rest, takes before w rest ↔ takes' before w rest) :
    Faithful places takes' where
  sound member := by
    obtain ⟨w, passes, taken⟩ := body.sound member
    exact ⟨w, passes, (same _ _ _).mp taken⟩
  complete split taken := body.complete split ((same _ _ _).mpr taken)

theorem Faithful.seq (first : Faithful places takes) (second : Faithful others takes') :
    Faithful (fun c => (places c).flatMap others) fun before w rest =>
      ∃ u v, w = u ++ v ∧ takes before u (v ++ rest) ∧ takes' (behind before u) v rest := by
  constructor
  · intro c d member
    obtain ⟨e, near, later⟩ := List.mem_flatMap.mp member
    obtain ⟨u, passes, taken⟩ := first.sound near
    obtain ⟨v, more, next⟩ := second.sound later
    refine ⟨u ++ v, passes.trans more, u, v, rfl, ?_, ?_⟩
    · rwa [more.rest] at taken
    · rwa [passes.before] at next
  · intro c w rest split taken
    obtain ⟨u, v, rfl, taken, next⟩ := taken
    rw [List.append_assoc] at split
    obtain ⟨e, near, passes⟩ := first.complete split taken
    rw [← passes.before] at next
    obtain ⟨d, later, more⟩ := second.complete (passes.rest_eq split) next
    exact ⟨d, List.mem_flatMap.mpr ⟨e, near, later⟩, passes.trans more⟩

theorem Faithful.alt (first : Faithful places takes) (second : Faithful others takes') :
    Faithful (fun c => places c ++ others c) fun before w rest =>
      takes before w rest ∨ takes' before w rest := by
  constructor
  · intro c d member
    rcases List.mem_append.mp member with member | member
    · obtain ⟨w, passes, taken⟩ := first.sound member
      exact ⟨w, passes, .inl taken⟩
    · obtain ⟨w, passes, taken⟩ := second.sound member
      exact ⟨w, passes, .inr taken⟩
  · intro c w rest split taken
    rcases taken with taken | taken
    · obtain ⟨d, member, passes⟩ := first.complete split taken
      exact ⟨d, List.mem_append_left _ member, passes⟩
    · obtain ⟨d, member, passes⟩ := second.complete split taken
      exact ⟨d, List.mem_append_right _ member, passes⟩

theorem Faithful.keep (body : Faithful places takes) (field : Field) :
    Faithful (fun c => (places c).map fun d => d.keep field c) takes := by
  constructor
  · intro c d member
    obtain ⟨e, near, rfl⟩ := List.mem_map.mp member
    obtain ⟨w, passes, taken⟩ := body.sound near
    exact ⟨w, ⟨passes.rest, passes.before, passes.offset⟩, taken⟩
  · intro c w rest split taken
    obtain ⟨e, near, passes⟩ := body.complete split taken
    exact ⟨e.keep field c, List.mem_map.mpr ⟨e, near, rfl⟩,
      passes.rest, passes.before, passes.offset⟩

theorem faithful_condition (holds : Option Char → Text → Prop)
    (same : ∀ c d, d ∈ places c ↔ holds c.before c.rest ∧ d = c) :
    Faithful places (fun before w rest => w = [] ∧ holds before rest) := by
  constructor
  · intro c d member
    obtain ⟨condition, rfl⟩ := (same c d).mp member
    exact ⟨[], .refl _, rfl, condition⟩
  · intro c w rest split taken
    obtain ⟨rfl, condition⟩ := taken
    have : c.rest = rest := split
    exact ⟨c, (same c c).mpr ⟨this ▸ condition, rfl⟩, .refl c⟩

theorem Faithful.eq_nil_iff (body : Faithful places takes) (c : Cursor) :
    places c = [] ↔ ¬ ∃ u v, c.rest = u ++ v ∧ takes c.before u v := by
  constructor
  · intro nothing possible
    obtain ⟨u, v, split, taken⟩ := possible
    obtain ⟨e, member, -⟩ := body.complete split taken
    simp [nothing] at member
  · intro never
    apply List.eq_nil_iff_forall_not_mem.mpr
    intro e member
    obtain ⟨w, passes, taken⟩ := body.sound member
    exact never ⟨w, e.rest, passes.rest, taken⟩

end

theorem faithful_exactly {places : Cursor → List Cursor} {takes : Taking}
    (body : Faithful places takes) (n : Nat) :
    Faithful (endsExactly places n) (TakesTimes takes n) := by
  induction n with
  | zero => exact faithful_empty
  | succ n ih => exact body.seq ih

theorem sound_upTo {places : Cursor → List Cursor} {takes : Taking}
    (body : Faithful places takes) (isLazy : Bool) {n : Nat} {c d : Cursor}
    (member : d ∈ endsUpTo places isLazy n c) :
    ∃ k ≤ n, ∃ w, c.Passes w d ∧ TakesTimes takes k c.before w d.rest := by
  induction n generalizing c with
  | zero =>
    simp only [endsUpTo, List.mem_singleton] at member
    subst member
    exact ⟨0, Nat.le_refl 0, [], .refl _, rfl⟩
  | succ n ih =>
    have cases : d = c ∨ ∃ e ∈ places c, d ∈ endsUpTo places isLazy n e := by
      simp only [endsUpTo] at member
      split at member <;>
        simp only [List.mem_cons, List.mem_append, List.mem_flatMap, List.not_mem_nil,
          or_false] at member
      · rcases member with same | ⟨e, first, later⟩
        · exact .inl same
        · split at later
          · exact .inr ⟨e, first, later⟩
          · cases later
      · rcases member with ⟨e, first, later⟩ | same
        · split at later
          · exact .inr ⟨e, first, later⟩
          · cases later
        · exact .inl same
    rcases cases with rfl | ⟨e, first, later⟩
    · exact ⟨0, Nat.zero_le _, [], .refl _, rfl⟩
    · obtain ⟨u, passes, taken⟩ := body.sound first
      obtain ⟨k, bound, v, more, others⟩ := ih later
      refine ⟨k + 1, Nat.succ_le_succ bound, u ++ v, passes.trans more, u, v, rfl, ?_, ?_⟩
      · rwa [more.rest] at taken
      · rwa [passes.before] at others

/-- A repetition may drop its empty pieces, so it needs no more rounds than there are characters. -/
theorem complete_upTo {places : Cursor → List Cursor} {takes : Taking}
    (body : Faithful places takes) (isLazy : Bool) {n k : Nat} {c : Cursor} {w rest : Text}
    (split : c.rest = w ++ rest) (taken : TakesTimes takes k c.before w rest)
    (bound : k ≤ n ∨ w.length ≤ n) : ∃ d ∈ endsUpTo places isLazy n c, c.Passes w d := by
  induction k generalizing n c w with
  | zero =>
    cases taken
    refine ⟨c, ?_, .refl c⟩
    cases n with
    | zero => simp [endsUpTo]
    | succ n => cases isLazy <;> simp [endsUpTo]
  | succ k ih =>
    obtain ⟨u, v, rfl, first, others⟩ := taken
    cases u with
    | nil => exact ih split others (bound.imp_left (by omega))
    | cons a u =>
      rw [List.append_assoc] at split
      obtain ⟨e, near, passes⟩ := body.complete split first
      rw [← passes.before] at others
      cases n with
      | zero => simp at bound
      | succ n =>
        obtain ⟨d, later, more⟩ := ih (n := n) (passes.rest_eq split) others (by
          simp only [List.length_append, List.length_cons] at bound
          omega)
        have further : c.offset < e.offset := by
          rw [passes.offset, List.length_cons]
          omega
        have again : d ∈ (places c).flatMap fun d =>
            if c.offset < d.offset then endsUpTo places isLazy n d else [] :=
          List.mem_flatMap.mpr ⟨e, near, by simpa [further] using later⟩
        refine ⟨d, ?_, passes.trans more⟩
        cases isLazy <;> simp only [endsUpTo, Bool.false_eq_true, if_true, if_false]
        · exact List.mem_append_left _ again
        · exact .tail _ again

theorem faithful_upTo {places : Cursor → List Cursor} {takes : Taking}
    (body : Faithful places takes) (isLazy : Bool) (extra? : Option Nat) :
    Faithful (fun d => endsUpTo places isLazy (extra?.getD d.rest.length) d) fun before w rest =>
      ∃ k, (∀ extra, extra? = some extra → k ≤ extra) ∧ TakesTimes takes k before w rest := by
  constructor
  · intro c d member
    obtain ⟨k, bound, w, passes, taken⟩ := sound_upTo body _ member
    refine ⟨w, passes, k, ?_, taken⟩
    intro extra eq
    rwa [eq, Option.getD_some] at bound
  · intro c w rest split taken
    obtain ⟨k, limited, taken⟩ := taken
    apply complete_upTo body isLazy split taken
    cases eq : extra? with
    | none =>
      right
      rw [Option.getD_none, split, List.length_append]
      omega
    | some extra => exact .inl (limited extra eq)

theorem faithful_group {places : Cursor → List Cursor} {takes : Taking}
    (body : Faithful places takes) (times : Times) :
    Faithful
      (fun c => (endsExactly places times.low c).flatMap fun d =>
        endsUpTo places times.isLazy (times.extra?.getD d.rest.length) d)
      (fun before w rest => ∃ n, times.Allows n ∧ TakesTimes takes n before w rest) := by
  apply ((faithful_exactly body _).seq (faithful_upTo body times.isLazy times.extra?)).congr
  intro before w rest
  constructor
  · intro taken
    obtain ⟨u, v, rfl, taken, k, limited, others⟩ := taken
    refine ⟨times.low + k, ⟨Nat.le_add_right _ _, ?_⟩, takesTimes_add.mpr ⟨u, v, rfl, taken, others⟩⟩
    intro extra eq
    exact Nat.add_le_add_left (limited extra eq) _
  · intro taken
    obtain ⟨n, ⟨enough, limited⟩, taken⟩ := taken
    obtain ⟨k, rfl⟩ := Nat.exists_eq_add_of_le enough
    obtain ⟨u, v, rfl, first, others⟩ := takesTimes_add.mp taken
    refine ⟨u, v, rfl, first, k, ?_, others⟩
    intro extra eq
    exact Nat.add_le_add_iff_left.mp (limited extra eq)

/-- The places behind a pattern's matches are the ends of the texts that it takes. -/
theorem Pattern.faithful (p : Pattern) : Faithful p.ends p.Takes := by
  induction p with
  | empty => exact faithful_empty
  | fixed t | quoted t =>
    constructor
    · intro c d member
      exact ⟨t, Cursor.stepText?_eq_some (Option.mem_toList.mp member), rfl⟩
    · intro c w rest split taken
      cases taken
      obtain ⟨d, passed⟩ := Cursor.stepText?_of_rest split
      exact ⟨d, Option.mem_toList.mpr passed, Cursor.stepText?_eq_some passed⟩
  | chars cls times =>
    constructor
    · intro c d member
      obtain ⟨w, passes, all, allowed, -⟩ := Cursor.mem_stops.mp member
      exact ⟨w, passes, all, allowed⟩
    · intro c w rest split taken
      obtain ⟨all, allowed⟩ := taken
      let d : Cursor := ⟨behind c.before w, c.offset + w.length, rest, c.captures⟩
      have passes : c.Passes w d := ⟨split, rfl, rfl⟩
      exact ⟨d, Cursor.mem_stops.mpr ⟨w, passes, all, allowed, rfl⟩, passes⟩
  | seq p q first second => exact first.seq second
  | alt p q first second => exact first.alt second
  | group p times body => exact faithful_group body times
  | field name p body => exact body.keep name
  | start =>
    apply faithful_condition (fun before _ => before = none)
    intro c d
    simp [ends]
  | finish =>
    apply faithful_condition (fun _ rest => rest = [] ∨ rest = ['\n'])
    intro c d
    simp [ends, Cursor.isFinish]
  | wordEdge =>
    apply faithful_condition (fun before rest =>
      before.any Text.isWord ≠ rest.head?.any Text.isWord)
    intro c d
    simp [ends, Cursor.isWordEdge]
  | after cls =>
    apply faithful_condition (fun before _ => before.any cls.accepts)
    intro c d
    simp [ends]
  | notAfter cls =>
    apply faithful_condition (fun before _ => ¬ before.any cls.accepts)
    intro c d
    simp [ends]
  | notAhead p body =>
    apply faithful_condition (fun before rest => ¬ ∃ u v, rest = u ++ v ∧ p.Takes before u v)
    intro c d
    simp [ends, body.eq_nil_iff]

namespace Pattern

theorem matchesAll_iff {p : Pattern} {s : Text} : p.matchesAll s ↔ p.Takes none s [] := by
  unfold matchesAll
  rw [run_eq_findSome?, List.findSome?_isSome_iff]
  constructor
  · intro reached
    obtain ⟨d, member, reached⟩ := reached
    obtain ⟨w, passes, taken⟩ := p.faithful.sound member
    have done : d.rest = [] := by
      cases remains : d.rest with
      | nil => rfl
      | cons a r => simp [remains] at reached
    have whole : s = w := by simpa [Cursor.atStart, done] using passes.rest
    rw [whole, ← done]
    exact taken
  · intro taken
    obtain ⟨d, member, passes⟩ :=
      p.faithful.complete (c := .atStart s) (List.append_nil s).symm taken
    have done : d.rest = [] := passes.rest_eq (List.append_nil s).symm
    exact ⟨d, member, by simp [done]⟩

/-- A part without named parts keeps what was captured before it. -/
def Silent (places : Cursor → List Cursor) : Prop :=
  ∀ {c d}, d ∈ places c → d.captures = c.captures

theorem silent_exactly {places : Cursor → List Cursor} (body : Silent places) (n : Nat) :
    Silent (endsExactly places n) := by
  induction n with
  | zero =>
    intro c d member
    simp only [endsExactly, List.mem_singleton] at member
    rw [member]
  | succ n ih =>
    intro c d member
    obtain ⟨e, first, later⟩ := List.mem_flatMap.mp member
    exact (ih later).trans (body first)

theorem silent_upTo {places : Cursor → List Cursor} (body : Silent places) (isLazy : Bool)
    (n : Nat) : Silent (endsUpTo places isLazy n) := by
  induction n with
  | zero =>
    intro c d member
    simp only [endsUpTo, List.mem_singleton] at member
    rw [member]
  | succ n ih =>
    intro c d member
    have again : d ∈ ((places c).flatMap fun d =>
        if c.offset < d.offset then endsUpTo places isLazy n d else []) →
        d.captures = c.captures := by
      intro member
      obtain ⟨e, first, later⟩ := List.mem_flatMap.mp member
      split at later
      · exact (ih later).trans (body first)
      · cases later
    cases isLazy <;> simp only [endsUpTo, Bool.false_eq_true, if_true, if_false] at member
    · rcases List.mem_append.mp member with member | member
      · exact again member
      · rw [List.mem_singleton.mp member]
    · rcases List.mem_cons.mp member with same | member
      · rw [same]
      · exact again member

theorem stepText?_captures {t : Text} {c d : Cursor} (h : c.stepText? t = some d) :
    d.captures = c.captures := by
  induction t generalizing c with
  | nil => cases h; rfl
  | cons a t ih =>
    simp only [Cursor.stepText?, Option.bind_eq_some_iff] at h
    obtain ⟨e, first, later⟩ := h
    obtain ⟨-, -, -, kept⟩ := Cursor.step?_eq_some first
    exact (ih later).trans kept

theorem silent_of_fields {p : Pattern} (unnamed : p.fields = []) : Silent p.ends := by
  induction p with
  | empty =>
    intro c d member
    rw [List.mem_singleton.mp member]
  | fixed t | quoted t =>
    intro c d member
    exact stepText?_captures (Option.mem_toList.mp member)
  | chars cls times =>
    intro c d member
    obtain ⟨-, -, -, -, kept⟩ := Cursor.mem_stops.mp member
    exact kept
  | seq p q first second =>
    obtain ⟨left, right⟩ := List.append_eq_nil_iff.mp unnamed
    intro c d member
    obtain ⟨e, near, later⟩ := List.mem_flatMap.mp member
    exact (second right later).trans (first left near)
  | alt p q first second =>
    obtain ⟨left, right⟩ := List.append_eq_nil_iff.mp unnamed
    intro c d member
    rcases List.mem_append.mp member with member | member
    · exact first left member
    · exact second right member
  | group p times body =>
    intro c d member
    obtain ⟨e, near, later⟩ := List.mem_flatMap.mp member
    exact (silent_upTo (body unnamed) _ _ later).trans (silent_exactly (body unnamed) _ near)
  | field name p => cases unnamed
  | start | finish | wordEdge | after | notAfter | notAhead =>
    intro c d member
    simp only [ends] at member
    split at member <;> simp_all

end Pattern

end Apidoc
