import Apidoc.Proofs.Pattern.Notation
import Apidoc.Proofs.Pattern.Parts

/-!
What is written for a pattern is well formed and reads back as a pattern that matches at the same
places in the same order, and has the same named parts.
-/
namespace Apidoc.Notation

open Pattern

def isMarked : Times → Bool
  | .exactly _ | .between _ _ | .atLeast _ => false
  | _ => true

def isRepeat (times : Times) : Bool := isMarked times || isBraced times

theorem readFrom?_mark {mark : Char} {part repeated : Pattern} (f : Frame)
    (outer : List (Opening × Frame)) (r : Text) (known : ['?', '*', '+'].contains mark)
    (made : repeated? (marked? · mark) part = some repeated) :
    readFrom? (mark :: r) (f.push part, outer) = readFrom? r (f.push repeated, outer) := by
  have found : symbol? (mark :: r) = some (.repeated mark, r) := by
    have marks : mark = '?' ∨ mark = '*' ∨ mark = '+' := by simpa using known
    rcases marks with rfl | rfl | rfl <;> rfl
  apply readFrom?_symbol found
  simp [step?, Frame.push, Frame.repeated?, made]

theorem readFrom?_times (part : Times → Pattern) {times : Times} (sound : isRepeat times)
    (repeats : ∀ t change, repeated? change (part t) = (change t).map part)
    (f : Frame) (outer : List (Opening × Frame)) (r : Text) :
    readFrom? (times.written ++ r) (f.push (part .one), outer) =
      readFrom? r (f.push (part times), outer) := by
  have mark {t u : Times} {c : Char} (known : ['?', '*', '+'].contains c)
      (makes : marked? t c = some u) (r : Text) :
      readFrom? (c :: r) (f.push (part t), outer) = readFrom? r (f.push (part u), outer) :=
    readFrom?_mark f outer r known (by rw [repeats, makes]; rfl)
  cases marked : isMarked times with
  | false =>
    have braced : isBraced times := by simpa [isRepeat, marked] using sound
    apply readFrom?_symbol (symbol?_times braced r)
    simp [step?, Frame.push, Frame.repeated?, repeats, counted]
  | true =>
    cases times with
    | one => rfl
    | optional | star | plus => exact mark rfl rfl r
    | lazyStar => exact (mark (u := .star) rfl rfl _).trans (mark rfl rfl r)
    | lazyPlus => exact (mark (u := .plus) rfl rfl _).trans (mark rfl rfl r)
    | exactly | between | atLeast => cases marked

def Frame.pushText (f : Frame) (t : Text) : Frame :=
  t.foldl (fun f c => f.push (.chars (.char c) .one)) f

/-- What reading the written form of a pattern adds to the group that it stands in. -/
def feed : Pattern → Frame → Frame
  | .empty, f => f
  | .fixed t, f | .quoted t, f => f.pushText t
  | .seq p q, f => feed q (feed p f)
  | .alt p q, f => feed q (feed p f).bar
  | .group p times, f => f.push (.group (feed p .new).close times)
  | .field name p, f => f.push (.field name (feed p .new).close)
  | .notAhead p, f => f.push (.notAhead (feed p .new).close)
  | p, f => f.push p

def isAlt : Pattern → Bool
  | .alt _ _ => true
  | _ => false

/-- The written form keeps the parts apart: choices in a row have groups around them. -/
def isWritable : Pattern → Bool
  | .empty | .fixed _ | .quoted _ | .start | .finish | .wordEdge => true
  | .chars cls times => isReadable cls && isRepeat times
  | .seq p q => isWritable p && isWritable q && !isAlt p && !isAlt q
  | .alt p q => isWritable p && isWritable q
  | .group p times => isWritable p && isRepeat times
  | .field _ p | .notAhead p => isWritable p
  | .after cls | .notAfter cls => isReadable cls

theorem readFrom?_chars {escape : Char → Text}
    (reads : ∀ c r, symbol? (escape c ++ r) = some (.one (.char c), r)) (t : Text) (f : Frame)
    (outer : List (Opening × Frame)) (r : Text) :
    readFrom? (t.flatMap escape ++ r) (f, outer) = readFrom? r (f.pushText t, outer) := by
  induction t generalizing f with
  | nil => rfl
  | cons c t ih =>
    rw [List.flatMap_cons, List.append_assoc, readFrom?_symbol (reads c _) rfl, ih]
    rfl

theorem symbol?_label (name : Field) (r : Text) :
    symbol? ("(?P<".toList ++ name.label ++ ">".toList ++ r) = some (.opening (.named name), r) := by
  cases name <;> rfl

theorem readFrom?_enclosed {opening body : Text} {kind : Opening} {inside : Frame} {part : Pattern}
    (opens : ∀ r, symbol? (opening ++ r) = some (.opening kind, r))
    (reads : ∀ outer r, readFrom? (body ++ r) (.new, outer) = readFrom? r (inside, outer))
    (makes : part? kind inside.close = some part) (f : Frame) (outer : List (Opening × Frame))
    (r : Text) :
    readFrom? (enclosed opening body ++ r) (f, outer) = readFrom? r (f.push part, outer) := by
  have closing (s : Text) : symbol? (")".toList ++ s) = some (.closing, s) := rfl
  have closed : step? .closing (inside, (kind, f) :: outer) = some (f.push part, outer) := by
    rw [step?, makes]
    rfl
  rw [enclosed, List.append_assoc, List.append_assoc, readFrom?_symbol (opens _) rfl, reads,
    readFrom?_symbol (closing _) closed]

theorem readFrom?_written {p : Pattern} (writable : isWritable p) (f : Frame)
    (outer : List (Opening × Frame)) (r : Text) :
    readFrom? (p.written ++ r) (f, outer) = readFrom? r (feed p f, outer) := by
  induction p generalizing f outer r with
  | empty => rfl
  | fixed t => exact readFrom?_chars symbol?_escapeFixed t f outer r
  | quoted t => exact readFrom?_chars symbol?_escapeQuoted t f outer r
  | chars cls times =>
    obtain ⟨readable, sound⟩ := Bool.and_eq_true_iff.mp writable
    rw [Pattern.written, List.append_assoc, readFrom?_symbol (symbol?_class readable _) rfl]
    exact readFrom?_times (.chars cls) sound (fun _ _ => rfl) f outer r
  | seq p q first second =>
    simp only [isWritable, Bool.and_eq_true] at writable
    rw [Pattern.written, List.append_assoc, first writable.1.1.1, second writable.1.1.2]
    rfl
  | alt p q first second =>
    obtain ⟨left, right⟩ := Bool.and_eq_true_iff.mp writable
    have bar (s : Text) : symbol? ("|".toList ++ s) = some (.bar, s) := rfl
    rw [Pattern.written, List.append_assoc, List.append_assoc, first left,
      readFrom?_symbol (bar _) rfl, second right]
    rfl
  | group p times body =>
    obtain ⟨inner, sound⟩ := Bool.and_eq_true_iff.mp writable
    rw [Pattern.written, List.append_assoc,
      readFrom?_enclosed (fun _ => rfl) (fun _ _ => body inner ..) rfl]
    exact readFrom?_times (.group _) sound (fun _ _ => rfl) f outer r
  | field name p body =>
    exact readFrom?_enclosed (symbol?_label name) (fun _ _ => body writable ..) rfl f outer r
  | notAhead p body =>
    exact readFrom?_enclosed (fun _ => rfl) (fun _ _ => body writable ..) rfl f outer r
  | after cls | notAfter cls =>
    have one (outer : List (Opening × Frame)) (r : Text) :
        readFrom? (cls.written ++ r) (.new, outer) =
          readFrom? r (Frame.new.push (.chars cls .one), outer) :=
      readFrom?_symbol (symbol?_class writable _) rfl
    exact readFrom?_enclosed (fun _ => rfl) one rfl f outer r
  | start | finish | wordEdge => exact readFrom?_symbol rfl rfl

/-! Reading keeps what a pattern matches. -/

/-- Two patterns match at the same places, in the same order, and have the same named parts. -/
structure Same (p q : Pattern) : Prop where
  ends : p.ends = q.ends
  fields : p.fields = q.fields

section

variable {p p' q q' : Pattern}

theorem Same.refl (p : Pattern) : Same p p := ⟨rfl, rfl⟩

theorem Same.symm (same : Same p q) : Same q p := ⟨same.ends.symm, same.fields.symm⟩

theorem Same.trans {r : Pattern} (first : Same p q) (second : Same q r) : Same p r :=
  ⟨first.ends.trans second.ends, first.fields.trans second.fields⟩

theorem Same.seq (first : Same p p') (second : Same q q') : Same (.seq p q) (.seq p' q') := by
  constructor
  · funext c
    simp only [Pattern.ends, first.ends, second.ends]
  · simp only [Pattern.fields, first.fields, second.fields]

theorem Same.alt (first : Same p p') (second : Same q q') : Same (.alt p q) (.alt p' q') := by
  constructor
  · funext c
    simp only [Pattern.ends, first.ends, second.ends]
  · simp only [Pattern.fields, first.fields, second.fields]

theorem Same.group (body : Same p q) (times : Times) : Same (.group p times) (.group q times) := by
  constructor
  · funext c
    simp only [Pattern.ends, body.ends]
  · exact body.fields

theorem Same.field (body : Same p q) (name : Field) : Same (.field name p) (.field name q) := by
  constructor
  · funext c
    simp only [Pattern.ends, body.ends]
  · exact congrArg (name :: ·) body.fields

theorem Same.notAhead (body : Same p q) : Same (.notAhead p) (.notAhead q) := by
  constructor
  · funext c
    simp only [Pattern.ends, body.ends]
  · rfl

theorem same_seq_empty (p : Pattern) : Same (.seq p .empty) p :=
  ⟨funext fun c => List.flatMap_singleton' (p.ends c), List.append_nil p.fields⟩

theorem same_empty_seq (p : Pattern) : Same (.seq .empty p) p :=
  ⟨funext fun _ => List.flatMap_singleton .., rfl⟩

theorem same_seq_assoc (p q r : Pattern) : Same (.seq (.seq p q) r) (.seq p (.seq q r)) :=
  ⟨funext fun _ => List.flatMap_assoc, List.append_assoc ..⟩

theorem same_alt_assoc (p q r : Pattern) : Same (.alt (.alt p q) r) (.alt p (.alt q r)) :=
  ⟨funext fun _ => List.append_assoc .., List.append_assoc ..⟩

theorem same_all_cons (p : Pattern) (ps : List Pattern) : Same (all (p :: ps)) (.seq p (all ps)) := by
  cases ps with
  | nil => exact (same_seq_empty p).symm
  | cons => exact .refl _

theorem same_all_concat (ps : List Pattern) (p : Pattern) :
    Same (all (ps ++ [p])) (.seq (all ps) p) := by
  induction ps with
  | nil => exact (same_empty_seq p).symm
  | cons q ps ih =>
    have front : Same (.seq q (all (ps ++ [p]))) (.seq (.seq q (all ps)) p) :=
      ((Same.refl q).seq ih).trans (same_seq_assoc q (all ps) p).symm
    exact (same_all_cons q _).trans (front.trans ((same_all_cons q ps).symm.seq (.refl p)))

theorem same_oneOf_concat {ps : List Pattern} (some : ps ≠ []) (p : Pattern) :
    Same (oneOf (ps ++ [p])) (.alt (oneOf ps) p) := by
  induction ps with
  | nil => contradiction
  | cons q ps ih =>
    cases ps with
    | nil => exact .refl _
    | cons r ps =>
      have later := ih (List.cons_ne_nil r ps)
      exact ((Same.refl q).alt later).trans (same_alt_assoc ..).symm

theorem Same.oneOf_concat (last : Same p q) (ps : List Pattern) :
    Same (oneOf (ps ++ [p])) (oneOf (ps ++ [q])) := by
  cases ps with
  | nil => exact last
  | cons r ps =>
    have some : r :: ps ≠ [] := List.cons_ne_nil r ps
    exact (same_oneOf_concat some p).trans
      (((Same.refl _).alt last).trans (same_oneOf_concat some q).symm)

theorem same_oneOf_alt (ps : List Pattern) (p q : Pattern) :
    Same (oneOf (ps ++ [.alt p q])) (.alt (oneOf (ps ++ [p])) q) := by
  cases ps with
  | nil => exact .refl _
  | cons r ps =>
    have some : r :: ps ≠ [] := List.cons_ne_nil r ps
    have split := ((same_oneOf_concat some p).alt (.refl q)).trans (same_alt_assoc _ p q)
    exact (same_oneOf_concat some (.alt p q)).trans split.symm

end

def rowPattern (row : List Pattern) : Pattern := all row.reverse

def Frame.choices (f : Frame) : List Pattern := (f.done.map rowPattern).reverse

theorem close_eq (f : Frame) : f.close = oneOf (f.choices ++ [rowPattern f.row]) := by
  rw [Frame.close, List.map_cons, List.reverse_cons]
  rfl

theorem same_push (f : Frame) (p : Pattern) :
    Same (rowPattern (f.push p).row) (.seq (rowPattern f.row) p) := by
  rw [rowPattern, Frame.push, List.reverse_cons]
  exact same_all_concat f.row.reverse p

/-- The pattern goes to the end of a row. -/
def IsRow (p : Pattern) : Prop :=
  ∀ f, (feed p f).done = f.done ∧ Same (rowPattern (feed p f).row) (.seq (rowPattern f.row) p)

/-- The pattern adds its choices to those of a group. -/
def IsChoice (p : Pattern) : Prop :=
  ∀ done, Same (feed p ⟨done, []⟩).close (oneOf (Frame.choices ⟨done, []⟩ ++ [p]))

theorem IsRow.isChoice {p : Pattern} (row : IsRow p) : IsChoice p := by
  intro done
  obtain ⟨kept, added⟩ := row ⟨done, []⟩
  have alone := added.trans (same_empty_seq p)
  rw [close_eq, Frame.choices, kept]
  exact alone.oneOf_concat _

theorem IsChoice.same {p : Pattern} (choice : IsChoice p) : Same (feed p .new).close p := choice []

theorem IsChoice.alt {p q : Pattern} (first : IsChoice p) (second : IsChoice q) :
    IsChoice (.alt p q) := by
  intro done
  have bar (f : Frame) : Frame.choices f.bar = f.choices ++ [rowPattern f.row] := by
    simp [Frame.choices, Frame.bar]
  have left := first done
  rw [close_eq, ← bar] at left
  have right := second (feed p ⟨done, []⟩).bar.done
  have some : Frame.choices (feed p ⟨done, []⟩).bar ≠ [] := by simp [bar]
  exact right.trans ((same_oneOf_concat some q).trans
    ((left.alt (.refl q)).trans (same_oneOf_alt _ p q).symm))

theorem isRow_push {p q : Pattern} (feeds : ∀ f, feed p f = f.push q) (same : Same q p) :
    IsRow p := by
  intro f
  rw [feeds]
  exact ⟨rfl, (same_push f q).trans ((Same.refl _).seq same)⟩

theorem isRow_empty : IsRow .empty := fun _ => ⟨rfl, (same_seq_empty _).symm⟩

theorem IsRow.seq {p q : Pattern} (first : IsRow p) (second : IsRow q) : IsRow (.seq p q) := by
  intro f
  obtain ⟨kept, added⟩ := first f
  obtain ⟨still, more⟩ := second (feed p f)
  have joined := more.trans (added.seq (.refl q))
  exact ⟨still.trans kept, joined.trans (same_seq_assoc _ p q)⟩

theorem reach_none (cls : CharClass) (c : Cursor) :
    Cursor.reach cls c.captures [] c.before c.offset c.rest (some 0) = [c] := by
  obtain ⟨before, offset, rest, captures⟩ := c
  cases rest <;> simp [Cursor.reach]

theorem ends_chars_one (cls : CharClass) (c : Cursor) :
    (chars cls .one).ends c = (c.step? cls).toList := by
  have many : c.stepMany? cls 1 = c.step? cls := by
    cases h : c.step? cls <;> simp [Cursor.stepMany?, h]
  rw [ends, Cursor.stops, Times.low, many]
  cases c.step? cls with
  | none => rfl
  | some d => exact reach_none cls d

theorem same_fixed_cons (c : Char) (t : Text) :
    Same (.seq (.chars (.char c) .one) (.fixed t)) (.fixed (c :: t)) := by
  refine ⟨?_, rfl⟩
  funext place
  have next : (fixed t).ends = fun d => (d.stepText? t).toList := rfl
  have front : (Pattern.seq (.chars (.char c) .one) (.fixed t)).ends place =
      (place.step? (.char c)).toList.flatMap (fixed t).ends := by rw [ends, ends_chars_one]
  have whole : (fixed (c :: t)).ends place = (place.stepText? (c :: t)).toList := rfl
  rw [front, next, whole, Cursor.stepText?]
  cases place.step? (.char c) <;> simp

theorem isRow_fixed (t : Text) : IsRow (.fixed t) := by
  induction t with
  | nil =>
    have none : Same (.fixed []) .empty := ⟨rfl, rfl⟩
    intro f
    exact ⟨rfl, (same_seq_empty _).symm.trans ((Same.refl _).seq none.symm)⟩
  | cons c t ih =>
    intro f
    obtain ⟨kept, added⟩ := ih (f.push (.chars (.char c) .one))
    refine ⟨kept, added.trans ?_⟩
    have first := (same_push f (.chars (.char c) .one)).seq (Same.refl (.fixed t))
    have joined := first.trans (same_seq_assoc _ _ _)
    exact joined.trans ((Same.refl _).seq (same_fixed_cons c t))

theorem isRow_quoted (t : Text) : IsRow (.quoted t) := by
  have same : Same (.fixed t) (.quoted t) := ⟨rfl, rfl⟩
  intro f
  obtain ⟨kept, added⟩ := isRow_fixed t f
  exact ⟨kept, added.trans ((Same.refl _).seq same)⟩

theorem isRow_or_isChoice {p : Pattern} (writable : isWritable p) :
    (isAlt p = false → IsRow p) ∧ IsChoice p := by
  have both {p : Pattern} (row : IsRow p) : (isAlt p = false → IsRow p) ∧ IsChoice p :=
    ⟨fun _ => row, row.isChoice⟩
  induction p with
  | empty => exact both isRow_empty
  | fixed t => exact both (isRow_fixed t)
  | quoted t => exact both (isRow_quoted t)
  | chars | start | finish | wordEdge | after | notAfter =>
    exact both (isRow_push (fun _ => rfl) (.refl _))
  | seq p q first second =>
    simp only [isWritable, Bool.and_eq_true, Bool.not_eq_true'] at writable
    obtain ⟨⟨⟨left, right⟩, single⟩, alone⟩ := writable
    exact both (((first left).1 single).seq ((second right).1 alone))
  | alt p q first second =>
    obtain ⟨left, right⟩ := Bool.and_eq_true_iff.mp writable
    refine ⟨?_, (first left).2.alt (second right).2⟩
    intro none
    cases none
  | group p times body =>
    obtain ⟨inner, -⟩ := Bool.and_eq_true_iff.mp writable
    exact both (isRow_push (fun _ => rfl) ((body inner).2.same.group times))
  | field name p body => exact both (isRow_push (fun _ => rfl) ((body writable).2.same.field name))
  | notAhead p body => exact both (isRow_push (fun _ => rfl) (body writable).2.same.notAhead)

/-- What is written for a pattern is well formed, and reads back as a pattern that matches alike. -/
theorem read?_same {p : Pattern} (writable : isWritable p) :
    ∃ q, read? p.written = some q ∧ Same q p := by
  have read := readFrom?_written writable .new [] []
  rw [List.append_nil, readFrom?_nil] at read
  exact ⟨_, read, (isRow_or_isChoice writable).2.same⟩

/-- Two patterns take the same texts at the same places. -/
def Alike (p q : Pattern) : Prop :=
  ∀ before w rest, p.Takes before w rest ↔ q.Takes before w rest

theorem takes_iff_exists_mem_ends {p : Pattern} {before : Option Char} {w rest : Text} :
    p.Takes before w rest ↔
      ∃ d ∈ p.ends ⟨before, 0, w ++ rest, []⟩, d.rest = rest := by
  constructor
  · intro taken
    obtain ⟨d, member, passes⟩ := p.faithful.complete (c := ⟨before, 0, w ++ rest, []⟩) rfl taken
    exact ⟨d, member, passes.rest_eq rfl⟩
  · rintro ⟨d, member, rfl⟩
    obtain ⟨u, passes, taken⟩ := p.faithful.sound member
    have same : w = u := List.append_cancel_right passes.rest
    rw [same]
    exact taken

theorem Same.alike {p q : Pattern} (same : Same p q) : Alike p q := by
  intro before w rest
  rw [takes_iff_exists_mem_ends, takes_iff_exists_mem_ends, same.ends]

/-- What is written for a pattern is well formed, and reads back as a pattern that takes the same
texts. -/
theorem read?_written {p : Pattern} (writable : isWritable p) :
    ∃ q, read? p.written = some q ∧ Alike q p := by
  obtain ⟨q, read, same⟩ := read?_same writable
  exact ⟨q, read, same.alike⟩

theorem Same.search? {p q : Pattern} (same : Same p q) (s : Text) : p.search? s = q.search? s := by
  have run (c : Cursor) (k : Follow) : p.run c k = q.run c k := by
    rw [run_eq_findSome?, run_eq_findSome?, same.ends]
  have found (before : Option Char) (offset : Nat) :
      p.searchFrom? before offset s = q.searchFrom? before offset s := by
    induction s generalizing before offset with
    | nil => simp [searchFrom?, matchAt?, run]
    | cons c s ih => simp [searchFrom?, matchAt?, run, ih]
  exact found none 0

theorem compile?_written {p : Pattern} (writable : isWritable p) (distinct : p.fields.Nodup) :
    ∃ q, compile? p.written = some q ∧ Same q p := by
  obtain ⟨q, read, same⟩ := read?_same writable
  refine ⟨q, ?_, same⟩
  rw [compile?, read, Option.filter_some, same.fields]
  simp [distinct]

/-- What is written for the pattern compiles to one that has these named parts and finds the same
matches on every page. -/
def Compiles (p : Pattern) (names : List Field) : Prop :=
  ∃ q, compile? p.written = some q ∧ q.fields = names ∧ ∀ page, q.search? page = p.search? page

theorem compiles_of_fields {p : Pattern} {names : List Field} (writable : isWritable p)
    (named : p.fields = names) (distinct : names.Nodup) : Compiles p names := by
  obtain ⟨q, compiled, same⟩ := compile?_written writable (named ▸ distinct)
  exact ⟨q, compiled, same.fields.trans named, same.search?⟩

theorem compile?_escaped (t : Text) :
    ∃ q, compile? (t.flatMap escapeQuoted) = some q ∧ q.fields = [] ∧
      ∀ before w rest, q.Takes before w rest ↔ w = t := by
  obtain ⟨q, compiled, same⟩ := compile?_written (p := .quoted t) rfl List.nodup_nil
  exact ⟨q, compiled, same.fields, same.alike⟩

/-- Text that is not escaped may be no pattern. -/
example : compile? "operator()(".toList = none := by decide +kernel

/-! Parts of a row. -/

def IsPart (p : Pattern) : Prop := isWritable p ∧ isAlt p = false

theorem IsPart.seq {p q : Pattern} (first : IsPart p) (second : IsPart q) : IsPart (.seq p q) := by
  refine ⟨?_, rfl⟩
  simp [isWritable, first.1, first.2, second.1, second.2]

theorem isPart_all {ps : List Pattern} (parts : ∀ p ∈ ps, IsPart p) : IsPart (all ps) := by
  induction ps with
  | nil => exact ⟨rfl, rfl⟩
  | cons p ps ih =>
    obtain ⟨first, others⟩ := List.forall_mem_cons.mp parts
    cases ps with
    | nil => exact first
    | cons q ps => exact first.seq (ih others)

theorem isPart_separated {mark : Pattern} {ps : List Pattern} (between : IsPart mark)
    (parts : ∀ p ∈ ps, IsPart p) : IsPart (separated mark ps) := by
  induction ps with
  | nil => exact ⟨rfl, rfl⟩
  | cons p ps ih =>
    obtain ⟨first, others⟩ := List.forall_mem_cons.mp parts
    cases ps with
    | nil => exact first
    | cons q ps => exact first.seq (between.seq (ih others))

theorem isWritable_oneOf {ps : List Pattern} (choices : ∀ p ∈ ps, isWritable p) :
    isWritable (oneOf ps) := by
  induction ps with
  | nil => rfl
  | cons p ps ih =>
    obtain ⟨first, others⟩ := List.forall_mem_cons.mp choices
    cases ps with
    | nil => exact first
    | cons q ps => exact Bool.and_eq_true_iff.mpr ⟨first, ih others⟩

theorem isPart_group {p : Pattern} {times : Times} (body : isWritable p) (sound : isRepeat times) :
    IsPart (.group p times) :=
  ⟨Bool.and_eq_true_iff.mpr ⟨body, sound⟩, rfl⟩

end Apidoc.Notation
