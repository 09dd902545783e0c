import Apidoc.Pattern.Written
import Apidoc.Proofs.Text.Character
import Mathlib.Data.List.Basic
import Mathlib.Data.List.TakeWhile

namespace Apidoc.Notation

open Pattern

inductive Opening
  | plain
  | named (name : Field)
  | after
  | notAfter
  | notAhead
  deriving DecidableEq, Repr

inductive Symbol
  | opening (kind : Opening)
  | closing
  | bar
  | one (cls : CharClass)
  | place (p : Pattern)
  | repeated (mark : Char)
  | counted (times : Times)

def special : Text := "\\.*+?()[]\x7b\x7d|^$".toList

/-- What a character means behind a backslash. Other letters and digits are kept for meanings that
are not read here. -/
def escaped? : Char → Option CharClass
  | 's' => some .blank
  | 'S' => some .nonblank
  | 'w' => some .word
  | 'n' => some (.char '\n')
  | 't' => some (.char '\t')
  | 'r' => some (.char '\r')
  | c => if c.isAlphanum then none else some (.char c)

def plain? (c : Char) : Option Symbol :=
  if c = ')' then some .closing
  else if c = '|' then some .bar
  else if c = '.' then some (.one .any)
  else if c = '^' then some (.place .start)
  else if c = '$' then some (.place .finish)
  else if ['?', '*', '+'].contains c then some (.repeated c)
  else if special.contains c then none
  else some (.one (.char c))

def label? (s : Text) : Option (Field × Text) :=
  [Field.arguments, .docs, .brief, .detailed, .typePart, .namePart].findSome? fun name =>
    (List.isPrefixOf? (name.label ++ ['>']) s).map (name, ·)

def opening? : Text → Option (Opening × Text)
  | '?' :: ':' :: r => some (.plain, r)
  | '?' :: '!' :: r => some (.notAhead, r)
  | '?' :: '<' :: '=' :: r => some (.after, r)
  | '?' :: '<' :: '!' :: r => some (.notAfter, r)
  | '?' :: 'P' :: '<' :: r => (label? r).map fun (name, rest) => (.named name, rest)
  | _ => none

def listSpecial : Text := "[]^-\\".toList

def escapedItem? (c : Char) : Option ClassItem :=
  match escaped? c with
  | some .word => some .word
  | some .blank => some .blank
  | some (.char d) => some (.char d)
  | _ => none

def items? : Text → Option (List ClassItem × Text)
  | [] => none
  | ']' :: r => some ([], r)
  | '\\' :: c :: r =>
    match escapedItem? c, items? r with
    | some item, some (items, rest) => some (item :: items, rest)
    | _, _ => none
  | c :: r =>
    if listSpecial.contains c then none
    else (items? r).map fun (items, rest) => (.char c :: items, rest)

def list? : Text → Option (CharClass × Text)
  | '^' :: r =>
    match items? r with
    | some (item :: items, rest) => some (.noneOf (item :: items), rest)
    | _ => none
  | r =>
    match items? r with
    | some (item :: items, rest) => some (.oneOf (item :: items), rest)
    | _ => none

def countLimit : Nat := 4294967295

def number? (s : Text) : Option (Nat × Text) :=
  let digits := s.takeWhile Char.isDigit
  let n := Nat.ofDigitChars 10 digits 0
  if digits.isEmpty ∨ countLimit ≤ n then none else some (n, s.dropWhile Char.isDigit)

def upper? (low : Nat) : Text → Option (Times × Text)
  | '\x7d' :: r => some (.atLeast low, r)
  | s =>
    match number? s with
    | some (high, '\x7d' :: r) => if low ≤ high then some (.between low high, r) else none
    | _ => none

def counted? (s : Text) : Option (Times × Text) :=
  match number? s with
  | some (low, '\x7d' :: r) => some (.exactly low, r)
  | some (low, ',' :: r) => upper? low r
  | _ => none

def symbol? : Text → Option (Symbol × Text)
  | [] => none
  | '\\' :: 'b' :: r => some (.place .wordEdge, r)
  | '\\' :: c :: r => (escaped? c).map fun cls => (.one cls, r)
  | '(' :: r => (opening? r).map fun (kind, rest) => (.opening kind, rest)
  | '[' :: r => (list? r).map fun (cls, rest) => (.one cls, rest)
  | '\x7b' :: r => (counted? r).map fun (times, rest) => (.counted times, rest)
  | c :: r => (plain? c).map (·, r)

theorem length_of_label? {s rest : Text} {name : Field} (h : label? s = some (name, rest)) :
    rest.length ≤ s.length := by
  obtain ⟨other, -, found⟩ := List.exists_of_findSome?_eq_some h
  obtain ⟨_, cut, eq⟩ := Option.map_eq_some_iff.mp found
  cases eq
  rw [← List.append_eq_of_isPrefixOf?_eq_some cut, List.length_append]
  exact Nat.le_add_left ..

theorem length_of_opening? {s rest : Text} {kind : Opening}
    (h : opening? s = some (kind, rest)) : rest.length ≤ s.length := by
  unfold opening? at h
  split at h
  case h_5 =>
    obtain ⟨⟨name, _⟩, found, eq⟩ := Option.map_eq_some_iff.mp h
    cases eq
    have bound := length_of_label? found
    simp only [List.length_cons]
    omega
  case h_6 => cases h
  all_goals
    cases h
    simp only [List.length_cons]
    omega

theorem length_of_items? {s rest : Text} {items : List ClassItem}
    (h : items? s = some (items, rest)) : rest.length ≤ s.length := by
  fun_induction items? s generalizing items rest with
  | case1 | case4 | case5 => cases h
  | case2 r =>
    cases h
    exact Nat.le_succ _
  | case3 c r item items' rest' found later ih =>
    cases h
    have bound := ih found
    simp only [List.length_cons]
    omega
  | case6 c r _ _ _ ih =>
    obtain ⟨⟨items', _⟩, later, eq⟩ := Option.map_eq_some_iff.mp h
    cases eq
    exact Nat.le_succ_of_le (ih later)

theorem length_of_list? {s rest : Text} {cls : CharClass} (h : list? s = some (cls, rest)) :
    rest.length ≤ s.length := by
  unfold list? at h
  split at h
  · split at h
    · rename_i listed
      cases h
      exact Nat.le_succ_of_le (length_of_items? listed)
    · cases h
  · split at h
    · rename_i listed
      cases h
      exact length_of_items? listed
    · cases h

theorem length_of_number? {s rest : Text} {n : Nat} (h : number? s = some (n, rest)) :
    rest.length ≤ s.length := by
  simp only [number?] at h
  split at h
  · cases h
  · cases h
    exact (List.dropWhile_sublist _).length_le

theorem length_of_upper? {low : Nat} {s rest : Text} {times : Times}
    (h : upper? low s = some (times, rest)) : rest.length ≤ s.length := by
  unfold upper? at h
  split at h
  · cases h
    exact Nat.le_succ _
  · split at h
    · rename_i high
      have bound := length_of_number? high
      split at h
      · cases h
        exact Nat.le_of_succ_le bound
      · cases h
    · cases h

theorem length_of_counted? {s rest : Text} {times : Times} (h : counted? s = some (times, rest)) :
    rest.length ≤ s.length := by
  unfold counted? at h
  split at h
  · rename_i low
    cases h
    exact Nat.le_of_succ_le (length_of_number? low)
  · rename_i low
    exact Nat.le_trans (length_of_upper? h) (Nat.le_of_succ_le (length_of_number? low))
  · cases h

theorem length_lt_of_symbol? {s rest : Text} {symbol : Symbol}
    (h : symbol? s = some (symbol, rest)) : rest.length < s.length := by
  unfold symbol? at h
  split at h
  · cases h
  · cases h
    simp only [List.length_cons]
    omega
  · obtain ⟨_, _, eq⟩ := Option.map_eq_some_iff.mp h
    cases eq
    simp only [List.length_cons]
    omega
  · obtain ⟨_, found, eq⟩ := Option.map_eq_some_iff.mp h
    cases eq
    exact Nat.lt_succ_of_le (length_of_opening? found)
  · obtain ⟨_, found, eq⟩ := Option.map_eq_some_iff.mp h
    cases eq
    exact Nat.lt_succ_of_le (length_of_list? found)
  · obtain ⟨_, found, eq⟩ := Option.map_eq_some_iff.mp h
    cases eq
    exact Nat.lt_succ_of_le (length_of_counted? found)
  · obtain ⟨_, _, eq⟩ := Option.map_eq_some_iff.mp h
    cases eq
    exact Nat.lt_succ_self _

/-- The choices of a group that is still open: those that are finished, and the parts of the one
that is being read, each with the latest first. -/
structure Frame where
  done : List (List Pattern)
  row : List Pattern

def Frame.new : Frame := ⟨[], []⟩

def Frame.push (f : Frame) (p : Pattern) : Frame := ⟨f.done, p :: f.row⟩

def Frame.bar (f : Frame) : Frame := ⟨f.row :: f.done, []⟩

def Frame.close (f : Frame) : Pattern :=
  oneOf ((f.row :: f.done).map fun row => all row.reverse).reverse

def single? : Pattern → Option CharClass
  | .chars cls .one => some cls
  | _ => none

def part? : Opening → Pattern → Option Pattern
  | .plain, p => some (.group p .one)
  | .named name, p => some (.field name p)
  | .after, p => (single? p).map .after
  | .notAfter, p => (single? p).map .notAfter
  | .notAhead, p => some (.notAhead p)

def marked? : Times → Char → Option Times
  | .one, '?' => some .optional
  | .one, '*' => some .star
  | .one, '+' => some .plus
  | .star, '?' => some .lazyStar
  | .plus, '?' => some .lazyPlus
  | _, _ => none

def counted (times : Times) : Times → Option Times
  | .one => some times
  | _ => none

def repeated? (change : Times → Option Times) : Pattern → Option Pattern
  | .chars cls times => (change times).map (.chars cls)
  | .group p times => (change times).map (.group p)
  | _ => none

def Frame.repeated? (change : Times → Option Times) : Frame → Option Frame
  | ⟨_, []⟩ => none
  | ⟨done, p :: row⟩ => (Notation.repeated? change p).map fun q => ⟨done, q :: row⟩

/-- The innermost group and those around it, each with what is open inside of it. -/
abbrev Frames := Frame × List (Opening × Frame)

def step? : Symbol → Frames → Option Frames
  | .opening kind, (f, outer) => some (.new, (kind, f) :: outer)
  | .closing, (f, (kind, g) :: outer) => (part? kind f.close).map fun p => (g.push p, outer)
  | .closing, (_, []) => none
  | .bar, (f, outer) => some (f.bar, outer)
  | .one cls, (f, outer) => some (f.push (.chars cls .one), outer)
  | .place p, (f, outer) => some (f.push p, outer)
  | .repeated mark, (f, outer) => (f.repeated? (marked? · mark)).map (·, outer)
  | .counted times, (f, outer) => (f.repeated? (counted times)).map (·, outer)

def readFrom? (s : Text) (frames : Frames) : Option Pattern :=
  match _h : symbol? s with
  | some (symbol, rest) =>
    match step? symbol frames with
    | some next => readFrom? rest next
    | none => none
  | none =>
    match s, frames with
    | [], (f, []) => some f.close
    | _, _ => none
termination_by s.length
decreasing_by exact length_lt_of_symbol? ‹_›

/-- The pattern that a text is the notation of, if it is well formed. -/
def read? (s : Text) : Option Pattern := readFrom? s (.new, [])

/-- The same, where no name is given to two parts. -/
def compile? (s : Text) : Option Pattern := (read? s).filter fun p => p.fields.Nodup

theorem readFrom?_symbol {s rest : Text} {symbol : Symbol} {frames next : Frames}
    (found : symbol? s = some (symbol, rest)) (stepped : step? symbol frames = some next) :
    readFrom? s frames = readFrom? rest next := by
  rw [readFrom?]
  split
  · rename_i same
    rw [found] at same
    cases same
    rw [stepped]
  · rename_i none
    rw [found] at none
    cases none

theorem readFrom?_nil (f : Frame) : readFrom? [] (f, []) = some f.close := by
  rw [readFrom?]
  rfl

theorem symbol?_escaped {c : Char} {cls : CharClass} (known : escaped? c = some cls) (r : Text) :
    symbol? ('\\' :: c :: r) = some (.one cls, r) := by
  have other : c ≠ 'b' := by
    rintro rfl
    cases known
  simp [symbol?, known]

theorem ne_of_ordinary {c d : Char} (ordinary : special.contains c = false)
    (listed : special.contains d) : c ≠ d := by
  intro same
  rw [same, listed] at ordinary
  cases ordinary

theorem symbol?_ordinary {c : Char} (ordinary : special.contains c = false) (r : Text) :
    symbol? (c :: r) = some (.one (.char c), r) := by
  have other {d : Char} (listed : special.contains d) : c ≠ d := ne_of_ordinary ordinary listed
  have itself : plain? c = some (.one (.char c)) := by
    have closing : c ≠ ')' := other (by decide)
    have bar : c ≠ '|' := other (by decide)
    have dot : c ≠ '.' := other (by decide)
    have start : c ≠ '^' := other (by decide)
    have finish : c ≠ '$' := other (by decide)
    have optional : c ≠ '?' := other (by decide)
    have star : c ≠ '*' := other (by decide)
    have plus : c ≠ '+' := other (by decide)
    have absent : c ∉ special := by simpa using ordinary
    simp [plain?, closing, bar, dot, start, finish, optional, star, plus, absent]
  have backslash : c ≠ '\\' := other (by decide)
  have opening : c ≠ '(' := other (by decide)
  have list : c ≠ '[' := other (by decide)
  have brace : c ≠ '\x7b' := other (by decide)
  simp [symbol?, backslash, itself]

theorem symbol?_escapeQuoted (c : Char) (r : Text) :
    symbol? (escapeQuoted c ++ r) = some (.one (.char c), r) := by
  have known : ∀ c ∈ notationChars, escaped? c = some (.char c) := by decide
  have listed : ∀ c ∈ special, c ∈ notationChars := by decide
  unfold escapeQuoted
  split
  · rename_i marked
    exact symbol?_escaped (known c (by simpa using marked)) r
  · rename_i unmarked
    apply symbol?_ordinary
    cases ordinary : special.contains c with
    | false => rfl
    | true => exact absurd (listed c (by simpa using ordinary)) (by simpa using unmarked)

theorem symbol?_escapeFixed (c : Char) (r : Text) :
    symbol? (escapeFixed c ++ r) = some (.one (.char c), r) := by
  have known : ∀ c ∈ special, escaped? c = some (.char c) := by decide
  have written : escapeFixed c =
      (escapeControl? c).getD (if special.contains c then ['\\', c] else [c]) := rfl
  rw [written]
  cases control : escapeControl? c with
  | some written =>
    unfold escapeControl? at control
    split at control <;> cases control <;> rfl
  | none =>
    simp only [Option.getD_none]
    split
    · rename_i marked
      exact symbol?_escaped (known c (List.contains_iff_mem.mp marked)) r
    · rename_i unmarked
      exact symbol?_ordinary (eq_false_of_ne_true unmarked) r

def isListed : ClassItem → Bool
  | .char c => !(['[', '^', '-'].contains c)
  | .word | .blank => true

theorem items?_written {item : ClassItem} (listed : isListed item) {r rest : Text}
    {items : List ClassItem} (others : items? r = some (items, rest)) :
    items? (item.written ++ r) = some (item :: items, rest) := by
  cases item with
  | word | blank => simp [ClassItem.written, items?, escapedItem?, escaped?, others]
  | char c =>
    have known : ∀ c ∈ "\\]".toList, escapedItem? c = some (.char c) := by decide
    have written : ClassItem.written (.char c) =
        (escapeControl? c).getD (if "\\]".toList.contains c then ['\\', c] else [c]) := rfl
    rw [written]
    cases control : escapeControl? c with
    | some written =>
      unfold escapeControl? at control
      split at control <;> cases control <;>
        simp [items?, escapedItem?, escaped?, others]
    | none =>
      simp only [Option.getD_none]
      split
      · rename_i marked
        have item := known c (List.contains_iff_mem.mp marked)
        simp [items?, item, others]
      · rename_i unmarked
        simp only [isListed, List.contains_cons, List.contains_nil, Bool.or_false, Bool.not_eq_true',
          Bool.or_eq_false_iff, beq_eq_false_iff_ne] at listed
        have plain : c ≠ '\\' ∧ c ≠ ']' := by simpa using unmarked
        simp [items?, listed, plain, listSpecial, others]

theorem items?_list {items : List ClassItem} (listed : items.all isListed) (r : Text) :
    items? (items.flatMap ClassItem.written ++ ']' :: r) = some (items, r) := by
  induction items with
  | nil => rfl
  | cons item items ih =>
    obtain ⟨first, others⟩ := Bool.and_eq_true_iff.mp listed
    rw [List.flatMap_cons, List.append_assoc]
    exact items?_written first (ih others)

theorem ClassItem.written_ne {item : ClassItem} (listed : isListed item) (r s : Text) :
    item.written ++ r ≠ '^' :: s := by
  cases item with
  | word | blank => simp [ClassItem.written]
  | char c =>
    have other : c ≠ '^' := by
      rintro rfl
      exact absurd listed (by decide)
    have written : ClassItem.written (.char c) =
        (escapeControl? c).getD (if "\\]".toList.contains c then ['\\', c] else [c]) := rfl
    rw [written]
    cases control : escapeControl? c with
    | some written =>
      unfold escapeControl? at control
      split at control <;> cases control <;> simp
    | none =>
      simp only [Option.getD_none]
      split
      · simp
      · simp [other]

theorem list?_oneOf {items : List ClassItem} (nonempty : items ≠ []) (listed : items.all isListed)
    (r : Text) : list? (items.flatMap ClassItem.written ++ ']' :: r) = some (.oneOf items, r) := by
  obtain ⟨item, others, rfl⟩ := List.exists_cons_of_ne_nil nonempty
  have inside := items?_list listed r
  rw [List.flatMap_cons, List.append_assoc] at inside ⊢
  unfold list?
  split
  · rename_i s same
    exact absurd same (ClassItem.written_ne (Bool.and_eq_true_iff.mp listed).1 _ s)
  · rw [inside]

theorem list?_noneOf {items : List ClassItem} (nonempty : items ≠ [])
    (listed : items.all isListed) (r : Text) :
    list? ('^' :: (items.flatMap ClassItem.written ++ ']' :: r)) = some (.noneOf items, r) := by
  obtain ⟨item, others, rfl⟩ := List.exists_cons_of_ne_nil nonempty
  rw [list?, items?_list listed r]

def isReadable : CharClass → Bool
  | .oneOf items | .noneOf items => !items.isEmpty && items.all isListed
  | _ => true

theorem symbol?_class {cls : CharClass} (readable : isReadable cls) (r : Text) :
    symbol? (cls.written ++ r) = some (.one cls, r) := by
  cases cls with
  | any | word | blank | nonblank => rfl
  | char c => exact symbol?_escapeFixed c r
  | oneOf items =>
    simp only [isReadable, Bool.and_eq_true, Bool.not_eq_true', List.isEmpty_eq_false_iff]
      at readable
    have text : (CharClass.oneOf items).written ++ r =
        '[' :: (items.flatMap ClassItem.written ++ ']' :: r) := by simp [CharClass.written]
    rw [text, symbol?, list?_oneOf readable.1 readable.2]
    rfl
  | noneOf items =>
    simp only [isReadable, Bool.and_eq_true, Bool.not_eq_true', List.isEmpty_eq_false_iff]
      at readable
    have text : (CharClass.noneOf items).written ++ r =
        '[' :: '^' :: (items.flatMap ClassItem.written ++ ']' :: r) := by simp [CharClass.written]
    rw [text, symbol?, list?_noneOf readable.1 readable.2]
    rfl

theorem number?_ofNat {n : Nat} (bound : n < countLimit) {c : Char} (edge : c.isDigit = false)
    (r : Text) : number? (Text.ofNat n ++ c :: r) = some (n, c :: r) := by
  have digits : ∀ c ∈ Text.ofNat n, c.isDigit := fun c member =>
    Nat.isDigit_of_mem_toDigits (by decide) (by decide) member
  have ends : ∀ d, (c :: r).head? = some d → d.isDigit = false := by
    intro d head
    cases head
    exact edge
  obtain ⟨taken, left⟩ := Text.span_append digits ends
  have nonempty : (Text.ofNat n).isEmpty = false :=
    List.isEmpty_eq_false_iff.mpr Nat.toDigits_ne_nil
  have value : Nat.ofDigitChars 10 (Text.ofNat n) 0 = n := Nat.ofDigitChars_ten_toDigits
  simp [number?, taken, left, nonempty, value, Nat.not_le.mpr bound]

def isBraced : Times → Bool
  | .exactly n | .atLeast n => decide (n < countLimit)
  | .between low high => decide (low ≤ high ∧ high < countLimit)
  | _ => false

theorem upper?_ofNat {low high : Nat} (ordered : low ≤ high) (bound : high < countLimit)
    (r : Text) : upper? low (Text.ofNat high ++ '\x7d' :: r) = some (.between low high, r) := by
  have brace : ('\x7d').isDigit = false := by decide
  have second := number?_ofNat bound brace r
  unfold upper?
  split
  · rename_i same
    rw [same] at second
    cases second
  · rw [second]
    simp [ordered]

theorem symbol?_times {times : Times} (braced : isBraced times) (r : Text) :
    symbol? (times.written ++ r) = some (.counted times, r) := by
  have braces {inner : Text} (read : counted? (inner ++ '\x7d' :: r) = some (times, r)) :
      symbol? (bracesText inner ++ r) = some (.counted times, r) := by
    have text : bracesText inner ++ r = '\x7b' :: (inner ++ '\x7d' :: r) := by simp [bracesText]
    rw [text, symbol?, read]
    rfl
  have brace : ('\x7d').isDigit = false := by decide
  have comma : (',').isDigit = false := by decide
  cases times with
  | one | optional | star | plus | lazyStar | lazyPlus => cases braced
  | exactly n =>
    have low := number?_ofNat (of_decide_eq_true braced) brace r
    exact braces (by simp [counted?, low])
  | between low high =>
    obtain ⟨ordered, bound⟩ := of_decide_eq_true braced
    have first := number?_ofNat (Nat.lt_of_le_of_lt ordered bound) comma
      (Text.ofNat high ++ '\x7d' :: r)
    have second := upper?_ofNat ordered bound r
    exact braces (by simpa [counted?, first] using second)
  | atLeast n =>
    have low := number?_ofNat (of_decide_eq_true braced) comma ('\x7d' :: r)
    exact braces (by simp [counted?, low, upper?])

end Apidoc.Notation
