import Apidoc.Text.Alphanumeric
import Apidoc.Text.Blank

namespace Apidoc.Text

theorem inRanges_eq_true {ranges : List (Nat × Nat)} {n : Nat} (inside : inRanges ranges n) :
    ∃ r ∈ ranges, r.1 ≤ n ∧ n ≤ r.2 := by
  induction ranges with
  | nil => cases inside
  | cons r ranges ih =>
    obtain ⟨low, high⟩ := r
    simp only [inRanges] at inside
    split at inside
    · rename_i below
      exact ⟨(low, high), .head _, of_decide_eq_true inside, below⟩
    · obtain ⟨s, member, bounds⟩ := ih inside
      exact ⟨s, .tail _ member, bounds⟩

theorem isBlank_rec {p : Char → Prop} {c : Char} (blank : isBlank c)
    (all : ∀ r ∈ blankRanges, ∀ n ∈ List.range' r.1 (r.2 + 1 - r.1), p (Char.ofNat n)) : p c := by
  obtain ⟨r, member, above, below⟩ := inRanges_eq_true blank
  have code : c.toNat ∈ List.range' r.1 (r.2 + 1 - r.1) := by
    rw [List.mem_range'_1]
    omega
  simpa using all r member c.toNat code

theorem isWord_of_isBlank {c : Char} (blank : isBlank c) : isWord c = false := by
  apply isBlank_rec blank (p := fun c => isWord c = false)
  decide +kernel

theorem ne_of_isBlank {c d : Char} (blank : isBlank c) (solid : isBlank d = false) : c ≠ d := by
  intro same
  rw [same, solid] at blank
  cases blank

theorem ne_of_isWord {c d : Char} (word : isWord c) (other : isWord d = false) : c ≠ d := by
  intro same
  rw [same, other] at word
  cases word

theorem isBlank_of_isWord {c : Char} (word : isWord c) : isBlank c = false := by
  cases blank : isBlank c with
  | false => rfl
  | true => exact absurd word (by simp [isWord_of_isBlank blank])

theorem isWord_colon : isWord ':' = false := by decide

theorem isWord_opening : isWord '[' = false := by decide

theorem trimLeft_of_solid {s : Text} (solid : ∀ c, s.head? = some c → isBlank c = false) :
    trimLeft s = s := by
  cases s with
  | nil => rfl
  | cons c s => simp [trimLeft, solid c rfl]

theorem trim_of_word {w : Text} (word : ∀ c ∈ w, isWord c) : trim w = w := by
  have solid (c : Char) (member : c ∈ w) : isBlank c = false := isBlank_of_isWord (word c member)
  have left : trimLeft w = w := trimLeft_of_solid fun c head => solid c (List.mem_of_mem_head? head)
  have right : w.reverse.dropWhile isBlank = w.reverse := by
    apply trimLeft_of_solid
    intro c head
    exact solid c (List.mem_reverse.mp (List.mem_of_mem_head? head))
  rw [trim, trimRight, left, right, List.reverse_reverse]

theorem trim_pad {g t : Text} (front : ∀ c ∈ g, isBlank c) (back : ∀ c ∈ t, isBlank c)
    (u : Text) : trim (g ++ (u ++ t)) = trim u := by
  have right (w : Text) : trimRight (w ++ t) = trimRight w := by
    rw [trimRight, List.reverse_append, List.dropWhile_append_of_pos (by simpa using back)]
    rfl
  have left : trimLeft (g ++ (u ++ t)) = trimLeft (u ++ t) := List.dropWhile_append_of_pos front
  have all : (t ++ []).dropWhile isBlank = [] := List.dropWhile_append_of_pos back
  rw [List.append_nil] at all
  rw [trim, left, trimLeft, List.dropWhile_append]
  split
  · rename_i blank
    have none : u.dropWhile isBlank = [] := List.isEmpty_iff.mp blank
    rw [all, trim, trimLeft, none]
  · exact right _

theorem trim_split (s : Text) : ∃ g t, (∀ c ∈ g, isBlank c) ∧ (∀ c ∈ t, isBlank c) ∧
    s = g ++ (trim s ++ t) := by
  have right : trimRight (trimLeft s) ++ ((trimLeft s).reverse.takeWhile isBlank).reverse =
      trimLeft s := by
    rw [trimRight, ← List.reverse_append, List.takeWhile_append_dropWhile, List.reverse_reverse]
  refine ⟨s.takeWhile isBlank, ((trimLeft s).reverse.takeWhile isBlank).reverse, ?_, ?_, ?_⟩
  · exact List.all_eq_true.mp List.all_takeWhile
  · intro c member
    exact List.all_eq_true.mp List.all_takeWhile c (List.mem_reverse.mp member)
  · rw [trim, right, trimLeft, List.takeWhile_append_dropWhile]

theorem trim_eq_of_length {s : Text} (long : s.length ≤ (trim s).length) : trim s = s := by
  obtain ⟨g, t, -, -, split⟩ := trim_split s
  have lengths := congrArg List.length split
  simp only [List.length_append] at lengths
  have front : g = [] := List.eq_nil_of_length_eq_zero (by omega)
  have back : t = [] := List.eq_nil_of_length_eq_zero (by omega)
  rw [front, back, List.nil_append, List.append_nil] at split
  exact split.symm

theorem solid_ends_trim (s : Text) : (∀ c, (trim s).head? = some c → isBlank c = false) ∧
    ∀ c, (trim s).getLast? = some c → isBlank c = false := by
  constructor
  · intro c head
    have front : trim s <+: trimLeft s := by
      have back := List.dropWhile_suffix isBlank (l := (trimLeft s).reverse)
      rwa [← List.reverse_prefix, List.reverse_reverse] at back
    obtain ⟨t, split⟩ := front
    have outside := List.head?_dropWhile_not isBlank s
    rw [← trimLeft, ← split, List.head?_append, head] at outside
    exact outside
  · intro c last
    rw [trim, trimRight, List.getLast?_reverse] at last
    have outside := List.head?_dropWhile_not isBlank (trimLeft s).reverse
    rwa [last] at outside

theorem mem_trim {c : Char} {s : Text} (member : c ∈ s) (solid : isBlank c = false) :
    c ∈ trim s := by
  have kept {s : Text} (member : c ∈ s) : c ∈ s.dropWhile isBlank := by
    rw [← List.takeWhile_append_dropWhile (p := isBlank) (l := s), List.mem_append] at member
    rcases member with blank | kept
    · exact absurd (List.all_eq_true.mp List.all_takeWhile c blank) (by simp [solid])
    · exact kept
  exact List.mem_reverse.mpr (kept (List.mem_reverse.mpr (kept member)))

instance (priority := high) decidableForallMem {w : Text} {p : Char → Prop} [DecidablePred p] :
    Decidable (∀ c ∈ w, p c) :=
  List.decidableBAll (p := p) w

def IsWordRun (w : Text) : Prop := w ≠ [] ∧ ∀ c ∈ w, isWord c

instance (w : Text) : Decidable (IsWordRun w) :=
  inferInstanceAs (Decidable (w ≠ [] ∧ ∀ c ∈ w, isWord c))

theorem IsWordRun.not_mem {c : Char} {w : Text} (word : IsWordRun w) (other : isWord c = false) :
    c ∉ w := by
  intro member
  exact ne_of_isWord (word.2 c member) other rfl

theorem isWord_newline : isWord '\n' = false := by decide

theorem span_append {α : Type} {p : α → Bool} {xs ys : List α} (inside : ∀ x ∈ xs, p x)
    (outside : ∀ y, ys.head? = some y → p y = false) :
    (xs ++ ys).takeWhile p = xs ∧ (xs ++ ys).dropWhile p = ys := by
  rw [List.takeWhile_append_of_pos inside, List.dropWhile_append_of_pos inside]
  cases ys with
  | nil => simp
  | cons y ys => simp [outside y rfl]

theorem span_unique {α : Type} {p : α → Bool} {u v x y : List α} (inside : ∀ a ∈ u, p a)
    (inside' : ∀ a ∈ v, p a) (outside : ∀ a, x.head? = some a → p a = false)
    (outside' : ∀ a, y.head? = some a → p a = false) (same : u ++ x = v ++ y) :
    u = v ∧ x = y := by
  obtain ⟨taken, left⟩ := span_append inside outside
  obtain ⟨taken', left'⟩ := span_append inside' outside'
  rw [same] at taken left
  exact ⟨taken.symm.trans taken', left.symm.trans left'⟩

theorem span_unique_right {α : Type} {p : α → Bool} {u v x y : List α} (inside : ∀ a ∈ x, p a)
    (inside' : ∀ a ∈ y, p a) (outside : ∀ a, u.getLast? = some a → p a = false)
    (outside' : ∀ a, v.getLast? = some a → p a = false) (same : u ++ x = v ++ y) :
    u = v ∧ x = y := by
  have mirrored := congrArg List.reverse same
  rw [List.reverse_append, List.reverse_append] at mirrored
  obtain ⟨back, front⟩ := span_unique (by simpa using inside) (by simpa using inside')
    (by simpa using outside) (by simpa using outside') mirrored
  exact ⟨List.reverse_inj.mp front, List.reverse_inj.mp back⟩

theorem first_unique {a : Char} {u v x y : Text} (free : a ∉ u) (free' : a ∉ v)
    (same : u ++ a :: x = v ++ a :: y) : u = v ∧ x = y := by
  have others {w : Text} (free : a ∉ w) : ∀ c ∈ w, (c != a) = true := by
    intro c member
    exact bne_iff_ne.mpr (ne_of_mem_of_not_mem member free)
  have here (w : Text) : ∀ c, (a :: w).head? = some c → (c != a) = false := by
    intro c head
    cases head
    exact bne_self_eq_false a
  obtain ⟨front, back⟩ := span_unique (others free) (others free') (here x) (here y) same
  exact ⟨front, (List.cons.inj back).2⟩

theorem last_unique {α : Type} {a : α} {u v x y : List α} (first : a ∉ v) (second : a ∉ y)
    (same : u ++ a :: v = x ++ a :: y) : u = x ∧ v = y := by
  rcases List.append_eq_append_iff.mp same with ⟨t, rfl, eq⟩ | ⟨t, rfl, eq⟩
  · cases t with
    | nil => exact ⟨(List.append_nil u).symm, (List.cons.inj eq).2⟩
    | cons b t =>
      rw [(List.cons.inj eq).2] at first
      exact absurd (by simp) first
  · cases t with
    | nil => exact ⟨List.append_nil x, ((List.cons.inj eq).2).symm⟩
    | cons b t =>
      rw [(List.cons.inj eq).2] at second
      exact absurd (by simp) second

theorem word_unique {a b : Char} {u v x y : Text} (word : ∀ c ∈ u, isWord c)
    (word' : ∀ c ∈ v, isWord c) (edge : isWord a = false) (edge' : isWord b = false)
    (same : u ++ a :: x = v ++ b :: y) : u = v ∧ a = b ∧ x = y := by
  have here {d : Char} (edge : isWord d = false) (w : Text) :
      ∀ c, (d :: w).head? = some c → isWord c = false := by
    intro c head
    cases head
    exact edge
  obtain ⟨front, back⟩ := span_unique word word' (here edge x) (here edge' y) same
  exact ⟨front, List.cons.inj back⟩

/-- If the text behind `v` starts with a character that stands only at the start of a mark, a mark
that starts in `v` lies in `v`. -/
theorem append_of_foreign {mark v y z : Text} {c : Char} (foreign : c ∉ mark.tail) (some : v ≠ [])
    (same : v ++ c :: y = mark ++ z) : ∃ t, v = mark ++ t := by
  rcases List.append_eq_append_iff.mp same with ⟨t, rfl, rest⟩ | ⟨t, eq, -⟩
  · cases t with
    | nil => exact ⟨[], by simp⟩
    | cons d t =>
      obtain ⟨rfl, -⟩ := List.cons.inj rest
      obtain ⟨a, v, rfl⟩ := List.exists_cons_of_ne_nil some
      exact absurd (by simp) foreign
  · exact ⟨t, eq⟩

end Apidoc.Text
