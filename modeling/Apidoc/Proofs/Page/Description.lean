import Apidoc.Proofs.Page.Block

namespace Apidoc.Page

open Pattern PrintedType

/-- Blocks end at three or four line ends. -/
structure ClosesBlocks (layout : Layout) : Prop where
  valid : layout.IsValid
  low : 1 ≤ layout.trailingLow
  enough : 3 ≤ layout.trailingLow + layout.functionBlock
  few : layout.trailingLow + layout.functionBlock ≤ 4

theorem closesBlocks_default : ClosesBlocks {} := ⟨by decide, by decide, by decide, by decide⟩

theorem takes_lineEnd {before : Option Char} {w rest : Text} :
    lineEnd.Takes before w rest ↔ ∃ s, w = '\n' :: s ∧ ∀ c ∈ s, Text.isBlank c := by
  constructor
  · intro taken
    obtain ⟨_, s, rfl, rfl, blank⟩ := taken
    exact ⟨s, rfl, takes_chars_star.mp blank⟩
  · intro line
    obtain ⟨s, rfl, blank⟩ := line
    exact ⟨['\n'], s, rfl, rfl, takes_chars_star.mpr blank⟩

theorem takes_lines {n : Nat} {before : Option Char} {w rest : Text} :
    TakesTimes lineEnd.Takes n before w rest ↔ IsLines n w := by
  induction n generalizing before w with
  | zero => exact Iff.rfl
  | succ n ih =>
    constructor
    · intro taken
      obtain ⟨u, v, rfl, first, others⟩ := taken
      obtain ⟨s, rfl, blank⟩ := takes_lineEnd.mp first
      exact ⟨s, v, rfl, blank, ih.mp others⟩
    · intro lines
      obtain ⟨s, v, rfl, blank, others⟩ := lines
      exact ⟨'\n' :: s, v, rfl, takes_lineEnd.mpr ⟨s, rfl, blank⟩, ih.mpr others⟩

theorem isLines_replicate (n : Nat) : IsLines n (List.replicate n '\n') := by
  induction n with
  | zero => rfl
  | succ n ih => exact ⟨[], List.replicate n '\n', rfl, by simp, ih⟩

namespace IsLines

theorem blank {n : Nat} {w : Text} (lines : IsLines n w) : ∀ c ∈ w, Text.isBlank c := by
  induction n generalizing w with
  | zero =>
    cases lines
    exact fun _ absent => nomatch absent
  | succ n ih =>
    obtain ⟨s, v, rfl, first, others⟩ := lines
    have all := ih others
    intro c member
    rcases List.mem_cons.mp member with rfl | member
    · decide
    · exact (List.mem_append.mp member).elim (first c) (all c)

theorem append {m n : Nat} {u v : Text} (first : IsLines m u) (second : IsLines n v) :
    IsLines (m + n) (u ++ v) := by
  induction m generalizing u with
  | zero =>
    cases first
    rwa [Nat.zero_add]
  | succ m ih =>
    obtain ⟨s, w, rfl, blank, others⟩ := first
    rw [Nat.succ_add]
    exact ⟨s, w ++ v, by simp, blank, ih others⟩

theorem take {m n : Nat} {w : Text} (few : m ≤ n) (lines : IsLines n w) :
    ∃ u v, w = u ++ v ∧ IsLines m u := by
  induction m generalizing n w with
  | zero => exact ⟨[], w, rfl, rfl⟩
  | succ m ih =>
    cases n with
    | zero => omega
    | succ n =>
      obtain ⟨s, v, rfl, blank, others⟩ := lines
      obtain ⟨x, y, rfl, front⟩ := ih (by omega) others
      exact ⟨'\n' :: (s ++ x), y, by simp, s, x, rfl, blank, front⟩

theorem starts {n : Nat} {w : Text} (some : 0 < n) (lines : IsLines n w) :
    ∃ s, w = '\n' :: s ∧ ∀ c ∈ s, Text.isBlank c := by
  cases n with
  | zero => omega
  | succ n =>
    have white := lines.blank
    obtain ⟨s, v, rfl, -, -⟩ := lines
    exact ⟨s ++ v, rfl, fun c member => white c (.tail _ member)⟩

end IsLines

theorem takes_entry {before : Option Char} {w rest : Text} :
    (all [.chars (.char '&') .optional, .chars .nonblank .star, entryMark]).Takes before w rest ↔
      IsMark w := by
  constructor
  · intro taken
    obtain ⟨a, _, rfl, ⟨amp, few⟩, t, _, rfl, solid, rfl⟩ := taken
    refine ⟨a, t, rfl, ?_, ?_⟩
    · cases a with
      | nil => exact .inl rfl
      | cons c a =>
        right
        have first : c = '&' := eq_of_beq (amp c (.head _))
        have none : a = [] := by
          rcases Times.allows_optional.mp few with zero | one
          · cases zero
          · exact List.eq_nil_of_length_eq_zero (by simpa using one)
        rw [first, none]
    · intro c member
      exact Bool.not_eq_true' _ |>.mp (takes_chars_star.mp solid c member)
  · intro mark
    obtain ⟨a, t, rfl, amp, solid⟩ := mark
    refine ⟨a, _, rfl, ⟨?_, Times.allows_optional.mpr ?_⟩, t, _, rfl,
      takes_chars_star.mpr fun c member => ?_, rfl⟩
    · rcases amp with rfl | rfl
      · exact fun _ absent => nomatch absent
      · decide
    · rcases amp with rfl | rfl
      · exact .inl rfl
      · exact .inr rfl
    · exact (Bool.not_eq_true' _).mpr (solid c member)

theorem IsMark.line {m : Text} (mark : IsMark m) : '\n' ∉ m := by
  obtain ⟨a, t, rfl, amp, solid⟩ := mark
  have word : '\n' ∉ t := by
    intro member
    exact absurd (solid '\n' member) (by decide)
  rcases amp with rfl | rfl
  · simp [word]
  · simp [word]

/-- The end of a block: as many line ends as the layout allows, with white space between and behind
them, and then the mark of an entry or the empty lines in front of it. -/
def EndsBlock (layout : Layout) (w : Text) : Prop :=
  ∃ n u v, w = u ++ v ∧ layout.trailingLow ≤ n ∧ n ≤ layout.trailingHigh ∧ IsLines n u ∧
    (IsMark v ∨ IsLines layout.functionBlock v)

theorem takes_functionEnd {layout : Layout} (valid : layout.IsValid) {before : Option Char}
    {w rest : Text} : (functionEnd layout).Takes before w rest ↔ EndsBlock layout w := by
  constructor
  · intro taken
    obtain ⟨u, v, rfl, ⟨n, allowed, first⟩, last⟩ := taken
    obtain ⟨low, high⟩ := (Times.allows_between valid).mp allowed
    refine ⟨n, u, v, rfl, low, high, takes_lines.mp first, ?_⟩
    rcases takes_group_one.mp last with entry | lines
    · exact .inl (takes_entry.mp (takes_group_one.mp entry))
    · obtain ⟨m, allowed, taken⟩ := takes_group_one.mp lines
      rw [Times.allows_exactly.mp allowed] at taken
      exact .inr (takes_lines.mp taken)
  · intro ends
    obtain ⟨n, u, v, rfl, low, high, lines, last⟩ := ends
    refine ⟨u, v, rfl, ⟨n, (Times.allows_between valid).mpr ⟨low, high⟩, takes_lines.mpr lines⟩,
      takes_group_one.mpr ?_⟩
    rcases last with mark | lines
    · exact .inl (takes_group_one.mpr (takes_entry.mpr mark))
    · exact .inr (takes_group_one.mpr ⟨_, Times.allows_exactly.mpr rfl, takes_lines.mpr lines⟩)

theorem endsBlock_replicate {layout : Layout} (valid : layout.IsValid) :
    EndsBlock layout (List.replicate (layout.trailingLow + layout.functionBlock) '\n') :=
  ⟨_, _, _, List.replicate_add .., Nat.le_refl _, valid, isLines_replicate _,
    .inr (isLines_replicate _)⟩

theorem EndsBlock.lines {layout : Layout} (closes : ClosesBlocks layout) {w : Text}
    (ends : EndsBlock layout w) : ∃ n u v, w = u ++ v ∧ 0 < n ∧ IsLines n u ∧
      (IsMark v ∨ ∃ m, 3 ≤ n + m ∧ IsLines m v) := by
  obtain ⟨n, u, v, rfl, low, -, lines, last⟩ := ends
  refine ⟨n, u, v, rfl, Nat.lt_of_lt_of_le closes.low low, lines, ?_⟩
  rcases last with mark | more
  · exact .inl mark
  · have total := closes.enough
    exact .inr ⟨layout.functionBlock, by omega, more⟩

namespace IsDescription

variable {d : Text} (described : IsDescription d)
include described

/-- No end of a block starts inside of a description. -/
theorem not_endsBlock {layout : Layout} (closes : ClosesBlocks layout) {u v z w rest : Text}
    (split : d = u ++ v) (more : v ≠ []) (same : v ++ '\n' :: z = w ++ rest) :
    ¬ EndsBlock layout w := by
  intro ends
  obtain ⟨n, x, y, rfl, some, lines, last⟩ := ends.lines closes
  -- white space alone does not reach the end of the description
  have solid : ∃ c ∈ v, Text.isBlank c = false := by
    obtain ⟨front, c, rfl⟩ := (List.eq_nil_or_concat' v).resolve_left more
    exact ⟨c, by simp, described.solid (u ++ front) c (by simp [split])⟩
  obtain ⟨c, member, dark⟩ := solid
  have apart : ∀ t, (∀ e ∈ t, Text.isBlank e) → ∀ r, t ≠ v ++ r := by
    intro t white r eq
    rw [white c (by simp [eq, member])] at dark
    cases dark
  rw [List.append_assoc] at same
  rcases List.append_eq_append_iff.mp same with ⟨t, eq, -⟩ | ⟨t, rfl, eq⟩
  · exact apart x lines.blank t eq
  · rcases last with mark | ⟨m, three, others⟩
    · have inner : ∃ r, t = y ++ r := by
        rcases List.append_eq_append_iff.mp eq with ⟨r, rfl, -⟩ | ⟨r, rfl, next⟩
        · exact ⟨r, rfl⟩
        · cases r with
          | nil => exact ⟨[], by simp⟩
          | cons e r =>
            rw [List.cons_append] at next
            obtain ⟨rfl, -⟩ := List.cons.inj next
            exact absurd (by simp) mark.line
      obtain ⟨r, rfl⟩ := inner
      obtain ⟨s, rfl, blank⟩ := lines.starts some
      exact described.unmarked u s y r (by simpa using split) blank mark
    · have whole := lines.append others
      rcases List.append_eq_append_iff.mp eq with ⟨r, rfl, -⟩ | ⟨r, rfl, -⟩
      · obtain ⟨l, rest, front, few⟩ := whole.take three
        refine described.dense u l (rest ++ r) ?_ few
        rw [split, ← List.append_assoc x, front, List.append_assoc]
      · exact apart (x ++ (t ++ r)) whole.blank r (by simp)

theorem unqualified_append (tail : Text) :
    ∀ rest, d ++ '\n' :: tail = constWord ++ rest → rest.head?.any Text.isWord := by
  intro rest same
  rcases List.append_eq_append_iff.mp same with ⟨t, eq, next⟩ | ⟨t, eq, rfl⟩
  · cases t with
    | nil =>
      rw [List.append_nil] at eq
      have word := described.unqualified [] (by rw [eq, List.append_nil])
      cases word
    | cons c t =>
      rw [List.cons_append] at next
      obtain ⟨rfl, -⟩ := List.cons.inj next
      have member : '\n' ∈ constWord := by simp [eq]
      exact absurd member (by decide)
  · have word := described.unqualified t eq
    cases t with
    | nil => cases word
    | cons c t => exact word

end IsDescription

theorem takes_headingEnd {before : Option Char} {w rest : Text}
    (taken : headingEnd.Takes before w rest) :
    ∃ k m, w = k ++ (m ++ ['\n']) ∧ (k = [] ∨ k = constWord) ∧
      (m = [] ∨ ∃ r, m = ' ' :: '[' :: r ∧ ')' ∉ r) := by
  obtain ⟨k, _, rfl, const, m, _, rfl, brackets, rfl⟩ := taken
  refine ⟨k, m, rfl, takes_group_optional.mp const, ?_⟩
  rcases takes_group_optional.mp brackets with rfl | ⟨_, _, rfl, rfl, r, _, rfl, inner, rfl⟩
  · exact .inl rfl
  · refine .inr ⟨r ++ [']'], rfl, ?_⟩
    have allowed := (takes_chars_plus.mp inner).2
    have free : ')' ∉ r := by
      intro member
      have listed := allowed ')' member
      revert listed
      decide
    simp [free]

theorem head_blank {gap y z : Text} (blank : ∀ c ∈ gap, Text.isBlank c)
    (word : z.head?.any Text.isWord) (same : gap ++ y = z) : gap = [] := by
  cases gap with
  | nil => rfl
  | cons c gap =>
    rw [← same] at word
    have outside := Text.isWord_of_isBlank (blank c (.head _))
    rw [show Text.isWord c = true from word] at outside
    cases outside

theorem heading_unique {gap k m y q z : Text} (blank : ∀ c ∈ gap, Text.isBlank c)
    (const : k = [] ∨ k = constWord) (brackets : m = [] ∨ ∃ r, m = ' ' :: '[' :: r ∧ ')' ∉ r)
    (qualifier : q = [] ∨ q = " const".toList) (word : z.head?.any Text.isWord)
    (unqualified : ∀ rest, z = constWord ++ rest → rest.head?.any Text.isWord)
    (same : gap ++ (k ++ (m ++ '\n' :: y)) = q ++ '\n' :: z) : y = z := by
  -- behind the line end or behind the blank of the qualifier no white space follows
  have outside : ∀ c ∈ [' ', '\n'], Text.isWord c = false := by decide
  have behind : (m ++ '\n' :: y).head?.any Text.isWord = false := by
    rcases brackets with rfl | ⟨r, rfl, -⟩
    · exact outside '\n' (by simp)
    · exact outside ' ' (by simp)
  rcases qualifier with rfl | rfl
  · cases gap with
    | nil =>
      rcases const with rfl | rfl
      · rcases brackets with rfl | ⟨r, rfl, -⟩
        · exact (List.cons.inj same).2
        · exact absurd (List.cons.inj same).1 (by decide)
      · exact absurd (List.cons.inj same).1 (by decide)
    | cons c gap =>
      obtain ⟨-, next⟩ := List.cons.inj same
      obtain rfl := head_blank (fun d member => blank d (.tail _ member)) word next
      rcases const with rfl | rfl
      · have text : m ++ '\n' :: y = z := next
        rw [← text, behind] at word
        cases word
      · rw [unqualified _ next.symm] at behind
        cases behind
  · have split : gap ++ (k ++ (m ++ '\n' :: y)) = ' ' :: (constWord ++ '\n' :: z) := same
    cases gap with
    | nil =>
      rcases const with rfl | rfl
      · rcases brackets with rfl | ⟨r, rfl, -⟩
        · exact absurd (List.cons.inj split).1 (by decide)
        · obtain ⟨-, next⟩ := List.cons.inj split
          exact absurd (List.cons.inj next).1 (by decide)
      · exact absurd (List.cons.inj split).1 (by decide)
    | cons c gap =>
      obtain ⟨-, next⟩ := List.cons.inj split
      have first : (constWord ++ '\n' :: z).head?.any Text.isWord :=
        (by decide : Text.isWord 'c' = true)
      obtain rfl := head_blank (fun d member => blank d (.tail _ member)) first next
      rcases const with rfl | rfl
      · have text : m ++ '\n' :: y = constWord ++ '\n' :: z := next
        rw [← text, behind] at first
        cases first
      · have rest : m ++ '\n' :: y = '\n' :: z := List.append_cancel_left next
        rcases brackets with rfl | ⟨r, rfl, -⟩
        · exact (List.cons.inj rest).2
        · exact absurd (List.cons.inj rest).1 (by decide)

end Apidoc.Page
