import Apidoc.Proofs.Text.Character
import Apidoc.Text.Lines

/-!
The lines of a text. A text is its lines with an end behind each of them but the last, which needs
none, and it can be cut so in one way only. Ends that are written with a carriage return and a line
feed read as line feeds.
-/
namespace Apidoc.Text

def lineEnds : List Text :=
  ["\r\n", "\n", "\r", "\x0b", "\x0c", "\x1c", "\x1d", "\x1e", "\u0085", "\u2028", "\u2029"].map
    String.toList

def IsOneLine (s : Text) : Prop := ∀ c ∈ s, [c] ∉ lineEnds

/-- The text consists of these lines. Where a line feed follows a carriage return, both are one end,
and nothing behind the last end is no line. -/
inductive Lined : Text → List Text → Prop
  | nil : Lined [] []
  | last {l : Text} : l ≠ [] → IsOneLine l → Lined l [l]
  | ended {l e s : Text} {ls : List Text} : IsOneLine l → e ∈ lineEnds →
      (e = ['\r'] → s.head? ≠ some '\n') → Lined s ls → Lined (l ++ (e ++ s)) (l :: ls)

theorem isLineBreak_iff {c : Char} : isLineBreak c ↔ [c] ∈ lineEnds := by
  constructor
  · intro breaks
    obtain ⟨r, member, above, below⟩ := inRanges_eq_true breaks
    have all : ∀ r ∈ [(0x0A, 0x0D), (0x1C, 0x1E), (0x85, 0x85), (0x2028, 0x2029)],
        ∀ n ∈ List.range' r.1 (r.2 + 1 - r.1), [Char.ofNat n] ∈ lineEnds := by decide
    have code : c.toNat ∈ List.range' r.1 (r.2 + 1 - r.1) := by
      rw [List.mem_range'_1]
      omega
    simpa using all r member c.toNat code
  · intro member
    have single : ∀ e ∈ lineEnds, e.all fun c => isLineBreak c := by decide
    simpa using single [c] member

theorem isOneLine_nil : IsOneLine [] := fun _ absent => nomatch absent

theorem isOneLine_cons {c : Char} {s : Text} :
    IsOneLine (c :: s) ↔ [c] ∉ lineEnds ∧ IsOneLine s :=
  List.forall_mem_cons

theorem Lined.cons {c : Char} {s : Text} {ls : List Text} (within : [c] ∉ lineEnds)
    (lined : Lined s ls) : Lined (c :: s) (consHead c ls) := by
  cases lined with
  | nil => exact .last (List.cons_ne_nil c []) (isOneLine_cons.mpr ⟨within, isOneLine_nil⟩)
  | last _ line => exact .last (List.cons_ne_nil c s) (isOneLine_cons.mpr ⟨within, line⟩)
  | ended line ends whole rest => exact .ended (isOneLine_cons.mpr ⟨within, line⟩) ends whole rest

theorem lined_lines (s : Text) : Lined s (lines s) := by
  fun_induction lines s with
  | case1 => exact .nil
  | case2 s ih => exact .ended isOneLine_nil (by decide : "\r\n".toList ∈ lineEnds) nofun ih
  | case3 c s other breaks ih =>
    refine .ended (e := [c]) isOneLine_nil (isLineBreak_iff.mp breaks) ?_ ih
    rintro ⟨⟩ feed
    obtain ⟨t, rfl⟩ := List.head?_eq_some_iff.mp feed
    exact other t rfl rfl
  | case4 c s other within ih => exact ih.cons fun member => within (isLineBreak_iff.mpr member)

theorem lines_end {e s : Text} (ends : e ∈ lineEnds) (whole : e = ['\r'] → s.head? ≠ some '\n') :
    lines (e ++ s) = [] :: lines s := by
  have single {c : Char} (member : [c] ∈ lineEnds) (whole : c = '\r' → s.head? ≠ some '\n') :
      lines (c :: s) = [] :: lines s := by
    rw [lines, if_pos (isLineBreak_iff.mpr member)]
    rintro t rfl rfl
    exact whole rfl rfl
  have forms : ∀ e ∈ lineEnds, e = "\r\n".toList ∨ ∃ c, e = [c] := by
    simp [lineEnds]
  rcases forms e ends with rfl | ⟨c, rfl⟩
  · rfl
  · exact single ends fun same => whole (by rw [same])

theorem lines_cons {c : Char} (within : [c] ∉ lineEnds) (s : Text) :
    lines (c :: s) = consHead c (lines s) := by
  have none : ¬ isLineBreak c := fun breaks => within (isLineBreak_iff.mp breaks)
  rw [lines, if_neg none]
  rintro t rfl -
  exact within (by decide)

theorem Lined.eq_lines {s : Text} {ls : List Text} (lined : Lined s ls) : ls = lines s := by
  induction lined with
  | nil => rfl
  | @last l some line =>
    induction l with
    | nil => exact absurd rfl some
    | cons c l ih =>
      obtain ⟨within, line⟩ := isOneLine_cons.mp line
      rw [lines_cons within]
      cases l with
      | nil => rfl
      | cons d l => rw [← ih (List.cons_ne_nil d l) line, consHead]
  | @ended l e s ls line ends whole _ ih =>
    rw [ih]
    induction l with
    | nil => exact (lines_end ends whole).symm
    | cons c l more =>
      obtain ⟨within, line⟩ := isOneLine_cons.mp line
      rw [List.cons_append, lines_cons within, ← more line, consHead]

/-- A text is cut into its lines, and in no other way. -/
theorem lined_iff {s : Text} {ls : List Text} : Lined s ls ↔ ls = lines s := by
  constructor
  · exact Lined.eq_lines
  · rintro rfl
    exact lined_lines s

def crlf (s : Text) : Text := s.flatMap fun c => if c = '\n' then ['\r', '\n'] else [c]

theorem unixLines_cons {c : Char} (other : c ≠ '\r') (s : Text) :
    unixLines (c :: s) = c :: unixLines s := by
  simp [unixLines, other]

theorem unixLines_of_not_mem {s : Text} (unix : '\r' ∉ s) : unixLines s = s := by
  induction s with
  | nil => rfl
  | cons c s ih =>
    have other : c ≠ '\r' := (List.ne_of_not_mem_cons unix).symm
    have rest := ih (List.not_mem_of_not_mem_cons unix)
    rw [unixLines_cons other, rest]

theorem unixLines_crlf {s : Text} (unix : '\r' ∉ s) : unixLines (crlf s) = s := by
  induction s with
  | nil => rfl
  | cons c s ih =>
    have other : c ≠ '\r' := (List.ne_of_not_mem_cons unix).symm
    have rest := ih (List.not_mem_of_not_mem_cons unix)
    have written : crlf (c :: s) = (if c = '\n' then ['\r', '\n'] else [c]) ++ crlf s :=
      List.flatMap_cons
    rw [written]
    split
    · rename_i same
      rw [same]
      exact congrArg ('\n' :: ·) rest
    · rw [List.singleton_append, unixLines_cons other, rest]

end Apidoc.Text
