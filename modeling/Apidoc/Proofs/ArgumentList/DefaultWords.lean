import Apidoc.Proofs.ArgumentList.Adoption
import Apidoc.Proofs.ArgumentList.NameReading
import Apidoc.Proofs.ArgumentList.Pieces
import Apidoc.Proofs.PrintedType.Enclosed
import Apidoc.Proofs.PrintedType.Row

namespace Apidoc.ArgumentList

open Page PrintedType Text

/-- A word of a default value is read as a name: it stands behind a blank or the mark of a pointer
or of a reference, and in front of what may stand behind a name. -/
def EndsInName (value word : Text) : Prop :=
  ∃ front c tail, ' ' :: value = front ++ c :: (word ++ tail) ∧ nameGap.accepts c ∧
    IsWordRun word ∧ ClosesPiece tail

section

variable {type name value : Text}

def defaultPiece (type name value : Text) : Text :=
  type ++ ' ' :: (name ++ " = ".toList ++ value)

theorem closesPiece_default : ClosesPiece (" = ".toList ++ value) ↔ IsShort value := by
  have blank : isBlank ' ' := by decide
  constructor
  · rintro ⟨space, rest, split, free, closed⟩
    have opening : '=' ∉ space := fun member => absurd (free '=' member) (by decide)
    rcases closed with rfl | ⟨default, rfl, short⟩
    · rw [List.append_nil] at split
      exact absurd (split ▸ by simp) opening
    · have same : [' '] ++ '=' :: (' ' :: value) = space ++ '=' :: default := split
      obtain ⟨-, rfl⟩ := first_unique (by decide) opening same
      exact (isShort_cons blank).mp short
  · intro short
    have spaced := (isShort_cons blank).mpr short
    exact ⟨[' '], '=' :: ' ' :: value, rfl, by decide, .inr ⟨_, rfl, spaced⟩⟩

theorem Reads.endsInName {front gap w tail : Text}
    (reads : Reads (defaultPiece type name value) front gap w tail) (free : '=' ∉ type)
    (word : IsWordRun name) (beyond : '=' ∈ front) : EndsInName value w := by
  obtain ⟨start, onward, rfl, first⟩ := List.eq_append_cons_of_mem beyond
  have equals : '=' ∉ type ++ ' ' :: (name ++ [' ']) := by
    simp [free, word.not_mem (by decide : isWord '=' = false)]
  have same : (type ++ ' ' :: (name ++ [' '])) ++ '=' :: (' ' :: value) =
      start ++ '=' :: (onward ++ (gap ++ (w ++ tail))) := by
    simpa [defaultPiece] using reads.parts
  obtain ⟨-, behind⟩ := first_unique equals first same
  obtain ⟨others, c, rfl⟩ := (List.eq_nil_or_concat' gap).resolve_left reads.gap.1
  exact ⟨onward ++ others, c, tail, by simpa using behind, reads.gap.2 c (by simp), reads.word,
    reads.closes⟩

theorem Reads.isShort {front gap w tail : Text}
    (reads : Reads (defaultPiece type name value) front gap w tail) (free : '=' ∉ type)
    (word : IsWordRun name) (before : '=' ∉ front) : IsShort value := by
  obtain ⟨space, rest, rfl, blank, ends⟩ := reads.closes.split
  have same : (type ++ [' ']) ++ (name ++ ([' '] ++ ("= ".toList ++ value))) =
      (front ++ gap) ++ (w ++ (space ++ rest)) := by
    simpa [defaultPiece] using reads.parts
  have apart : '=' ∉ front ++ gap := by
    rw [List.mem_append]
    exact not_or.mpr ⟨before, not_mem_of_nameGap reads.gap.2⟩
  obtain ⟨-, -, behind⟩ := lastWord_unique same (by simp [free]) apart
    (endsOutside_concat (by decide)) reads.endsOutside word reads.word (by decide) blank
    (by rintro c ⟨⟩; rfl) ends
  exact closesPiece_default.mp (behind ▸ reads.closes)

theorem reads_of_isShort (some : type ≠ []) (word : IsWordRun name) (short : IsShort value) :
    Reads (defaultPiece type name value) type [' '] name (" = ".toList ++ value) :=
  ⟨by simp [defaultPiece], some, ⟨by simp, by decide⟩, word, closesPiece_default.mpr short⟩

theorem reads_of_endsInName {w : Text} (ends : EndsInName value w) :
    ∃ front gap tail, Reads (defaultPiece type name value) front gap w tail := by
  obtain ⟨front, c, tail, eq, apart, run, closes⟩ := ends
  have parts : defaultPiece type name value =
      type ++ ' ' :: (name ++ " =".toList ++ front) ++ ([c] ++ (w ++ tail)) := by
    have whole : defaultPiece type name value =
        type ++ ' ' :: (name ++ " =".toList ++ ' ' :: value) := by
      simp [defaultPiece]
    rw [whole, eq]
    simp
  exact ⟨_, [c], tail, parts, by simp, ⟨by simp, by simpa using apart⟩, run, closes⟩

theorem pieces_defaultPiece (enclosed : IsEnclosed 0 type) (word : IsWordRun name)
    (uncut : ∀ x y, value = x ++ ',' :: y → bracketDepth x ≠ 0) :
    pieces (defaultPiece type name value) = [defaultPiece type name value] := by
  have blank : IsUnmarked [' '] := unmarked_of_blank (by decide)
  have equals : IsEnclosed 0 " = ".toList := isEnclosed_of_no_comma rfl (by decide) 0
  have front := enclosed.append ((blank.enclosed 0).append
    (((unmarked_of_word word.2).enclosed 0).append equals))
  have whole : defaultPiece type name value =
      type ++ ([' '] ++ (name ++ " = ".toList)) ++ value := by
    simp [defaultPiece]
  rw [whole, pieces_append front, pieces_of_uncut (isUncut_zero_iff.mpr uncut)]
  rfl

/-- A name in front of a short default value is taken. Any other default value hides the name: a
parameter takes a word of the default value that is read as a name, and keeps its own name if there
is no such word. -/
theorem adoptNames_default {p : Parameter} (anonymous : isAnonymous p.name) {tree : Tree}
    (parsed : parse type = .ok tree) (word : IsWordRun name)
    (uncut : ∀ x y, value = x ++ ',' :: y → bracketDepth x ≠ 0) :
    let piece := defaultPiece type name value
    (IsShort value → adoptNames [p] piece = [withName p name]) ∧
      (¬ IsShort value → (∀ w, ¬ EndsInName value w) → adoptNames [p] piece = [p]) ∧
      (¬ IsShort value → ∀ w, EndsInName value w →
        ∃ w', EndsInName value w' ∧ adoptNames [p] piece = [withName p w']) := by
  intro piece
  have free : '=' ∉ type := not_mem_of_parse parsed (by decide)
  have whole : pieces piece = [piece] :=
    pieces_defaultPiece (enclosed_of_parse parsed) word uncut
  rw [adoptNames_single whole]
  refine ⟨?_, ?_, ?_⟩
  · intro short
    have some : type ≠ [] := by
      rintro rfl
      exact parse_nil_ne tree parsed
    have given := nameIn?_of_reads (reads_of_isShort some word short) free
    have space : ∀ c ∈ [' '], isBlank c := by decide
    have unqualified : trim (type ++ [' ']) ≠ "const".toList := by
      have padded := trim_pad (g := []) (by simp) space type
      rw [List.nil_append] at padded
      rw [padded]
      exact trim_ne_of_parse parsed
    rw [adopt_eq_withName anonymous given unqualified]
  · intro long none
    have never : ∀ front gap w tail, ¬ Reads piece front gap w tail := by
      intro front gap w tail reads
      by_cases beyond : '=' ∈ front
      · exact none w (reads.endsInName free word beyond)
      · exact long (reads.isShort free word beyond)
    rw [adopt, if_pos anonymous, nameIn?_eq_none never]
    rfl
  · intro long w ends
    obtain ⟨front, gap, tail, reads⟩ := reads_of_endsInName ends
    obtain ⟨front', gap', w', tail', reads', -, given⟩ := exists_reading reads
    have beyond : '=' ∈ front' := by
      by_contra before
      exact long (reads'.isShort free word before)
    have unqualified : trim (front' ++ gap') ≠ "const".toList := by
      intro const
      have kept : '=' ∈ trim (front' ++ gap') :=
        mem_trim (List.mem_append_left _ beyond) (by decide)
      rw [const] at kept
      exact absurd kept (by decide)
    exact ⟨w', reads'.endsInName free word beyond, by
      rw [adopt_eq_withName anonymous given unqualified]⟩

end

theorem adoptNames_default_number :
    let p : Parameter := ⟨"_0".toList, "int".toList, .regular⟩
    let value := "0".toList
    isAnonymous p.name ∧ parse "int".toList = .ok intTree ∧ IsWordRun "count".toList ∧
      (∀ x y, value = x ++ ',' :: y → bracketDepth x ≠ 0) ∧ IsShort value ∧
      adoptNames [p] (defaultPiece "int".toList "count".toList value) =
        [⟨"count".toList, "int".toList, .regular⟩] := by
  intro p value
  have anonymous : isAnonymous p.name := by decide
  have word : IsWordRun "count".toList := by decide
  have uncut : ∀ x y, value = x ++ ',' :: y → bracketDepth x ≠ 0 := by
    intro x y eq
    exact absurd (eq ▸ by simp) (by decide : ',' ∉ value)
  have short : IsShort value := ⟨[], value, [], [], rfl, by decide, by decide, .inl rfl, by decide⟩
  refine ⟨anonymous, parse_int, word, uncut, short, ?_⟩
  rw [(adoptNames_default anonymous parse_int word uncut).1 short]
  decide

/-- The words of a default value with an operator: the last one is taken for the name. -/
theorem not_adoptNames_default :
    let p : Parameter := ⟨"_0".toList, "int".toList, .regular⟩
    let piece := defaultPiece "int".toList "a".toList "A | B".toList
    isAnonymous p.name ∧ parse "int".toList = .ok intTree ∧
      (IsWordRun "a".toList ∧ isTypeWord "a".toList = false) ∧
      (∀ c ∈ ['\n', '\r', ','], c ∉ "A | B".toList) ∧ piece = "int a = A | B".toList ∧
      adoptNames [p] piece = [{ p with name := "B".toList }] ∧
      adoptNames [p] piece ≠ [p] ∧
      adoptNames [p] piece ≠ [{ p with name := Identifier.sanitize "a".toList }] := by
  intro p piece
  have taken : adoptNames [p] piece = [{ p with name := "B".toList }] := by decide +kernel
  refine ⟨by decide, parse_int, by decide, by decide, by decide, taken, ?_, ?_⟩
  · rw [taken]
    decide
  · rw [taken]
    decide

end Apidoc.ArgumentList
