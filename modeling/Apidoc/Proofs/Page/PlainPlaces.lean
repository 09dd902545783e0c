import Apidoc.Proofs.Entity.LongNumber
import Apidoc.Proofs.Text.Occurrence

/-!
Markup told by places. A character is plain if the last angle bracket in front of it does not open
a tag, and the text of a page is made of its plain characters, with a tab between two of them where
the markup between them joins two table cells. The scan knows of the characters passed only whether
it stands in a tag, and the markup since the last plain one.
-/
namespace Apidoc.Page

def isBracket (c : Char) : Bool := c == '<' || c == '>'

/-- The last angle bracket of a text opens a tag. -/
def EndsInTag (s : Text) : Prop := (s.filter isBracket).getLast? = some '<'

instance (s : Text) : Decidable (EndsInTag s) :=
  inferInstanceAs (Decidable (_ = some '<'))

/-- The character at a place is no angle bracket, and the last one in front of it, if there is any,
closes a tag. -/
def IsPlainAt (source : Text) (i : Nat) : Prop :=
  source[i]?.any (!isBracket ·) ∧ ¬ EndsInTag (source.take i)

instance (source : Text) (i : Nat) : Decidable (IsPlainAt source i) :=
  inferInstanceAs (Decidable (_ ∧ _))

/-- The plain places among the first `n`, in order. -/
def plainPlaces (source : Text) (n : Nat) : List Nat :=
  (List.range n).filter (IsPlainAt source ·)

/-- The characters other than angle brackets between the last plain place in front of a place, or
the start of the source, and that place. -/
def markupBefore (source : Text) (i : Nat) : Text :=
  let start := ((plainPlaces source i).getLast?.map (· + 1)).getD 0
  ((source.take i).drop start).filter (!isBracket ·)

/-- The character at a place, with a tab in front of it if the markup before it joins two cells. -/
def writtenAt (source : Text) (i : Nat) : Text :=
  (if cellSeam <:+: markupBefore source i then ['\t'] else []) ++ source[i]?.toList

/-- What is written for the plain characters of a source. -/
def keptText (source : Text) : Text :=
  (plainPlaces source source.length).flatMap (writtenAt source)

theorem endsInTag_concat (s : Text) (c : Char) :
    EndsInTag (s ++ [c]) ↔ if isBracket c then c = '<' else EndsInTag s := by
  unfold EndsInTag
  cases bracket : isBracket c with
  | true => simp [bracket]
  | false => simp [bracket]

section

variable {source pre rest : Text} {c : Char}

theorem isPlainAt_iff (split : source = pre ++ c :: rest) :
    IsPlainAt source pre.length ↔ isBracket c = false ∧ ¬ EndsInTag pre := by
  simp [IsPlainAt, split]

theorem plainPlaces_succ (source : Text) (i : Nat) :
    plainPlaces source (i + 1) =
      plainPlaces source i ++ if IsPlainAt source i then [i] else [] := by
  rw [plainPlaces, List.range_succ, List.filter_append]
  by_cases plain : IsPlainAt source i <;> simp [plainPlaces, plain]

theorem markupBefore_of_plain {i : Nat} (plain : IsPlainAt source i) :
    markupBefore source (i + 1) = [] := by
  have last : (plainPlaces source (i + 1)).getLast? = some i := by
    rw [plainPlaces_succ, if_pos plain, List.getLast?_concat]
  simp [markupBefore, last]

theorem markupBefore_of_not_plain (split : source = pre ++ c :: rest)
    (other : ¬ IsPlainAt source pre.length) :
    markupBefore source (pre.length + 1) =
      markupBefore source pre.length ++ if isBracket c then [] else [c] := by
  have same : plainPlaces source (pre.length + 1) = plainPlaces source pre.length := by
    rw [plainPlaces_succ, if_neg other, List.append_nil]
  have before : ∀ i ∈ plainPlaces source pre.length, i < pre.length := by
    intro i member
    exact List.mem_range.mp (List.mem_of_mem_filter member)
  have start : ((plainPlaces source pre.length).getLast?.map (· + 1)).getD 0 ≤ pre.length := by
    cases last : (plainPlaces source pre.length).getLast? with
    | none => exact Nat.zero_le _
    | some i => exact before i (List.mem_of_getLast? last)
  have longer : source.take (pre.length + 1) = pre ++ [c] := by simp [split, List.take_append]
  have shorter : source.take pre.length = pre := by simp [split]
  unfold markupBefore
  rw [same, longer, shorter]
  simp only
  rw [List.drop_append_of_le_length start, List.filter_append]
  cases bracket : isBracket c <;> simp [bracket]

end

theorem dropTags_behind {source pre rest : Text} (split : source = pre ++ rest) :
    dropTags (EndsInTag pre) (markupBefore source pre.length).reverse rest =
      ((List.range' pre.length rest.length).filter (IsPlainAt source ·)).flatMap
        (writtenAt source) := by
  -- the scan carries along the markup behind the last plain character
  induction rest generalizing pre with
  | nil => rfl
  | cons c rest ih =>
    have next := ih (show source = (pre ++ [c]) ++ rest by rw [split]; simp)
    rw [List.length_append, List.length_singleton] at next
    rw [List.length_cons, List.range'_succ, List.filter_cons]
    by_cases plain : IsPlainAt source pre.length
    · obtain ⟨text, outside⟩ := (isPlainAt_iff split).mp plain
      have here : writtenAt source pre.length =
          (if cellSeam <:+: markupBefore source pre.length then ['\t'] else []) ++ [c] := by
        simp [writtenAt, split]
      have opening : c ≠ '<' := by rintro rfl; cases text
      have closing : c ≠ '>' := by rintro rfl; cases text
      have still : ¬ EndsInTag (pre ++ [c]) := by simpa [endsInTag_concat, text] using outside
      rw [markupBefore_of_plain plain, decide_eq_false still] at next
      rw [decide_eq_true plain, if_pos rfl, List.flatMap_cons, here, ← next, dropTags,
        if_neg opening, if_neg closing, decide_eq_false outside, List.reverse_reverse]
      simp only [Text.occursIn_iff]
      by_cases seam : cellSeam <:+: markupBefore source pre.length <;> simp [seam]
    · have passed : dropTags (EndsInTag pre) (markupBefore source pre.length).reverse (c :: rest) =
          dropTags (EndsInTag (pre ++ [c]))
            (markupBefore source (pre.length + 1)).reverse rest := by
        rw [markupBefore_of_not_plain split plain, dropTags]
        cases bracket : isBracket c with
        | true =>
          rcases (by simpa [isBracket] using bracket : c = '<' ∨ c = '>') with rfl | rfl
          · simp [endsInTag_concat, isBracket]
          · simp [endsInTag_concat, isBracket]
        | false =>
          have inside : EndsInTag pre := by
            by_contra outside
            exact plain ((isPlainAt_iff split).mpr ⟨bracket, outside⟩)
          have opening : c ≠ '<' := by rintro rfl; cases bracket
          have closing : c ≠ '>' := by rintro rfl; cases bracket
          simp [endsInTag_concat, bracket, inside, opening, closing]
      rw [decide_eq_false plain, passed, next]
      rfl

theorem dropTags_eq_keptText (source : Text) : dropTags false [] source = keptText source := by
  have whole := dropTags_behind (show source = [] ++ source from rfl)
  rw [List.length_nil, ← List.range_eq_range'] at whole
  exact whole

/-- A page reads as the text that its tags leave, with the references in it decoded once. -/
theorem readMarkup_eq_keptText (source : Text) :
    readMarkup source = Entity.decodeChecked (keptText source) := by
  rw [← dropTags_eq_keptText]
  rfl

/-- Tags may be nested or left open. -/
example : keptText "a<i<</td>><td>b<i".toList = "a\tb".toList := by decide +kernel

end Apidoc.Page
