import Apidoc.Proofs.Entity.LongNumber
import Apidoc.Proofs.Text.Occurrence

namespace Apidoc.Page

/-- A cell of a table row: what stands behind the name of its tag, and its text. -/
structure Cell where
  attributes : Text
  text : Text
  opening : '<' ∉ attributes
  closing : '>' ∉ attributes
  seamless : ¬ cellSeam <:+: attributes

def tag (body : Text) : Text := '<' :: (body ++ ['>'])

def Cell.markup (c : Cell) : Text :=
  tag ("td".toList ++ c.attributes) ++ (Entity.encode c.text ++ tag "/td".toList)

def rowMarkup (cells : List Cell) : Text :=
  tag "tr".toList ++ (cells.flatMap Cell.markup ++ tag "/tr".toList)

/-- The texts that are not empty with tabs between them. An empty first text leaves a tab in front
of the others. -/
def columns (texts : List Text) : Text :=
  (if texts.head? = some [] ∧ ∃ t ∈ texts, t ≠ [] then ['\t'] else []) ++
    ['\t'].intercalate (texts.filter (· ≠ []))

theorem dropTags_inside {body : Text} (opening : '<' ∉ body) (closing : '>' ∉ body)
    (buffer rest : Text) :
    dropTags true buffer (body ++ rest) = dropTags true (body.reverse ++ buffer) rest := by
  induction body generalizing buffer with
  | nil => rfl
  | cons c body ih =>
    have notOpening : c ≠ '<' := (List.ne_of_not_mem_cons opening).symm
    have notClosing : c ≠ '>' := (List.ne_of_not_mem_cons closing).symm
    have others := ih (List.not_mem_of_not_mem_cons opening)
      (List.not_mem_of_not_mem_cons closing) (c :: buffer)
    simp [dropTags, notOpening, notClosing, others]

theorem dropTags_tag {body : Text} (opening : '<' ∉ body) (closing : '>' ∉ body)
    (buffer rest : Text) :
    dropTags false buffer.reverse (tag body ++ rest) =
      dropTags false (buffer ++ body).reverse rest := by
  have inside := dropTags_inside opening closing buffer.reverse ('>' :: rest)
  simp [tag, dropTags, inside]

theorem dropTags_encode {s : Text} (some : s ≠ []) (buffer rest : Text) :
    dropTags false buffer.reverse (Entity.encode s ++ rest) =
      (if cellSeam <:+: buffer then ['\t'] else []) ++
        (Entity.encode s ++ dropTags false [] rest) := by
  obtain ⟨opening, closing⟩ := Entity.not_mem_encode s
  cases encoded : Entity.encode s with
  | nil =>
    have none : s = [] := by rw [← Entity.decode_encode s, encoded]; rfl
    exact absurd none some
  | cons c w =>
    rw [encoded] at opening closing
    have notOpening : c ≠ '<' := (List.ne_of_not_mem_cons opening).symm
    have notClosing : c ≠ '>' := (List.ne_of_not_mem_cons closing).symm
    have kept := dropTags_append (List.not_mem_of_not_mem_cons opening)
      (List.not_mem_of_not_mem_cons closing) rest
    by_cases seam : cellSeam <:+: buffer <;>
      simp [dropTags, notOpening, notClosing, Text.occursIn_iff, seam, kept]

namespace Cell

variable (c : Cell)

theorem opening_tag : '<' ∉ "td".toList ++ c.attributes := by simp [c.opening]

theorem closing_tag : '>' ∉ "td".toList ++ c.attributes := by simp [c.closing]

theorem not_seam_first : ¬ cellSeam <:+: "tr".toList ++ ("td".toList ++ c.attributes) := by
  have later {d : Char} {s : Text} (other : d ≠ '/') (seam : cellSeam <:+: d :: s) :
      cellSeam <:+: s := by
    rcases List.infix_cons_iff.mp seam with ⟨t, here⟩ | later
    · exact absurd (List.cons.inj here).1.symm other
    · exact later
  intro seam
  apply c.seamless
  exact later (by decide) (later (by decide) (later (by decide) (later (by decide) seam)))

theorem seam_behind {buffer : Text} (ended : "/td".toList <:+ buffer) :
    cellSeam <:+: buffer ++ ("td".toList ++ c.attributes) := by
  obtain ⟨front, rfl⟩ := ended
  exact ⟨front, c.attributes, by simp [cellSeam]⟩

end Cell

def columnMarkup (s : Text) : Text := if s = [] then [] else '\t' :: Entity.encode s

theorem dropTags_cells {cells : List Cell} {buffer : Text} (ended : "/td".toList <:+ buffer) :
    dropTags false buffer.reverse (cells.flatMap Cell.markup ++ tag "/tr".toList) =
      (cells.map Cell.text).flatMap columnMarkup := by
  induction cells generalizing buffer with
  | nil =>
    have last := dropTags_tag (show '<' ∉ "/tr".toList by decide) (by decide) buffer []
    simpa [dropTags] using last
  | cons c cells ih =>
    have closed := dropTags_tag (show '<' ∉ "/td".toList by decide) (by decide)
    have behind (front : Text) := ih (List.suffix_append front "/td".toList)
    rw [List.flatMap_cons, Cell.markup, List.append_assoc, List.append_assoc, List.append_assoc,
      dropTags_tag c.opening_tag c.closing_tag, List.map_cons, List.flatMap_cons, columnMarkup]
    by_cases empty : c.text = []
    · rw [if_pos empty, empty, List.nil_append, Entity.encode, List.flatMap_nil, List.nil_append,
        closed, behind]
    · have next := closed [] (cells.flatMap Cell.markup ++ tag "/tr".toList)
      rw [List.reverse_nil] at next
      rw [if_neg empty, dropTags_encode empty, if_pos (c.seam_behind ended), next, behind]
      rfl

theorem dropTags_rowMarkup (c : Cell) (cells : List Cell) :
    dropTags false [] (rowMarkup (c :: cells)) =
      Entity.encode c.text ++ (cells.map Cell.text).flatMap columnMarkup := by
  have opened := dropTags_tag (show '<' ∉ "tr".toList by decide) (by decide) []
    ((c :: cells).flatMap Cell.markup ++ tag "/tr".toList)
  have closed := dropTags_tag (show '<' ∉ "/td".toList by decide) (by decide)
  have behind (front : Text) :
      dropTags false (front ++ "/td".toList).reverse
        (cells.flatMap Cell.markup ++ tag "/tr".toList) =
          (cells.map Cell.text).flatMap columnMarkup :=
    dropTags_cells (List.suffix_append front "/td".toList)
  rw [List.reverse_nil, List.nil_append] at opened
  rw [rowMarkup, opened, List.flatMap_cons, Cell.markup, List.append_assoc, List.append_assoc,
    List.append_assoc, dropTags_tag c.opening_tag c.closing_tag]
  by_cases empty : c.text = []
  · rw [empty, Entity.encode, List.flatMap_nil, List.nil_append, List.nil_append, closed, behind]
  · have next := closed [] (cells.flatMap Cell.markup ++ tag "/tr".toList)
    rw [List.reverse_nil] at next
    rw [dropTags_encode empty, if_neg c.not_seam_first, next, behind]
    rfl

def column (s : Text) : Text := if s = [] then [] else '\t' :: s

theorem decodeChecked_columns (texts : List Text) :
    Entity.decodeChecked (texts.flatMap columnMarkup) = .ok (texts.flatMap column) := by
  induction texts with
  | nil => rfl
  | cons s texts ih =>
    rw [List.flatMap_cons, List.flatMap_cons, columnMarkup, column]
    by_cases empty : s = []
    · rw [if_pos empty, if_pos empty, List.nil_append, List.nil_append, ih]
    · rw [if_neg empty, if_neg empty, List.cons_append,
        Entity.decodeChecked_plain (by decide), Entity.decodeChecked_encode_append, ih]
      rfl

theorem intercalate_cons (s : Text) (texts : List Text) :
    ['\t'].intercalate (s :: texts) = s ++ texts.flatMap ('\t' :: ·) := by
  induction texts generalizing s with
  | nil => simp
  | cons t texts ih => simp [ih t]

theorem columns_cons (s : Text) (texts : List Text) :
    columns (s :: texts) = s ++ texts.flatMap column := by
  have others : texts.flatMap column = (texts.filter (· ≠ [])).flatMap ('\t' :: ·) := by
    induction texts with
    | nil => rfl
    | cons t texts ih =>
      rw [List.flatMap_cons, ih, column]
      by_cases empty : t = [] <;> simp [empty]
  rw [others, columns, List.head?_cons, List.filter_cons]
  by_cases empty : s = []
  · subst empty
    have some : (∃ t ∈ [] :: texts, t ≠ []) ↔ texts.filter (· ≠ []) ≠ [] := by
      simp [List.filter_eq_nil_iff]
    simp only [some]
    generalize texts.filter (· ≠ []) = kept
    cases kept <;> simp [intercalate_cons]
  · simp [empty, intercalate_cons]

theorem columns_of_nonempty {texts : List Text} (all : ∀ t ∈ texts, t ≠ []) :
    columns texts = ['\t'].intercalate texts := by
  have first : texts.head? ≠ some [] := fun head => all [] (List.mem_of_mem_head? head) rfl
  have kept : texts.filter (· ≠ []) = texts :=
    List.filter_eq_self.mpr fun t member => by simpa using all t member
  rw [columns, kept, if_neg fun both => first both.1, List.nil_append]

/-- The plain text of a row has the texts of its cells as columns. Where no cell is empty, these are
all of them, and a cut at tabs gives them back if they have none themselves. -/
theorem readMarkup_rowMarkup {cells : List Cell} (some : cells ≠ []) :
    let texts := cells.map Cell.text
    readMarkup (rowMarkup cells) = .ok (columns texts) ∧
      ((∀ t ∈ texts, t ≠ []) →
        readMarkup (rowMarkup cells) = .ok (['\t'].intercalate texts)) ∧
      ((∀ t ∈ texts, t ≠ [] ∧ '\t' ∉ t) →
        (readMarkup (rowMarkup cells)).map (·.splitOn '\t') = .ok texts) := by
  intro texts
  have read : readMarkup (rowMarkup cells) = .ok (columns texts) := by
    obtain ⟨c, rest, rfl⟩ := List.exists_cons_of_ne_nil some
    calc readMarkup (rowMarkup (c :: rest))
      _ = Entity.decodeChecked (dropTags false [] (rowMarkup (c :: rest))) := rfl
      _ = (Entity.decodeChecked ((rest.map Cell.text).flatMap columnMarkup)).map (c.text ++ ·) := by
        rw [dropTags_rowMarkup, Entity.decodeChecked_encode_append]
      _ = .ok (c.text ++ (rest.map Cell.text).flatMap column) := by
        rw [decodeChecked_columns]
        rfl
      _ = .ok (columns texts) := by rw [← columns_cons]; rfl
  refine ⟨read, fun all => by rw [read, columns_of_nonempty all], fun each => ?_⟩
  have filled : texts ≠ [] := by simpa [texts] using some
  have pieces := List.splitOn_intercalate '\t' (fun t member => (each t member).2) filled
  rw [read, columns_of_nonempty fun t member => (each t member).1]
  exact congrArg Except.ok pieces

theorem readMarkup_rowMarkup_alignment :
    let cell (text : Text) : Cell :=
      ⟨" class='topAlign' /td".toList, text, by decide, by decide, by decide⟩
    let full := ["Qt::AlignLeft".toList, "</td><td>".toList, "1 &lt; 2".toList].map cell
    let short := [[], "0x1".toList, [], "Left.".toList].map cell
    full ≠ [] ∧ (∀ t ∈ full.map Cell.text, t ≠ [] ∧ '\t' ∉ t) ∧
      (readMarkup (rowMarkup full)).map (·.splitOn '\t') = .ok (full.map Cell.text) ∧
      readMarkup (rowMarkup short) = .ok "\t0x1\tLeft.".toList := by
  intro cell full short
  have some : full ≠ [] := by decide
  have each : ∀ t ∈ full.map Cell.text, t ≠ [] ∧ '\t' ∉ t := by decide
  have other : short ≠ [] := by decide
  exact ⟨some, each, (readMarkup_rowMarkup some).2.2 each, (readMarkup_rowMarkup other).1⟩

end Apidoc.Page
