import Apidoc.Proofs.Page.BrokenName
import Apidoc.Proofs.PrintedType.OuterMarks
import Apidoc.Proofs.PrintedType.Plain

namespace Apidoc.Page

open Computability Pattern PrintedType

def trailing : Language Char := maybe (gap * exact constWord)

theorem trailing_blank {t : Text} (member : t ∈ trailing) (z : Text) :
    ∃ c x, t ++ '\n' :: z = c :: x ∧ Text.isBlank c := by
  rcases member with none | some
  · cases none
    exact ⟨'\n', z, rfl, by decide⟩
  · obtain ⟨g, ⟨nonempty, blank⟩, k, -, rfl⟩ := Language.mem_mul.mp some
    obtain ⟨c, g, rfl⟩ := List.exists_cons_of_ne_nil nonempty
    exact ⟨c, g ++ k ++ '\n' :: z, by simp, blank c (.head g)⟩

def signedLegacyTypes : List Text := ["unsigned int".toList, "unsigned int*".toList]

/-- No spelling of the type has another in front of a line break. `unsigned` as a typedef name would
be one in the legacy name `unsigned long`. -/
structure IsBreakable (names : Text → List Text) (tree : Tree) : Prop where
  scopes : HasPlainScopes tree.path
  sign : tree.form.fullSpelling ∈ signedLegacyTypes →
    Sign.unsigned.text ∉ names tree.form.spelling

section

variable {names : Text → List Text}

theorem newline_not_mem {form : Form} {w : Text} (member : w ∈ form.decorationSpelling) :
    '\n' ∉ w := by
  have plain : form.decoration.IsPlain ['\n'] := by
    have reference : referencePart.IsPlain ['\n'] := by decide
    have pointer : pointerPart.IsPlain ['\n'] := by decide
    unfold Form.decoration
    split
    · exact reference
    · split
      · exact pointer
      · exact trivial
  have taken := (spells_decoration form none w []).mpr member
  exact not_mem_of_takes plain taken (.head [])

theorem break_in_name {form : Form} {name decoration w z : Text}
    (member : decoration ∈ form.decorationSpelling) (same : name ++ decoration = w ++ '\n' :: z) :
    ∃ x, name = w ++ '\n' :: x := by
  have line := newline_not_mem member
  rcases List.append_eq_append_iff.mp same with ⟨v, rfl, rest⟩ | ⟨v, rfl, rest⟩
  · exact absurd (by simp [rest]) line
  · cases v with
    | nil =>
      obtain rfl : decoration = '\n' :: z := rest.symm
      exact absurd (.head z) line
    | cons d v =>
      obtain ⟨rfl, -⟩ := List.cons.inj rest
      exact ⟨v, rfl⟩

theorem free_of_counts {n : Nat} {L : Language Char} (counts : Counts n L) {u v : Text}
    (whole : u ++ v ∈ L) (start : u ∈ L) : '>' ∉ v ∧ ∀ c ∈ decorationMarks, c ∉ v := by
  obtain ⟨level, marks⟩ := counts _ whole
  obtain ⟨level', marks'⟩ := counts _ start
  have read := level 0 (Nat.le_refl 0)
  have read' := level' 0 (Nat.le_refl 0)
  rw [depthAfter_append, read', Option.bind_some] at read
  rw [outerMarks_append read', marks'] at marks
  exact (not_mem_of_outerMarks read (by omega)).2

theorem own_unbroken (words : ∀ key, ∀ w ∈ names key, Text.IsWordRun w) {form : Form} {path : Path}
    (named : path.Named) (single : HasPlainScopes path) {f s p b f' s' p' b' d d' t z : Text}
    (foreign : f ∈ foreignScope) (signed : s ∈ signSpelling form.sign)
    (scope : p ∈ path.scopesSpelling (path.scopesDocumented freeSpace names))
    (base : b ∈ path.baseDocumented freeSpace names) (decorated : d ∈ form.decorationSpelling)
    (foreign' : f' ∈ foreignScope) (signed' : s' ∈ signSpelling form.sign)
    (scope' : p' ∈ path.scopesSpelling (path.scopesDocumented freeSpace names))
    (base' : b' ∈ path.baseDocumented freeSpace names) (decorated' : d' ∈ form.decorationSpelling)
    (trails : t ∈ trailing) (follows : s ≠ [] → f' = f ∧ s' ≠ []) :
    f ++ (s ++ (p ++ b)) ++ d ≠ f' ++ (s' ++ (p' ++ b')) ++ (d' ++ (t ++ '\n' :: z)) := by
  intro same
  rw [← List.append_assoc d', ← List.append_assoc _ (d' ++ t)] at same
  obtain ⟨x, broken⟩ := break_in_name decorated same
  rw [List.append_assoc] at broken
  obtain ⟨n, counts⟩ := path.exists_counts_name words named form.sign
  have start : f' ++ (s' ++ (p' ++ b')) ∈ path.ownName names form.sign :=
    ⟨f', foreign', _, ⟨s', signed', _, ⟨p', scope', b', base', rfl⟩, rfl⟩, rfl⟩
  have whole : f ++ (s ++ (p ++ b)) ∈ path.ownName names form.sign :=
    ⟨f, foreign, _, ⟨s, signed, _, ⟨p, scope, b, base, rfl⟩, rfl⟩, rfl⟩
  rw [broken] at whole
  obtain ⟨free, unmarked⟩ := free_of_counts counts whole start
  have bare : d' = [] := by
    refine (decoration_cases decorated').resolve_right ?_
    rintro ⟨c, mark, member⟩
    exact unmarked c mark (by simp [member])
  subst bare
  obtain ⟨c, y, blanks, blank⟩ := trailing_blank trails x
  rw [List.nil_append, blanks] at broken free
  exact ownName_unbroken named single foreign signed scope base signed' base' follows blank
    (List.not_mem_of_not_mem_cons free) broken

end

theorem exists_last_token {w : Text} : (d : NameNode) → d.path.last = .plain [w] →
    ∃ ts t, d.yield = ts ++ [t] ∧ t.text = w
  | .base (.plain words), last => by
    have texts : words.map Token.text = [w] := Segment.plain.inj last
    obtain ⟨t, rfl, text⟩ := List.map_eq_singleton_iff.mp texts
    exact ⟨[], t, rfl, text⟩
  | .base (.template _ _ _ _), last => nomatch last
  | .inside scope colons name, last => by
    obtain ⟨ts, t, row, text⟩ := exists_last_token name last
    exact ⟨scope.yield ++ colons :: ts, t, by rw [NameNode.yield, row]; simp, text⟩

theorem exists_spelling {type w : Text} {tree : Tree} (parsed : parse type = .ok tree)
    (word : Text.IsWordRun w) (last : tree.path.last = .plain [w]) :
    ∃ front, tree.form.spelling = front ++ w := by
  obtain ⟨ts, spelled, d, ⟨valid, rfl⟩, rfl⟩ := parse_eq_ok_iff.mp parsed
  cases d with
  | mk lead sign name decorations =>
    have formed : Formed (lead.toList ++ (sign.toList ++ name.yield ++ decorations)) :=
      (tokens_spell spelled).1
    obtain ⟨us, t, row, rfl⟩ := exists_last_token name last
    have parts : Formed (sign.toList ++ name.yield) := formed.append.2.append.1
    have spelling : (TypeNode.mk lead sign name decorations).tree.form.spelling =
        rowText (neatRow true (sign.toList ++ name.yield)) := canonical_row parts
    have text : Text.collapse t.text = t.text :=
      Text.collapse_of_solid (solid_of_word word.2)
    rw [spelling, row, ← List.append_assoc, neatRow_append, rowText_append, rowText_neatRow_cons,
      text]
    exact ⟨rowText (neatRow true (sign.toList ++ us)) ++
      t.neatGap (endsTight true (sign.toList ++ us)), by simp [neatRow, rowText]⟩

theorem last_unique {p : Char → Bool} {u v x y : Text} {a b : Char} (inside : ∀ c ∈ v, p c)
    (inside' : ∀ c ∈ y, p c) (outside : p a = false) (outside' : p b = false)
    (same : u ++ a :: v = x ++ b :: y) : a = b := by
  have mirrored : v.reverse ++ a :: u.reverse = y.reverse ++ b :: x.reverse := by
    simpa using congrArg List.reverse same
  have here {d : Char} (other : p d = false) (w : Text) :
      ∀ c, (d :: w).head? = some c → p c = false := by
    intro c head
    cases head
    exact other
  have back := (Text.span_unique (by simpa using inside) (by simpa using inside')
    (here outside u.reverse) (here outside' x.reverse) mirrored).2
  exact (List.cons.inj back).1

theorem legacyNames_signed : ∀ entry ∈ legacyNames, entry.2.sign = none ∨
    (entry.2.sign = some .unsigned ∧ entry.1 ∈ signedLegacyTypes) := by
  decide

theorem legacyNames_ne_sign : ∀ entry ∈ legacyNames, entry.2.word ≠ Sign.unsigned.text := by
  decide

theorem ne_unsigned {type : Text} {form : Form} {path : Path}
    (parsed : parse type = .ok (.mk form path))
    (signed : form.fullSpelling ∈ signedLegacyTypes) :
    path.last ≠ .plain [Sign.unsigned.text] := by
  intro last
  obtain ⟨front, spelling⟩ := exists_spelling parsed (isWordRun_sign .unsigned) last
  have spelling : form.spelling = front ++ "unsigne".toList ++ ['d'] := by
    rw [List.append_assoc]
    exact spelling
  have full : ∃ u v, form.fullSpelling = u ++ 'd' :: v ∧ ∀ c ∈ v, c ∈ ['*', '&'] := by
    refine ⟨(if form.const then "const ".toList else []) ++ (front ++ "unsigne".toList),
      List.replicate form.pointers '*' ++ (if form.reference then ['&'] else []), ?_, ?_⟩
    · rw [Form.fullSpelling, spelling]
      simp only [List.append_assoc, List.cons_append, List.nil_append]
    · intro c member
      rcases List.mem_append.mp member with star | reference
      · simp [List.eq_of_mem_replicate star]
      · split at reference
        · exact .tail _ reference
        · cases reference
  obtain ⟨u, v, text, marks⟩ := full
  have mark : ∀ c ∈ v, ['*', '&'].contains c :=
    fun c member => List.contains_iff_mem.mpr (marks c member)
  have pointer : ∀ c ∈ ['*'], ['*', '&'].contains c := by decide
  rcases List.mem_cons.mp signed with plain | rest
  · have apart := last_unique (x := "unsigned in".toList) (b := 't') (y := []) mark (by simp)
      (by decide) (by decide) (text.symm.trans plain)
    exact absurd apart (by decide)
  · have apart := last_unique (x := "unsigned in".toList) (b := 't') mark pointer
      (by decide) (by decide) (text.symm.trans (List.mem_singleton.mp rest))
    exact absurd apart (by decide)

section

variable {names : Text → List Text} {type : Text} {form : Form} {path : Path}
  (parsed : parse type = .ok (.mk form path))
include parsed

theorem last_word_of_choice (words : ∀ key, ∀ w ∈ names key, Text.IsWordRun w)
    (other : Sign.unsigned.text ∉ names form.spelling)
    (signed : form.fullSpelling ∈ signedLegacyTypes) {w : Text}
    (choice : w ∈ path.ownName names form.sign + form.otherNames names) (flat : '>' ∉ w) :
    ∃ front x, w = front ++ x ∧ EndsOutside front ∧ Text.IsWordRun x ∧ x ≠ Sign.unsigned.text := by
  rcases choice with own | others
  · obtain ⟨f, foreign, _, rest, rfl⟩ := Language.mem_mul.mp own
    obtain ⟨s, sign, _, inner, rfl⟩ := Language.mem_mul.mp rest
    obtain ⟨p, scope, b, base, rfl⟩ := Language.mem_mul.mp inner
    have named : path.Named := named_of_parse parsed
    have last := path.named_last named
    rw [path.baseDocumented_eq] at base
    cases whole : path.last with
    | template run arguments =>
      rw [whole] at base
      obtain ⟨front, rfl⟩ := exists_closing base
      exact absurd (by simp) flat
    | plain run =>
      rw [whole] at base last
      obtain ⟨front, x, rfl, outside, word, single⟩ := IsNameText.ends last base
      refine ⟨f ++ (s ++ (p ++ front)), x, by simp, ?_, word, ?_⟩
      · have scopes := isScope_scopesSpelling freeSpace names path p scope
        exact (isScope_of_foreignScope foreign).endsOutside.append
          ((outside_signSpelling form.sign s sign).append (scopes.endsOutside.append outside))
      · rintro rfl
        obtain ⟨rfl, -⟩ := single (by decide)
        exact ne_unsigned parsed signed whole
  · obtain ⟨f, foreign, ⟨name, present, rfl⟩ | ⟨legacy, present, s, sign, rfl⟩⟩ :=
      Form.mem_others others
    · refine ⟨f, name, rfl, (isScope_of_foreignScope foreign).endsOutside, words _ _ present, ?_⟩
      rintro rfl
      exact other present
    · refine ⟨f ++ s, legacy.word, by simp, ?_, ?_, legacyNames_ne_sign _ present⟩
      · exact (isScope_of_foreignScope foreign).endsOutside.append (outside_signSpelling _ s sign)
      · exact legacyNames_words legacy (List.mem_map_of_mem present)

theorem other_unbroken (words : ∀ key, ∀ w ∈ names key, Text.IsWordRun w)
    (breakable : IsBreakable names (.mk form path)) {n n' d d' t z : Text}
    (other : n ∈ form.otherNames names)
    (choice : n' ∈ path.ownName names form.sign + form.otherNames names)
    (decorated : d ∈ form.decorationSpelling) (decorated' : d' ∈ form.decorationSpelling)
    (trails : t ∈ trailing) : n ++ d ≠ n' ++ (d' ++ (t ++ '\n' :: z)) := by
  intro same
  rw [← List.append_assoc d', ← List.append_assoc _ (d' ++ t)] at same
  obtain ⟨x, broken⟩ := break_in_name decorated same
  rw [List.append_assoc] at broken
  have solid (all : ∀ c ∈ n, Text.isBlank c = false) : False := by
    have line := all '\n' (by simp [broken])
    revert line
    decide
  obtain ⟨f, foreign, ⟨name, present, rfl⟩ | ⟨legacy, present, s, signed, rfl⟩⟩ :=
    Form.mem_others other
  · exact solid (List.forall_mem_append.mpr
      ⟨solid_foreignScope foreign, solid_of_word (words _ _ present).2⟩)
  have word := legacyNames_words legacy (List.mem_map_of_mem present)
  have neutral : IsNeutral (f ++ (s ++ legacy.word)) :=
    (neutral_foreignScope f foreign).append
      ((neutral_signSpelling legacy.sign s signed).append (neutral_of_word word.2))
  obtain rfl | ⟨sign, g, marked, rfl, -, space⟩ := mem_signSpelling signed
  · exact solid (List.forall_mem_append.mpr ⟨solid_foreignScope foreign, solid_of_word word.2⟩)
  -- only `unsigned` in front of the white space could be a spelling, and it is no name of the type
  obtain ⟨unsigned, full⟩ := (legacyNames_signed _ present).resolve_left (by simp [marked])
  obtain rfl : sign = .unsigned := Option.some.inj (marked.symm.trans unsigned)
  rw [broken] at neutral
  have none : d' = [] := by
    refine (decoration_cases decorated').resolve_right ?_
    rintro ⟨c, mark, member⟩
    exact neutral.unmarked c mark (by simp [member])
  have flat : '>' ∉ n' :=
    fun member => neutral.not_mem (by decide) (List.mem_append_left _ member)
  obtain ⟨front, w, rfl, outside, last, differs⟩ :=
    last_word_of_choice parsed words (breakable.sign full) full choice flat
  have ends : EndsSolid (front ++ w) := by
    obtain ⟨w, c, rfl⟩ := (List.eq_nil_or_concat' w).resolve_left last.1
    rw [← List.append_assoc]
    exact endsSolid_append (Text.isBlank_of_isWord (last.2 c (by simp))) _
  obtain ⟨c, y, blanks, blank⟩ := trailing_blank trails x
  rw [none, List.nil_append, blanks] at broken
  have start := eq_of_signed foreign space word ends blank broken
  have before := (isScope_of_foreignScope foreign).endsOutside
  exact differs (last_word_unique outside before last (isWordRun_sign _) start).2

end

end Apidoc.Page
