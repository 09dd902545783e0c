import Apidoc.Proofs.ArgumentList.Adoption
import Apidoc.Proofs.ArgumentList.NameReading
import Apidoc.Proofs.ArgumentList.Pieces
import Apidoc.Proofs.Page.Block

namespace Apidoc.ArgumentList

open Page Pattern Text

/-- A text without blanks, commas and brackets, and perhaps an empty pair of parentheses. -/
def IsTerm (value : Text) : Prop :=
  ∃ core call, value = core ++ call ∧ core ≠ [] ∧
    (∀ c ∈ core, isBlank c = false ∧ c ∉ listMarks) ∧ (call = [] ∨ call = "()".toList)

theorem IsTerm.enclosed {value : Text} (term : IsTerm value) : IsEnclosed 0 value := by
  obtain ⟨core, call, rfl, -, plain, called⟩ := term
  have first : IsUnmarked core := fun c mark member => (plain c member).2 mark
  refine (first.enclosed 0).append ?_
  rcases called with rfl | rfl
  · exact IsUnmarked.enclosed (fun _ _ => List.not_mem_nil) 0
  · exact isEnclosed_of_no_comma rfl (by decide) 0

theorem IsTerm.short {value : Text} (term : IsTerm value) : IsShort value := by
  obtain ⟨core, call, rfl, some, plain, called⟩ := term
  refine ⟨[], core, call, [], by simp, by simp, ⟨some, ?_⟩, ?_, by simp⟩
  · intro c member
    obtain ⟨solid, unmarked⟩ := plain c member
    have opening : c ≠ '(' := ne_of_mem_of_not_mem (by decide) unmarked |>.symm
    have comma : c ≠ ',' := ne_of_mem_of_not_mem (by decide) unmarked |>.symm
    simp [shortChar, CharClass.accepts, ClassItem.accepts, solid, opening, comma]
  · rcases called with rfl | rfl
    · exact .inl rfl
    · exact .inr ⟨[], rfl, by simp⟩

/-- A parameter that is documented with a name, and perhaps with a default value. -/
structure Documented where
  named : NamedType
  value : Option Text

namespace Documented

def text (d : Documented) : Text := (Listed.named d.named d.value).text

/-- The type starts with a word and is more than `const`, it has no equals sign and its commas stand
inside of brackets. The name does not look like a part of the type. -/
structure WellFormed (d : Documented) : Prop where
  starts : d.named.type.head?.any isWord
  unqualified : trim d.named.type ≠ "const".toList
  free : '=' ∉ d.named.type
  enclosed : IsEnclosed 0 d.named.type
  separated : d.named.spaced = false → ∃ front c, d.named.type = front ++ [c] ∧ c ∈ ['*', '&']
  word : IsWordRun d.named.name
  ordinary : isTypeWord d.named.name = false
  value : ∀ v ∈ d.value, IsTerm v

variable {d : Documented}

def tail (d : Documented) : Text :=
  match d.value with
  | none => []
  | some v => " = ".toList ++ v

theorem text_eq (d : Documented) :
    d.text = d.named.type ++ (d.named.separator ++ (d.named.name ++ d.tail)) := by
  rw [text, tail]
  cases d.value with
  | none => simp [Listed.text, NamedType.text]
  | some v => simp [Listed.text, NamedType.text]

theorem enclosed_text (type : IsEnclosed 0 d.named.type) (word : IsWordRun d.named.name)
    (value : ∀ v ∈ d.value, IsEnclosed 0 v) : IsEnclosed 0 d.text := by
  have blank : IsEnclosed 0 d.named.separator := by
    have unmarked : IsUnmarked [' '] := isUnmarked_of_forall (p := isBlank) (by decide) (by decide)
    unfold NamedType.separator
    split
    · exact unmarked.enclosed 0
    · exact IsUnmarked.enclosed (fun _ _ => List.not_mem_nil) 0
  have name : IsUnmarked d.named.name := isUnmarked_of_forall word.2 (by decide)
  have tail : IsEnclosed 0 d.tail := by
    unfold Documented.tail
    cases some : d.value with
    | none => exact IsUnmarked.enclosed (fun _ _ => List.not_mem_nil) 0
    | some v =>
      have equals : IsEnclosed 0 " = ".toList := isEnclosed_of_no_comma rfl (by decide) 0
      exact equals.append (value v some)
  rw [text_eq]
  exact type.append (blank.append ((name.enclosed 0).append tail))

theorem WellFormed.closes (formed : d.WellFormed) : ClosesPiece d.tail := by
  unfold tail
  cases some : d.value with
  | none => exact ⟨[], [], rfl, by simp, .inl rfl⟩
  | some v =>
    have short := (isShort_cons (by decide : isBlank ' ')).mpr (formed.value v some).short
    exact ⟨[' '], '=' :: ' ' :: v, rfl, by decide, .inr ⟨_, rfl, short⟩⟩

theorem WellFormed.reads (formed : d.WellFormed) (space : Text) : ∃ front gap,
    Reads (space ++ d.text) front gap d.named.name d.tail ∧
      front ++ gap = space ++ (d.named.type ++ d.named.separator) := by
  obtain ⟨c, type, starts⟩ := List.exists_cons_of_ne_nil
    (fun none => by simpa [none] using formed.starts : d.named.type ≠ [])
  have word : isWord c := by simpa [starts] using formed.starts
  cases spaced : d.named.spaced with
  | true =>
    have space' : d.named.separator = [' '] := by rw [NamedType.separator, if_pos spaced]
    refine ⟨space ++ d.named.type, [' '], ⟨?_, by simp [starts], ⟨by simp, by decide⟩, formed.word,
      formed.closes⟩, by simp [space']⟩
    rw [text_eq, space', List.append_assoc]
  | false =>
    have none : d.named.separator = [] := by rw [NamedType.separator, if_neg (by simp [spaced])]
    obtain ⟨front, e, last, mark⟩ := formed.separated spaced
    have apart : nameGap.accepts e := by
      simp only [List.mem_cons, List.not_mem_nil, or_false] at mark
      exact nameGap_accepts.mpr (.inr mark)
    have some : front ≠ [] := by
      rintro rfl
      obtain ⟨rfl, -⟩ := List.cons.inj (last.symm.trans starts)
      rw [isWord_of_nameGap apart] at word
      cases word
    refine ⟨space ++ front, [e], ⟨?_, by simp [some], ⟨by simp, by simpa using apart⟩, formed.word,
      formed.closes⟩, by simp [none, last]⟩
    rw [text_eq, none, last]
    simp

theorem WellFormed.nameIn? (formed : d.WellFormed) {space : Text} (blank : ∀ c ∈ space, isBlank c) :
    nameIn? (space ++ d.text) = some (Identifier.sanitize d.named.name) := by
  obtain ⟨front, gap, reads, before⟩ := formed.reads space
  have sep : ∀ c ∈ d.named.separator, isBlank c := by
    unfold NamedType.separator
    split <;> decide
  have free : '=' ∉ front := by
    have all : '=' ∉ front ++ gap := by
      rw [before, List.mem_append, List.mem_append, not_or, not_or]
      exact ⟨fun member => absurd (blank _ member) (by decide), formed.free,
        fun member => absurd (sep _ member) (by decide)⟩
    exact fun member => all (List.mem_append_left gap member)
  have unqualified : trim (front ++ gap) ≠ "const".toList := by
    rw [before, trim_pad blank sep]
    exact formed.unqualified
  rw [nameIn?_of_reads reads free, endsType_eq unqualified, formed.ordinary]
  rfl

end Documented

def documentedText (ds : List Documented) : Text :=
  [',', ' '].intercalate (ds.map Documented.text)

theorem pieces_documentedText {d : Documented} {ds : List Documented}
    (enclosed : ∀ e ∈ d :: ds, IsEnclosed 0 e.text) :
    pieces (documentedText (d :: ds)) = d.text :: ds.map fun e => ' ' :: e.text := by
  have texts : ∀ s ∈ d.text :: ds.map Documented.text, IsEnclosed 0 s := by
    rw [← List.map_cons]
    exact List.forall_mem_map.mpr enclosed
  rw [documentedText, List.map_cons, pieces_intercalate texts, List.map_map]
  rfl

theorem nameIn?_pieces {d : Documented} {ds : List Documented}
    (formed : ∀ e ∈ d :: ds, e.WellFormed) : (pieces (documentedText (d :: ds))).map nameIn? =
      (d :: ds).map fun e => Option.some (Identifier.sanitize e.named.name) := by
  have enclosed : ∀ e ∈ d :: ds, IsEnclosed 0 e.text := fun e member =>
    Documented.enclosed_text (formed e member).enclosed (formed e member).word
      fun v some => ((formed e member).value v some).enclosed
  have bare : ∀ c ∈ ([] : Text), isBlank c := by decide
  have space : ∀ c ∈ [' '], isBlank c := by decide
  have first := (formed d (.head _)).nameIn? bare
  have others (e : Documented) (member : e ∈ ds) := (formed e (.tail _ member)).nameIn? space
  rw [List.nil_append] at first
  rw [pieces_documentedText enclosed, List.map_cons, List.map_cons, first, List.map_map]
  exact congrArg _ (List.map_congr_left others)

theorem adoptEach_of_names {ps : List Parameter} {ss names : List Text}
    (given : ss.map nameIn? = names.map some) (count : names.length = ps.length) :
    adoptEach ps ss = List.zipWith
      (fun p name => if isAnonymous p.name then { p with name := name } else p) ps names := by
  induction ps generalizing ss names with
  | nil => simp [adoptEach]
  | cons p ps ih =>
    cases names with
    | nil => cases count
    | cons name names =>
      cases ss with
      | nil => simp at given
      | cons s ss =>
        obtain ⟨first, others⟩ := List.cons.inj given
        rw [adoptEach, List.zipWith_cons_cons, ih others (Nat.succ.inj count), adopt, first]
        rfl

/-- Names are recovered exactly: of as many documented as declared parameters, each anonymous one
takes the name that is documented at its place, and the others keep theirs. -/
theorem adoptNames_documented {ps : List Parameter} {ds : List Documented}
    (formed : ∀ d ∈ ds, d.WellFormed) (count : ds.length = ps.length) :
    adoptNames ps (documentedText ds) = List.zipWith
      (fun p d => if isAnonymous p.name then
        { p with name := Identifier.sanitize d.named.name } else p) ps ds := by
  cases ds with
  | nil =>
    obtain rfl : ps = [] := List.length_eq_zero_iff.mp count.symm
    rfl
  | cons d ds =>
    have given := nameIn?_pieces formed
    have names : (d :: ds).map (fun d => Option.some (Identifier.sanitize d.named.name)) =
        ((d :: ds).map fun d => Identifier.sanitize d.named.name).map some := by
      rw [List.map_map]
      rfl
    have many : (pieces (documentedText (d :: ds))).length = ps.length := by
      rw [← count, ← List.length_map (f := nameIn?), given, List.length_map]
    have full : operands ps.length (documentedText (d :: ds)) =
        pieces (documentedText (d :: ds)) := by
      rw [operands, if_neg (by omega)]
    rw [adoptNames_eq, full, adoptEach_of_names (given.trans names) (by simpa using count),
      List.zipWith_map_right]

theorem adoptNames_documented_color :
    let ps : List Parameter := ["_0", "w", "_2"].map fun name => ⟨name.toList, [], .regular⟩
    let ds : List Documented :=
      [⟨⟨"const QMap<int, QString> &".toList, false, "map".toList⟩, none⟩,
        ⟨⟨"int".toList, true, "width".toList⟩, some "0".toList⟩,
        ⟨⟨"QColor".toList, true, "class".toList⟩, some "QColor()".toList⟩]
    (∀ d ∈ ds, d.WellFormed) ∧ ds.length = ps.length ∧
      documentedText ds =
        "const QMap<int, QString> &map, int width = 0, QColor class = QColor()".toList ∧
      (adoptNames ps (documentedText ds)).map (·.name) =
        ["map".toList, "w".toList, "@class".toList] := by
  intro ps ds
  have plain {w : Text} (all : w.all fun c => !listMarks.contains c) : IsUnmarked w := by
    refine isUnmarked_of_forall (p := fun c => !listMarks.contains c) (by simpa using all) ?_
    decide
  have arguments : IsEnclosed 1 "int, QString".toList :=
    ((plain (by decide : "int".toList.all _)).enclosed 1).append
      ((isEnclosed_comma 0).append ((plain (by decide : " QString".toList.all _)).enclosed 1))
  have map : IsEnclosed 0 "const QMap<int, QString> &".toList :=
    ((plain (by decide : "const QMap".toList.all _)).enclosed 0).append
      (arguments.bracketed.append ((plain (by decide : " &".toList.all _)).enclosed 0))
  have formed : ∀ d ∈ ds, d.WellFormed := by
    simp only [ds, List.forall_mem_cons]
    refine ⟨⟨by decide, by decide, by decide, map, ?_, by decide, by decide, by simp⟩,
      ⟨by decide, by decide, by decide, (plain (by decide)).enclosed 0, by simp, by decide,
        by decide, ?_⟩,
      ⟨by decide, by decide, by decide, (plain (by decide)).enclosed 0, by simp, by decide,
        by decide, ?_⟩, by simp⟩
    · exact fun _ => ⟨"const QMap<int, QString> ".toList, '&', rfl, by decide⟩
    · rintro _ ⟨⟩
      exact ⟨"0".toList, [], rfl, by decide, by decide, .inl rfl⟩
    · rintro _ ⟨⟩
      exact ⟨"QColor".toList, "()".toList, rfl, by decide, by decide, .inr rfl⟩
  have count : ds.length = ps.length := rfl
  refine ⟨formed, count, by decide, ?_⟩
  rw [adoptNames_documented formed count]
  decide

end Apidoc.ArgumentList
