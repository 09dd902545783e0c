import Apidoc.Proofs.PrintedType.Spacing

namespace Apidoc.PrintedType

def Path.firstWord? (path : Path) : Option Text := path.toList.head?.bind (·.words.head?)

def Tree.bare (t : Tree) : Tree :=
  .mk { t.form with const := false, reference := false, pointers := 0 } t.path

theorem SegmentNode.head_yield {d : SegmentNode} (valid : d.Valid) :
    d.segment.words.head? = d.yield.head?.map Token.text := by
  cases d with
  | plain words => exact List.head?_map
  | template words opening arguments closing =>
    have some : words ≠ [] := valid.1.ne_nil
    simp [segment, Segment.words, yield, List.head?_append_of_ne_nil _ some]

theorem NameNode.head_yield {d : NameNode} (valid : d.Valid) :
    d.path.firstWord? = d.yield.head?.map Token.text := by
  cases d with
  | base segment => exact SegmentNode.head_yield valid
  | inside scope colons name =>
    have some := SegmentNode.yield_ne_nil valid.1
    rw [yield, List.head?_append_of_ne_nil _ some]
    exact SegmentNode.head_yield valid.1

theorem Token.not_const_of_sign {t : Token} (sign : t.isSign) : t.isConst = false := by
  obtain ⟨s, -, same⟩ := Token.isSign_iff.mp sign
  rw [isConst, same]
  cases s <;> decide

theorem TypeNode.bare_valid {lead sign : Option Token} {name : NameNode}
    {decorations : List Token} (valid : (TypeNode.mk lead sign name decorations).Valid)
    (other : name.path.firstWord? ≠ some constWord) :
    (TypeNode.mk none sign name []).Valid := by
  obtain ⟨-, -, signs, named, -⟩ := valid
  have some := name.yield_ne_nil named
  refine ⟨nofun, fun _ => ?_, ⟨fun signed => ?_, fun leads => ?_⟩, named, nofun⟩
  · intro t head
    cases sign with
    | some u =>
      cases head
      exact Token.not_const_of_sign (signs.mp rfl).isSign
    | none =>
      rw [NameNode.head_yield named] at other
      have head : name.yield.head? = .some t := head
      cases const : t.isConst with
      | false => rfl
      | true =>
        rw [head] at other
        exact absurd (congrArg Option.some (eq_of_beq const)) other
  · have leads := signs.mp signed
    rw [List.append_assoc] at leads
    exact leads.cut signed some []
  · apply signs.mpr
    rw [List.append_nil] at leads
    exact leads.append decorations

/-- The spelling of a type is a type again, with the sign and the name of the type, its template
arguments to every depth, and the same spelling; but it has no qualifier, no reference and no
pointers. -/
theorem parse_spelling {s : Text} {tree : Tree} (parsed : parse s = .ok tree)
    (other : tree.path.firstWord? ≠ some constWord) :
    parse tree.form.spelling = .ok tree.bare := by
  obtain ⟨ts, spelled, d, ⟨valid, rfl⟩, rfl⟩ := parse_eq_ok_iff.mp parsed
  obtain ⟨formed, spaced, -⟩ := tokens_eq_ok_iff.mp spelled
  cases d with
  | mk lead sign name decorations =>
    have bare := TypeNode.bare_valid valid other
    have row := tokens_of_row formed.append.2.append.1 spaced.append.2.append.1
    have alone : parse (rowText (sign.toList ++ name.yield)) =
        .ok (TypeNode.mk none sign name []).tree :=
      parse_eq_ok_iff.mpr ⟨_, row, _, ⟨bare, by simp [TypeNode.yield]⟩, rfl⟩
    exact parse_canonical alone

def flagsMap : Tree :=
  .mk ⟨true, none, true, 1, "QMap<unsigned int [ ],Qt::Flags<char*>>".toList⟩
    (.base (.template ["QMap".toList]
      (.cons
        (.mk ⟨false, some .unsigned, false, 1, "unsigned int".toList⟩
          (.base (.plain ["int".toList])))
        (.one (.mk ⟨false, none, false, 0, "Qt::Flags<char*>".toList⟩
          (.inside (.plain ["Qt".toList]) (.base (.template ["Flags".toList]
            (.one (.mk ⟨false, none, false, 1, "char".toList⟩
              (.base (.plain ["char".toList]))))))))))))

theorem parse_flagsMap :
    parse "const QMap< unsigned  int [  ], Qt::Flags<char *> > *const &".toList = .ok flagsMap := by
  have row : tokens "const QMap< unsigned  int [  ], Qt::Flags<char *> > *const &".toList = .ok
      [⟨.word, [], "const".toList⟩, ⟨.word, [' '], "QMap".toList⟩, ⟨.mark, [], ['<']⟩,
        ⟨.word, [' '], "unsigned".toList⟩, ⟨.word, [' ', ' '], "int".toList⟩,
        ⟨.array, [' '], "[  ]".toList⟩, ⟨.mark, [], [',']⟩, ⟨.word, [' '], "Qt".toList⟩,
        ⟨.scope, [], "::".toList⟩, ⟨.word, [], "Flags".toList⟩, ⟨.mark, [], ['<']⟩,
        ⟨.word, [], "char".toList⟩, ⟨.mark, [' '], ['*']⟩, ⟨.mark, [], ['>']⟩,
        ⟨.mark, [' '], ['>']⟩, ⟨.mark, [' '], ['*']⟩, ⟨.word, [], "const".toList⟩,
        ⟨.mark, [' '], ['&']⟩] :=
    tokens_of_readsRow (by decide)
  rw [parse, row]
  rfl

theorem parse_spelling_flagsMap :
    parse "const QMap< unsigned  int [  ], Qt::Flags<char *> > *const &".toList = .ok flagsMap ∧
      flagsMap.path.firstWord? ≠ some constWord ∧
      parse "QMap<unsigned int [ ],Qt::Flags<char*>>".toList = .ok flagsMap.bare := by
  have other : flagsMap.path.firstWord? ≠ some constWord := by decide
  exact ⟨parse_flagsMap, other, parse_spelling parse_flagsMap other⟩

end Apidoc.PrintedType
