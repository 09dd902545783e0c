import Apidoc.Deprecation
import Apidoc.Proofs.Entity.LongNumber
import Apidoc.Proofs.Text.Lines
import Apidoc.Proofs.Text.Occurrence

namespace Apidoc

namespace Text

theorem encode_lineEnd : ∀ e ∈ lineEnds, Entity.encode e = e := by decide

theorem IsOneLine.encode {s : Text} (line : IsOneLine s) : IsOneLine (Entity.encode s) := by
  intro d member
  obtain ⟨c, inside, written⟩ := List.mem_flatMap.mp member
  have plain := line c inside
  unfold Entity.encodeChar at written
  split at written
  case h_6 => rwa [List.mem_singleton.mp written]
  all_goals
    clear member
    revert d
    decide

theorem head?_encode {s : Text} (other : s.head? ≠ some '\n') :
    (Entity.encode s).head? ≠ some '\n' := by
  cases s with
  | nil => exact other
  | cons c s =>
    have feed : c ≠ '\n' := by simpa using other
    have written : Entity.encode (c :: s) = Entity.encodeChar c ++ Entity.encode s :=
      List.flatMap_cons
    rw [written]
    unfold Entity.encodeChar
    split
    case h_6 => simpa using feed
    all_goals exact fun same => absurd (Option.some.inj same) (by decide)

theorem Lined.encode {s : Text} {ls : List Text} (lined : Lined s ls) :
    Lined (Entity.encode s) (ls.map Entity.encode) := by
  induction lined with
  | nil => exact .nil
  | @last l some line =>
    refine .last ?_ line.encode
    intro none
    have back := Entity.decode_encode l
    rw [none] at back
    exact some back.symm
  | @ended l e s ls line ends whole _ ih =>
    have written : Entity.encode (l ++ (e ++ s)) =
        Entity.encode l ++ (e ++ Entity.encode s) := by
      rw [Entity.encode, List.flatMap_append, List.flatMap_append]
      exact congrArg (fun t => Entity.encode l ++ (t ++ Entity.encode s)) (encode_lineEnd e ends)
    rw [written]
    exact .ended line.encode ends (fun same => head?_encode (whole same)) ih

end Text

/-- The line has a word that tells of a replacement. -/
def TellsReplacement (line : Text) : Prop :=
  "instead".toList <:+: line ∨ "deprecated".toList <:+: line

instance (line : Text) : Decidable (TellsReplacement line) :=
  inferInstanceAs (Decidable ("instead".toList <:+: line ∨ "deprecated".toList <:+: line))

theorem isHint_iff {line : Text} : isHint line ↔ TellsReplacement line := by
  have words : isHint line = (Text.occursIn "instead".toList line ||
      (Text.occursIn "deprecated".toList line || false)) := rfl
  rw [words, Bool.or_false, Bool.or_eq_true, Text.occursIn_iff, Text.occursIn_iff,
    TellsReplacement]

/-- The hint is the first line of the description that tells of a replacement, character by
character, and there is none only if no line does. On the way the description is written as markup
and read again: no number in it is too long to be read, and it has the same lines, each written on
its own, which are read back as they were. -/
theorem replacementHint?_firstLine (brief : Text) : ∃ ls, (∀ ls', Text.Lined brief ls' ↔ ls' = ls) ∧
    (∀ line, replacementHint? brief = some line ↔ ∃ before after, ls = before ++ line :: after ∧
      TellsReplacement line ∧ ∀ l ∈ before, ¬ TellsReplacement l) ∧
    (replacementHint? brief = none ↔ ∀ l ∈ ls, ¬ TellsReplacement l) ∧
    Entity.overlong? (Entity.encode brief) = none ∧
    Entity.decode (Entity.encode brief) = brief ∧
    Text.Lined (Entity.encode brief) (ls.map Entity.encode) ∧
    (ls.map Entity.encode).map Entity.decode = ls := by
  have hint : replacementHint? brief = (Text.lines brief).find? isHint := by
    rw [replacementHint?, Entity.decode_encode]
  refine ⟨Text.lines brief, fun _ => Text.lined_iff, ?_, ?_, Entity.overlong?_encode brief,
    Entity.decode_encode brief, (Text.lined_lines brief).encode, ?_⟩
  · intro line
    rw [hint, List.find?_eq_some_iff_append]
    constructor
    · rintro ⟨tells, before, after, split, none⟩
      refine ⟨before, after, split, isHint_iff.mp tells, fun l member there => ?_⟩
      have silent := none l member
      rw [isHint_iff.mpr there] at silent
      cases silent
    · rintro ⟨before, after, split, tells, none⟩
      refine ⟨isHint_iff.mpr tells, before, after, split, fun l member => ?_⟩
      simpa using fun there : isHint l = true => none l member (isHint_iff.mp there)
  · rw [hint, List.find?_eq_none]
    exact forall₂_congr fun l _ => not_congr isHint_iff
  · rw [List.map_map]
    exact List.map_id'' (fun l => Entity.decode_encode l) _

theorem replacementHint?_firstLine_reference :
    let brief := "It is \"old\" &\r\nslow. Use bar(&lt;T&gt) instead.\u2028Not deprecated.".toList
    replacementHint? brief = some "slow. Use bar(&lt;T&gt) instead.".toList ∧
      Text.Lined (Entity.encode brief) (["It is \"old\" &".toList,
        "slow. Use bar(&lt;T&gt) instead.".toList, "Not deprecated.".toList].map Entity.encode) := by
  intro brief
  obtain ⟨ls, lined, first, -, -, -, written, -⟩ := replacementHint?_firstLine brief
  obtain rfl : Text.lines brief = ls := (lined _).mp (Text.lined_lines brief)
  refine ⟨(first _).mpr ⟨["It is \"old\" &".toList], ["Not deprecated.".toList], ?_⟩, written⟩
  decide

end Apidoc
