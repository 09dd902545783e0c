import Apidoc.Manual.Function
import Apidoc.Proofs.ArgumentList.Adoption
import Apidoc.Proofs.ArgumentList.NameReading

namespace Apidoc

namespace Identifier

open Text

/-- A name that can be written for a parameter. -/
structure IsUsable (name : Text) : Prop where
  some : name ≠ []
  spelled : ∃ word, IsWordRun word ∧ (name = word ∨ name = '@' :: word)
  free : name ∉ reserved
  start : startsWithDigit name = false
  marked : ∀ word, name = '@' :: word → word ∈ reserved

def plain (name : Text) : Text := name.map fun c => if isWord c then c else '_'

def unescaped (name : Text) : Text :=
  if startsWithDigit (plain name) then '_' :: plain name else plain name

theorem sanitize_eq (name : Text) : sanitize name =
    if reserved.contains (unescaped name) then '@' :: unescaped name else unescaped name := rfl

theorem plain_of_word {w : Text} (word : ∀ c ∈ w, isWord c) : plain w = w := by
  have same : ∀ c ∈ w, (if isWord c then c else '_') = id c := fun c member => if_pos (word c member)
  rw [plain, List.map_congr_left same, List.map_id]

theorem isWordRun_unescaped {name : Text} (some : name ≠ []) : IsWordRun (unescaped name) := by
  have word : ∀ c ∈ plain name, isWord c := by
    rw [plain, List.forall_mem_map]
    intro c _
    split
    · assumption
    · decide
  unfold unescaped
  split
  · exact ⟨List.cons_ne_nil _ _, List.forall_mem_cons.mpr ⟨by decide, word⟩⟩
  · exact ⟨by simpa [plain] using some, word⟩

theorem startsWithDigit_unescaped (name : Text) : startsWithDigit (unescaped name) = false := by
  unfold unescaped
  split
  · rfl
  · exact Bool.eq_false_of_not_eq_true ‹_›

theorem usable_sanitize {name : Text} (some : name ≠ []) : IsUsable (sanitize name) := by
  have run := isWordRun_unescaped some
  rw [sanitize_eq]
  split
  · rename_i keyword
    refine ⟨List.cons_ne_nil _ _, ⟨_, run, .inr rfl⟩, ?_, rfl, ?_⟩
    · have letter : ∀ word ∈ reserved, word.head? ≠ Option.some '@' := by decide +kernel
      exact fun member => letter _ member rfl
    · rintro word ⟨⟩
      simpa using keyword
  · rename_i other
    refine ⟨run.1, ⟨_, run, .inl rfl⟩, by simpa using other, startsWithDigit_unescaped name, ?_⟩
    intro word eq
    exact absurd (eq ▸ .head word) (run.not_mem (by decide : isWord '@' = false))

end Identifier

namespace ArgumentList

open Identifier Text

/-- A usable name that is no word of a builtin type, not even behind an at sign. -/
structure IsGiven (name : Text) : Prop extends IsUsable name where
  other : name ∉ typeEndings
  unmarked : ∀ word, name = '@' :: word → word ∉ typeEndings

theorem isGiven_sanitize {w : Text} (word : IsWordRun w) (other : w ∉ typeEndings) :
    IsGiven (sanitize w) := by
  have letter : ∀ t ∈ typeEndings, t.head? ≠ some '_' ∧ t.head? ≠ some '@' := by decide
  have named : unescaped w ∉ typeEndings := by
    rw [unescaped, plain_of_word word.2]
    split
    · exact fun member => (letter _ member).1 rfl
    · exact other
  have run := isWordRun_unescaped word.1
  refine ⟨usable_sanitize word.1, ?_, ?_⟩
  · rw [sanitize_eq]
    split
    · exact fun member => (letter _ member).2 rfl
    · exact named
  · intro v eq
    rw [sanitize_eq] at eq
    split at eq
    · obtain ⟨-, rfl⟩ := List.cons.inj eq
      exact named
    · exact absurd (eq ▸ .head v) (run.not_mem (by decide : isWord '@' = false))

theorem isGiven_of_nameIn? {piece name : Text} (given : nameIn? piece = some name) :
    IsGiven name := by
  unfold nameIn? at given
  split at given
  · rename_i m found
    obtain ⟨_, _, word, _, reads, -, read, -⟩ := exists_reading_of_match found
    rw [read] at given
    split at given
    · cases given
    · rename_i untyped
      obtain rfl := Option.some.inj given
      refine isGiven_sanitize reads.word fun member => untyped ?_
      simp [endsType, member]
  · cases given

/-- What may become of a parameter: it keeps its type and its role, and a name of its own. -/
structure Renames (p q : Parameter) : Prop where
  type : q.type = p.type
  role : q.role = p.role
  name : q.name = p.name ∨ isAnonymous p.name ∧ IsGiven q.name

theorem renames_adopt (p : Parameter) (piece : Text) : Renames p (adopt p piece) := by
  refine ⟨adopt_type p piece, adopt_role p piece, ?_⟩
  unfold adopt
  split
  · rename_i anonymous
    cases given : nameIn? piece with
    | none => exact .inl rfl
    | some name => exact .inr ⟨anonymous, isGiven_of_nameIn? given⟩
  · exact .inl rfl

theorem renames_adoptEach (ps : List Parameter) (ss : List Text) :
    List.Forall₂ Renames ps (adoptEach ps ss) := by
  induction ps generalizing ss with
  | nil => exact .nil
  | cons p ps ih =>
    cases ss with
    | nil => exact List.forall₂_same.mpr fun q _ => ⟨rfl, rfl, .inl rfl⟩
    | cons s ss => exact .cons (renames_adopt p s) (ih ss)

end ArgumentList

namespace Function

open ArgumentList

def takeNames (f : Function) (arguments : Text) : Function :=
  { f with parameters := adoptNames f.parameters arguments }

/-- Only the parameters of a function change, each of them only in its name, and no name but that of
an anonymous one. Names that are given are usable and belong to no type. A function that is found
takes names in this way. -/
theorem takeNames_renames (f : Function) (arguments : Text) :
    f.takeNames arguments = { f with parameters := (f.takeNames arguments).parameters } ∧
      List.Forall₂ Renames f.parameters (f.takeNames arguments).parameters ∧
      (∀ piece name, nameIn? piece = some name → IsGiven name) ∧
      ∀ edition docs, f.adopt edition ⟨docs, arguments⟩ =
        let documented := { f with remark := some ⟨docs, none⟩ }.takeNames arguments
        if edition = .retired then documented.retire else documented := by
  refine ⟨rfl, renames_adoptEach f.parameters _, fun _ _ => isGiven_of_nameIn?, ?_⟩
  intro edition docs
  cases edition <;> rfl

/-- A digit gets an underscore in front and a keyword an at sign; words of types are not taken. -/
example :
    let ps : List Parameter := ["_0", "_1", "_2", "w"].map fun name => ⟨name.toList, [], .regular⟩
    (adoptNames ps "int 2nd, QObject *object, unsigned int, int x".toList).map (·.name) =
      ["_2nd", "@object", "_2", "w"].map String.toList := by
  rfl

end Function

end Apidoc
