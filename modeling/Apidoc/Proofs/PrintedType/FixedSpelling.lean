import Apidoc.Proofs.PrintedType.Spacing

/-!
The texts that are their own canonical spelling: they have single spaces, and none around marks and
double colons. The canonical spelling of a text is one of them unless a colon that is left over, when
colons are read in pairs, comes next to a double colon.
-/
namespace Apidoc.PrintedType

theorem pieces_rec {motive : Text → Prop} (nil : motive [])
    (colons : ∀ s, motive s → motive (':' :: ':' :: s))
    (blank : ∀ c s, Text.isBlank c → motive s → motive (c :: s))
    (mark : ∀ c s, c ∈ marks → motive s → motive (c :: s))
    (alone : ∀ c s, StandsAlone c s → motive s → motive (c :: s)) (s : Text) : motive s := by
  induction length : s.length using Nat.strong_induction_on generalizing s with
  | _ n ih =>
    match s with
    | [] => exact nil
    | c :: s =>
      have shorter : s.length < n := by rw [← length]; exact Nat.lt_succ_self _
      by_cases pair : c = ':' ∧ s.head? = some ':'
      · obtain ⟨rfl, head⟩ := pair
        obtain ⟨r, rfl⟩ := List.head?_eq_some_iff.mp head
        exact colons r (ih r.length (by simp at shorter; omega) r rfl)
      · have inner := ih s.length shorter s rfl
        by_cases space : Text.isBlank c
        · exact blank c s space inner
        by_cases listed : c ∈ marks
        · exact mark c s listed inner
        · exact alone c s ⟨fun colon head => pair ⟨colon, head⟩, by simpa using space, listed⟩ inner

theorem tightenFrom_collapse (glued pending : Bool) (s : Text) :
    tightenFrom glued pending (Text.collapse s) = tightenFrom glued pending s := by
  induction s using pieces_rec generalizing glued pending with
  | nil => rfl
  | colons s ih =>
    have colon : Text.isBlank ':' = false := by decide
    simp only [Text.collapse, colon, Bool.false_eq_true, if_false, tightenFrom_colons, ih]
  | blank c s space ih =>
    rw [tightenFrom_blank space, Text.collapse, if_pos space]
    split
    · rename_i more
      obtain ⟨d, head, second⟩ := (Option.any_eq_true _ _).mp more
      obtain ⟨r, rfl⟩ := List.head?_eq_some_iff.mp head
      rw [ih, tightenFrom_blank second, tightenFrom_blank second]
    · rw [tightenFrom_blank isBlank_space, ih]
  | mark c s listed ih =>
    rw [tightenFrom_mark listed, Text.collapse, if_neg (by simp [isBlank_of_mem_marks listed]),
      tightenFrom_mark listed, ih]
  | alone c s alone ih =>
    have still : StandsAlone c (Text.collapse s) := by
      refine ⟨?_, alone.solid, alone.plain⟩
      intro colon head
      rw [Text.head?_collapse] at head
      obtain ⟨d, first, same⟩ := Option.map_eq_some_iff.mp head
      split at same
      · cases same
      · exact alone.colon colon (same ▸ first)
    rw [tightenFrom_alone alone, Text.collapse, if_neg (by simp [alone.solid]),
      tightenFrom_alone still, ih]

theorem canonical_eq_tighten (s : Text) : canonical s = tighten (Text.trim s) :=
  tightenFrom_collapse false false (Text.trim s)

theorem length_tightenFrom_le (glued pending : Bool) (s : Text) :
    (tightenFrom glued pending s).length ≤ s.length + if pending then 1 else 0 := by
  induction s using pieces_rec generalizing glued pending with
  | nil => cases pending <;> simp [tightenFrom]
  | colons s ih =>
    have inner := ih true false
    simp only [Bool.false_eq_true, if_false] at inner
    simp only [tightenFrom_colons, List.length_cons]
    omega
  | blank c s space ih =>
    have inner := ih glued !glued
    rw [tightenFrom_blank space, List.length_cons]
    split at inner <;> omega
  | mark c s listed ih =>
    have inner := ih true false
    simp only [Bool.false_eq_true, if_false] at inner
    simp only [tightenFrom_mark listed, List.length_cons]
    omega
  | alone c s alone ih =>
    have inner := ih false false
    simp only [Bool.false_eq_true, if_false] at inner
    rw [tightenFrom_alone alone]
    cases pending <;> simp <;> omega

theorem eq_space_of_mem_tightenFrom {glued pending : Bool} {s : Text} {c : Char}
    (member : c ∈ tightenFrom glued pending s) (blank : Text.isBlank c) : c = ' ' := by
  induction s using pieces_rec generalizing glued pending with
  | nil => cases pending <;> simp_all [tightenFrom]
  | colons s ih =>
    have other : c ≠ ':' := Text.ne_of_isBlank blank (by decide)
    simp only [tightenFrom_colons, List.mem_cons, other, false_or] at member
    exact ih member
  | blank d s space ih =>
    rw [tightenFrom_blank space] at member
    exact ih member
  | mark d s listed ih =>
    have other : c ≠ d := Text.ne_of_isBlank blank (isBlank_of_mem_marks listed)
    simp only [tightenFrom_mark listed, List.mem_cons, other, false_or] at member
    exact ih member
  | alone d s alone ih =>
    have other : c ≠ d := Text.ne_of_isBlank blank alone.solid
    rw [tightenFrom_alone alone] at member
    cases pending with
    | false =>
      simp only [Bool.false_eq_true, if_false, List.nil_append, List.mem_cons, other,
        false_or] at member
      exact ih member
    | true =>
      simp only [if_true, List.singleton_append, List.mem_cons, other, false_or] at member
      exact member.elim id ih

def neatFrom : Bool → Bool → Text → Bool
  | _, pending, [] => !pending
  | _, pending, ':' :: ':' :: cs => !pending && neatFrom true false cs
  | glued, pending, c :: cs =>
    if Text.isBlank c then c == ' ' && !glued && !pending && neatFrom false true cs
    else if marks.contains c then !pending && neatFrom true false cs
    else neatFrom false false cs

/-- No space at the ends and around marks and double colons, and single spaces elsewhere. -/
def isNeat (s : Text) : Bool := neatFrom true false s

theorem neatFrom_colons (glued pending : Bool) (s : Text) :
    neatFrom glued pending (':' :: ':' :: s) = (!pending && neatFrom true false s) := by
  simp [neatFrom]

theorem neatFrom_blank {c : Char} (blank : Text.isBlank c) (glued pending : Bool) (s : Text) :
    neatFrom glued pending (c :: s) =
      (c == ' ' && !glued && !pending && neatFrom false true s) := by
  have other : c ≠ ':' := Text.ne_of_isBlank blank (by decide)
  rw [neatFrom.eq_3 _ _ _ _ fun _ colon _ => other colon, if_pos blank]

theorem neatFrom_mark {c : Char} (mark : c ∈ marks) (glued pending : Bool) (s : Text) :
    neatFrom glued pending (c :: s) = (!pending && neatFrom true false s) := by
  have other : c ≠ ':' := ne_of_mem_of_not_mem mark (by decide)
  rw [neatFrom.eq_3 _ _ _ _ fun _ colon _ => other colon,
    if_neg (by simp [isBlank_of_mem_marks mark]), if_pos (by simpa using mark)]

theorem neatFrom_alone {c : Char} {s : Text} (alone : StandsAlone c s) (glued pending : Bool) :
    neatFrom glued pending (c :: s) = neatFrom false false s := by
  rw [neatFrom.eq_3 _ _ _ _ alone.not_colons, if_neg (by simp [alone.solid]),
    if_neg (by simp [alone.plain])]

theorem tightenFrom_of_neatFrom {glued pending : Bool} {s : Text}
    (neat : neatFrom glued pending s) :
    tightenFrom glued pending s = (if pending then [' '] else []) ++ s := by
  induction s using pieces_rec generalizing glued pending with
  | nil => cases pending <;> rfl
  | colons s ih =>
    rw [neatFrom_colons, Bool.and_eq_true] at neat
    obtain ⟨settled, behind⟩ := neat
    rw [tightenFrom_colons, ih behind]
    simp_all
  | blank c s space ih =>
    simp only [neatFrom_blank space, Bool.and_eq_true, beq_iff_eq, Bool.not_eq_true'] at neat
    obtain ⟨⟨⟨rfl, rfl⟩, rfl⟩, behind⟩ := neat
    rw [tightenFrom_blank space]
    exact ih behind
  | mark c s listed ih =>
    rw [neatFrom_mark listed, Bool.and_eq_true] at neat
    obtain ⟨settled, behind⟩ := neat
    rw [tightenFrom_mark listed, ih behind]
    simp_all
  | alone c s alone ih =>
    rw [neatFrom_alone alone] at neat
    rw [tightenFrom_alone alone, ih neat]
    rfl

def EndsSolid (s : Text) : Prop := ∀ c, s.getLast? = some c → Text.isBlank c = false

theorem EndsSolid.tail {c : Char} {s : Text} (ends : EndsSolid (c :: s)) : EndsSolid s := by
  intro d last
  apply ends d
  rw [List.getLast?_cons, last]
  rfl

theorem EndsSolid.cons {c : Char} {s : Text} (ends : EndsSolid s)
    (alone : s = [] → Text.isBlank c = false) : EndsSolid (c :: s) := by
  intro d last
  rcases List.eq_nil_or_concat' s with rfl | ⟨t, e, rfl⟩
  · cases last
    exact alone rfl
  · rw [← List.cons_append, List.getLast?_concat] at last
    exact ends d (by rw [List.getLast?_concat, last])

theorem EndsSolid.ne_nil {c : Char} {s : Text} (ends : EndsSolid (c :: s))
    (blank : Text.isBlank c) : s ≠ [] := by
  rintro rfl
  have solid := ends c rfl
  rw [blank] at solid
  cases solid

theorem not_pending_of_solid {c : Char} (solid : Text.isBlank c = false) {pending : Bool}
    {r t : Text} (same : c :: r = (if pending then [' '] else []) ++ c :: t) :
    pending = false ∧ r = t := by
  cases pending with
  | false => exact ⟨rfl, (List.cons.inj same).2⟩
  | true =>
    have space := (List.cons.inj same).1
    rw [space, isBlank_space] at solid
    cases solid

theorem neatFrom_of_tightenFrom {glued pending : Bool} {s : Text} (ends : EndsSolid s)
    (some : s = [] → pending = false)
    (same : tightenFrom glued pending s = (if pending then [' '] else []) ++ s) :
    neatFrom glued pending s := by
  induction s using pieces_rec generalizing glued pending with
  | nil => simp [neatFrom, some rfl]
  | colons s ih =>
    rw [tightenFrom_colons] at same
    obtain ⟨rfl, behind⟩ := not_pending_of_solid (by decide) same
    rw [neatFrom_colons]
    exact ih ends.tail.tail (fun _ => rfl) (List.cons.inj behind).2
  | blank c s space ih =>
    have long := congrArg List.length same
    have most := length_tightenFrom_le glued (!glued) s
    rw [tightenFrom_blank space] at same long
    have loose : glued = false ∧ pending = false := by
      cases glued <;> cases pending <;> simp at long most ⊢ <;> omega
    obtain ⟨rfl, rfl⟩ := loose
    have written : tightenFrom false true s = c :: s := same
    obtain rfl : c = ' ' := by
      have member : c ∈ tightenFrom false true s := written ▸ List.mem_cons_self
      exact eq_space_of_mem_tightenFrom member space
    have behind := ih ends.tail (fun empty => absurd empty (ends.ne_nil space)) written
    rw [neatFrom_blank space, behind]
    rfl
  | mark c s listed ih =>
    rw [tightenFrom_mark listed] at same
    obtain ⟨rfl, behind⟩ := not_pending_of_solid (isBlank_of_mem_marks listed) same
    rw [neatFrom_mark listed]
    exact ih ends.tail (fun _ => rfl) behind
  | alone c s alone ih =>
    rw [tightenFrom_alone alone] at same
    rw [neatFrom_alone alone]
    have behind := (List.cons.inj (List.append_cancel_left same)).2
    exact ih ends.tail (fun _ => rfl) behind

theorem endsSolid_of_neatFrom {glued pending : Bool} {s : Text} (neat : neatFrom glued pending s) :
    EndsSolid s := by
  induction s using pieces_rec generalizing glued pending with
  | nil => exact nofun
  | colons s ih =>
    rw [neatFrom_colons, Bool.and_eq_true] at neat
    exact ((ih neat.2).cons fun _ => by decide).cons fun _ => by decide
  | blank c s space ih =>
    rw [neatFrom_blank space, Bool.and_eq_true] at neat
    refine (ih neat.2).cons ?_
    rintro rfl
    exact absurd neat.2 (by decide)
  | mark c s listed ih =>
    rw [neatFrom_mark listed, Bool.and_eq_true] at neat
    exact (ih neat.2).cons fun _ => isBlank_of_mem_marks listed
  | alone c s alone ih =>
    rw [neatFrom_alone alone] at neat
    exact (ih neat).cons fun _ => alone.solid

theorem neatFrom_glued {s : Text} (starts : ∀ c, s.head? = some c → Text.isBlank c = false)
    (glued pending : Bool) : neatFrom glued pending s = neatFrom false pending s := by
  cases s using pieces_rec with
  | nil => rfl
  | colons s _ => rw [neatFrom_colons, neatFrom_colons]
  | blank c s space _ =>
    have solid := starts c rfl
    rw [space] at solid
    cases solid
  | mark c s listed _ => rw [neatFrom_mark listed, neatFrom_mark listed]
  | alone c s alone _ => rw [neatFrom_alone alone, neatFrom_alone alone]

theorem solid_head_of_isNeat {s : Text} (neat : isNeat s) :
    ∀ c, s.head? = some c → Text.isBlank c = false := by
  intro c head
  obtain ⟨r, rfl⟩ := List.head?_eq_some_iff.mp head
  cases blank : Text.isBlank c with
  | false => rfl
  | true =>
    rw [isNeat, neatFrom_blank blank] at neat
    simp at neat

/-- The texts without a space around marks and single spaces elsewhere are those that are their own
canonical spelling. -/
theorem canonical_eq_self_iff {s : Text} : canonical s = s ↔ isNeat s := by
  constructor
  · intro same
    have whole : Text.trim s = s := by
      apply Text.trim_eq_of_length
      have most := length_tightenFrom_le false false (Text.trim s)
      rw [← tighten, ← canonical_eq_tighten, same] at most
      simpa using most
    rw [canonical_eq_tighten, whole] at same
    obtain ⟨starts, ends⟩ := whole ▸ Text.solid_ends_trim s
    rw [isNeat, neatFrom_glued starts]
    exact neatFrom_of_tightenFrom ends (fun _ => rfl) same
  · intro neat
    have starts := solid_head_of_isNeat neat
    have whole : Text.trim s = s := by
      cases s with
      | nil => rfl
      | cons c s =>
        have plain : Text.trim ([] ++ (c :: s ++ [])) = c :: s :=
          Text.trim_append (by simp) (by simp) starts (endsSolid_of_neatFrom neat) (by simp)
        simpa using plain
    rw [isNeat, neatFrom_glued starts] at neat
    rw [canonical_eq_tighten, whole]
    exact tightenFrom_of_neatFrom neat

/-! What a text has to be for its canonical spelling to be such a text. -/

def meetsColons (s : Text) : Bool :=
  s.head?.any Text.isBlank && [':', ':'].isPrefixOf (Text.trimLeft s)

/-- Colons are read in pairs, from the left. Behind one that is left over, no double colon stands
behind blanks. -/
def isPaired : Text → Bool
  | [] => true
  | ':' :: ':' :: cs => isPaired cs
  | c :: cs => !(c == ':' && meetsColons cs) && isPaired cs

theorem isPaired_colons (s : Text) : isPaired (':' :: ':' :: s) = isPaired s := by
  simp [isPaired]

theorem isPaired_other {c : Char} (other : c ≠ ':') (s : Text) :
    isPaired (c :: s) = isPaired s := by
  rw [isPaired.eq_3 _ _ fun _ colon _ => other colon, beq_false_of_ne other]
  rfl

theorem isPaired_alone {c : Char} {s : Text} (alone : StandsAlone c s) :
    isPaired (c :: s) = (!(c == ':' && meetsColons s) && isPaired s) :=
  isPaired.eq_3 _ _ alone.not_colons

theorem tightenFrom_trimLeft (s : Text) :
    tightenFrom false true (Text.trimLeft s) = tightenFrom false true s := by
  induction s with
  | nil => rfl
  | cons c s ih =>
    rw [Text.trimLeft, List.dropWhile_cons]
    split
    · rename_i blank
      rw [tightenFrom_blank blank]
      exact ih
    · rfl

theorem head?_tightenFrom {s : Text} (other : s.head? ≠ some ':') (apart : meetsColons s = false) :
    (tightenFrom false false s).head? ≠ some ':' := by
  cases s using pieces_rec with
  | nil => simp [tightenFrom]
  | colons s _ => exact absurd rfl other
  | blank c s space _ =>
    have left : Text.trimLeft (c :: s) = Text.trimLeft s := List.dropWhile_cons_of_pos space
    have solid : ∀ d, (Text.trimLeft s).head? = some d → Text.isBlank d = false := by
      intro d head
      have outside := List.head?_dropWhile_not Text.isBlank s
      rwa [← Text.trimLeft, head] at outside
    rw [meetsColons, left] at apart
    rw [tightenFrom_blank space, Bool.not_false, ← tightenFrom_trimLeft]
    -- the first character that is not blank decides whether the space is written
    generalize Text.trimLeft s = r at apart solid
    cases r using pieces_rec with
    | nil => simp [tightenFrom]
    | colons r _ => simp [space] at apart
    | blank d r space _ =>
      rw [solid d rfl] at space
      cases space
    | mark d r listed _ =>
      rw [tightenFrom_mark listed, List.head?_cons]
      exact fun same => absurd (Option.some.inj same ▸ listed) (by decide)
    | alone d r alone _ => simp [tightenFrom_alone alone]
  | mark c s listed _ =>
    rw [tightenFrom_mark listed]
    exact other
  | alone c s alone _ =>
    rw [tightenFrom_alone alone]
    exact other

theorem neatFrom_tightenFrom {glued pending : Bool} {s : Text} (loose : pending → glued = false)
    (ends : EndsSolid s) (some : s = [] → pending = false) (paired : isPaired s) :
    neatFrom glued false (tightenFrom glued pending s) := by
  induction s using pieces_rec generalizing glued pending with
  | nil => simp [some rfl, tightenFrom, neatFrom]
  | colons s ih =>
    rw [isPaired_colons] at paired
    rw [tightenFrom_colons, neatFrom_colons]
    exact ih (by simp) ends.tail.tail (fun _ => rfl) paired
  | blank c s space ih =>
    rw [isPaired_other (Text.ne_of_isBlank space (by decide))] at paired
    rw [tightenFrom_blank space]
    exact ih (by simp) ends.tail (fun empty => absurd empty (ends.ne_nil space)) paired
  | mark c s listed ih =>
    rw [isPaired_other (ne_of_mem_of_not_mem listed (by decide))] at paired
    rw [tightenFrom_mark listed, neatFrom_mark listed]
    exact ih (by simp) ends.tail (fun _ => rfl) paired
  | alone c s alone ih =>
    rw [isPaired_alone alone, Bool.and_eq_true, Bool.not_eq_true'] at paired
    obtain ⟨apart, behind⟩ := paired
    have still : StandsAlone c (tightenFrom false false s) := by
      refine ⟨?_, alone.solid, alone.plain⟩
      rintro rfl
      exact head?_tightenFrom (alone.colon rfl) (by simpa using apart)
    have inner : neatFrom false false (tightenFrom false false s) :=
      ih (by simp) ends.tail (fun _ => rfl) behind
    rw [tightenFrom_alone alone]
    cases pending with
    | false => exact (neatFrom_alone still _ _).trans inner
    | true =>
      rw [loose rfl]
      have neat := (neatFrom_alone still false true).trans inner
      simp [neatFrom_blank isBlank_space, neat]

theorem isPaired_skip {g : Text} (free : ':' ∉ g) (s : Text) :
    isPaired (g ++ s) = isPaired s := by
  induction g with
  | nil => rfl
  | cons c g ih =>
    rw [List.mem_cons, not_or] at free
    rw [List.cons_append, isPaired_other (Ne.symm free.1), ih free.2]

theorem meetsColons_append {s : Text} (meets : meetsColons s) (t : Text) : meetsColons (s ++ t) := by
  rw [meetsColons, Bool.and_eq_true, List.isPrefixOf_iff_prefix] at meets ⊢
  obtain ⟨first, r, behind⟩ := meets
  constructor
  · cases s with
    | nil => cases first
    | cons c s => exact first
  · refine ⟨r ++ t, ?_⟩
    rw [Text.trimLeft, List.dropWhile_append, show s.dropWhile Text.isBlank = _ from behind.symm]
    rfl

theorem isPaired_left {s t : Text} (paired : isPaired (s ++ t)) : isPaired s := by
  induction s using pieces_rec with
  | nil => rfl
  | colons s ih =>
    rw [isPaired_colons]
    exact ih (by rwa [List.cons_append, List.cons_append, isPaired_colons] at paired)
  | blank c s space ih =>
    have other : c ≠ ':' := Text.ne_of_isBlank space (by decide)
    rw [isPaired_other other]
    exact ih (by rwa [List.cons_append, isPaired_other other] at paired)
  | mark c s listed ih =>
    have other : c ≠ ':' := ne_of_mem_of_not_mem listed (by decide)
    rw [isPaired_other other]
    exact ih (by rwa [List.cons_append, isPaired_other other] at paired)
  | alone c s alone ih =>
    cases s with
    | nil => simp [isPaired_alone alone, meetsColons, isPaired]
    | cons d s =>
      have still : StandsAlone c (d :: (s ++ t)) := ⟨alone.colon, alone.solid, alone.plain⟩
      rw [List.cons_append, List.cons_append, isPaired_alone still, Bool.and_eq_true,
        Bool.not_eq_true'] at paired
      obtain ⟨apart, behind⟩ := paired
      have shorter : (c == ':' && meetsColons (d :: s)) = false := by
        rw [Bool.and_eq_false_imp] at apart ⊢
        intro colon
        have none := apart colon
        cases meets : meetsColons (d :: s) with
        | false => rfl
        | true => exact absurd (meetsColons_append meets t) (by simp [none])
      rw [isPaired_alone alone, shorter, ih behind]
      rfl

theorem isPaired_trim {s : Text} (paired : isPaired s) : isPaired (Text.trim s) := by
  obtain ⟨g, t, blank, -, split⟩ := Text.trim_split s
  have free : ':' ∉ g := fun member => absurd (blank ':' member) (by decide)
  rw [split, isPaired_skip free] at paired
  exact isPaired_left paired

theorem tightenFrom_glued {s : Text} (starts : ∀ c, s.head? = some c → Text.isBlank c = false)
    (glued pending : Bool) : tightenFrom glued pending s = tightenFrom false pending s := by
  cases s using pieces_rec with
  | nil => cases pending <;> rfl
  | colons s _ => rw [tightenFrom_colons, tightenFrom_colons]
  | blank c s space _ =>
    have solid := starts c rfl
    rw [space] at solid
    cases solid
  | mark c s listed _ => rw [tightenFrom_mark listed, tightenFrom_mark listed]
  | alone c s alone _ => rw [tightenFrom_alone alone, tightenFrom_alone alone]

theorem isNeat_canonical {s : Text} (paired : isPaired s) : isNeat (canonical s) := by
  obtain ⟨starts, ends⟩ := Text.solid_ends_trim s
  rw [canonical_eq_tighten, tighten, ← tightenFrom_glued starts true]
  exact neatFrom_tightenFrom (by simp) ends (fun _ => rfl) (isPaired_trim paired)

theorem canonical_of_isPaired {s : Text} (paired : isPaired s) :
    canonical (canonical s) = canonical s :=
  canonical_eq_self_iff.mpr (isNeat_canonical paired)

/-! The spelling under which a type is looked up. -/

theorem canonical_spelling_of_parse {s : Text} {tree : Tree} (parsed : parse s = .ok tree) :
    canonical tree.form.spelling = tree.form.spelling := by
  obtain ⟨ts, spelled, d, ⟨valid, rfl⟩, rfl⟩ := parse_eq_ok_iff.mp parsed
  cases d with
  | mk lead sign name decorations =>
    have formed : Formed (TypeNode.mk lead sign name decorations).yield := (tokens_spell spelled).1
    exact canonical_canonical formed.append.2.append.1

theorem isPaired_verbatim {s raw : Text} {const : Bool} (paired : isPaired s)
    (kept : verbatim s = .verbatim const raw) : isPaired raw := by
  unfold verbatim at kept
  split at kept
  · rename_i rest front
    cases kept
    have split : "const ".toList ++ (rest.takeWhile Text.isBlank ++ Text.trimLeft rest) = s := by
      rw [Text.trimLeft, List.takeWhile_append_dropWhile]
      exact List.append_eq_of_isPrefixOf?_eq_some front
    have free : ':' ∉ rest.takeWhile Text.isBlank := fun member =>
      absurd (List.mem_takeWhile_imp member) (by decide)
    rwa [← split, isPaired_skip (by decide), isPaired_skip free] at paired
  · cases kept
    exact paired

theorem canonical_spelling_of_read {s : Text} (settled : (∃ tree, parse s = .ok tree) ∨ isPaired s) :
    canonical (read s).spelling = (read s).spelling := by
  cases reading : read s with
  | tree t => exact canonical_spelling_of_parse (parse_of_read reading)
  | verbatim const raw =>
    cases parsed : parse s with
    | ok tree =>
      rw [read, parsed] at reading
      cases reading
    | error e =>
      have paired : isPaired s := by
        apply settled.resolve_left
        rintro ⟨tree, same⟩
        rw [parsed] at same
        cases same
      rw [read, parsed] at reading
      exact canonical_of_isPaired (isPaired_verbatim (isPaired_trim paired) reading)

/-- A canonical spelling is its own canonical spelling exactly when it has no space around marks and
double colons, as it should. It has none if in the text no colon that is left over stands in front of
blanks and a double colon. The spelling of such a type, and that of every type of the grammar, is
looked up as it is. -/
theorem canonical_again (s : Text) :
    (canonical (canonical s) = canonical s ↔ isNeat (canonical s)) ∧
      (isPaired s → canonical (canonical s) = canonical s) ∧
      ((∃ tree, parse s = .ok tree) ∨ isPaired s → ∀ table : AliasTable,
        table.find? (read s).spelling = table.entries.lookup (read s).spelling) := by
  refine ⟨canonical_eq_self_iff, canonical_of_isPaired, ?_⟩
  intro settled table
  rw [AliasTable.find?, canonical_spelling_of_read settled]

theorem canonical_again_choice :
    let s := "array< int, b ? 1 : n >".toList
    isPaired s ∧ canonical s = "array<int,b ? 1 : n>".toList ∧
      canonical (canonical s) = canonical s ∧
      ∀ table : AliasTable,
        table.find? (read s).spelling = table.entries.lookup (read s).spelling := by
  intro s
  have paired : isPaired s := by decide
  obtain ⟨-, again, found⟩ := canonical_again s
  exact ⟨paired, by decide, again paired, found (.inr paired)⟩

/-- The colon of a condition and the double colon behind it are read in other pairs once the space
between them is gone, and the typedef of the type is not found any more. -/
theorem not_canonical_again :
    let s := "array<int, b ? 1 : ::n>".toList
    let table := AliasTable.ofAliases [⟨"Row".toList, s, false⟩]
    canonical s = "array<int,b ? 1 :::n>".toList ∧
      canonical (canonical s) = "array<int,b ? 1:::n>".toList ∧
      canonical (canonical s) ≠ canonical s ∧
      table.names s = ["Row".toList] ∧ table.names (canonical s) = [] := by
  decide

end Apidoc.PrintedType
