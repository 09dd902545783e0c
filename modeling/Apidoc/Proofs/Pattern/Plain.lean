import Apidoc.Proofs.Pattern.Spells
import Apidoc.Proofs.Text.Character

namespace Apidoc.Pattern

/-- No part looks around or has a name, and none takes one of the characters. -/
def IsPlain (cs : List Char) : Pattern → Prop
  | .empty => True
  | .fixed t | .quoted t => ∀ c ∈ cs, c ∉ t
  | .chars cls _ => ∀ c ∈ cs, cls.accepts c = false
  | .seq p q | .alt p q => p.IsPlain cs ∧ q.IsPlain cs
  | .group p _ => p.IsPlain cs
  | _ => False

instance decidableIsPlain (cs : List Char) : (p : Pattern) → Decidable (p.IsPlain cs)
  | .empty => inferInstanceAs (Decidable True)
  | .fixed t | .quoted t => inferInstanceAs (Decidable (∀ c ∈ cs, c ∉ t))
  | .chars cls _ => inferInstanceAs (Decidable (∀ c ∈ cs, cls.accepts c = false))
  | .seq p q | .alt p q =>
    have := decidableIsPlain cs p
    have := decidableIsPlain cs q
    inferInstanceAs (Decidable (p.IsPlain cs ∧ q.IsPlain cs))
  | .group p _ => decidableIsPlain cs p
  | .field _ _ | .start | .finish | .wordEdge | .after _ | .notAfter _ | .notAhead _ =>
    inferInstanceAs (Decidable False)

variable {cs : List Char} {p : Pattern}

theorem IsPlain.mono {ds : List Char} (plain : p.IsPlain ds) (fewer : cs ⊆ ds) : p.IsPlain cs := by
  induction p with
  | empty => exact trivial
  | fixed t | quoted t | chars cls times => exact fun c member => plain c (fewer member)
  | seq p q first second | alt p q first second => exact ⟨first plain.1, second plain.2⟩
  | group p times body => exact body plain
  | field | start | finish | wordEdge | after | notAfter | notAhead => exact plain.elim

theorem forall_of_group {P : Text → Prop} (nil : P []) (append : ∀ u v, P u → P v → P (u ++ v))
    (each : ∀ before w rest, p.Takes before w rest → P w) {times : Times} {before : Option Char}
    {w rest : Text} (taken : (group p times).Takes before w rest) : P w := by
  obtain ⟨n, -, taken⟩ := taken
  induction n generalizing before w with
  | zero =>
    cases taken
    exact nil
  | succ n ih =>
    obtain ⟨u, v, rfl, first, others⟩ := taken
    exact append u v (each _ _ _ first) (ih others)

theorem not_mem_of_times {c : Char} {takes : Taking}
    (each : ∀ before w rest, takes before w rest → c ∉ w) {n : Nat} {before : Option Char}
    {w rest : Text} (taken : TakesTimes takes n before w rest) : c ∉ w := by
  induction n generalizing before w with
  | zero =>
    cases taken
    exact List.not_mem_nil
  | succ n ih =>
    obtain ⟨u, v, rfl, first, others⟩ := taken
    rw [List.mem_append]
    exact not_or.mpr ⟨each _ _ _ first, ih others⟩

theorem times_anywhere {takes : Taking}
    (each : ∀ before w rest, takes before w rest → ∀ before' rest', takes before' w rest')
    {n : Nat} {before : Option Char} {w rest : Text} (taken : TakesTimes takes n before w rest)
    (before' : Option Char) (rest' : Text) : TakesTimes takes n before' w rest' := by
  induction n generalizing before before' w with
  | zero => exact taken
  | succ n ih =>
    obtain ⟨u, v, rfl, first, others⟩ := taken
    exact ⟨u, v, rfl, each _ _ _ first before' (v ++ rest'), ih others (behind before' u)⟩

theorem not_mem_of_takes (plain : p.IsPlain cs) {before : Option Char} {w rest : Text}
    (taken : p.Takes before w rest) {c : Char} (banned : c ∈ cs) : c ∉ w := by
  induction p generalizing before w rest with
  | empty =>
    cases taken
    exact List.not_mem_nil
  | fixed t | quoted t =>
    cases taken
    exact plain c banned
  | chars cls times =>
    intro member
    have accepted := taken.1 c member
    rw [plain c banned] at accepted
    cases accepted
  | seq p q first second =>
    obtain ⟨u, v, rfl, left, right⟩ := taken
    rw [List.mem_append]
    exact not_or.mpr ⟨first plain.1 left, second plain.2 right⟩
  | alt p q first second =>
    rcases taken with left | right
    · exact first plain.1 left
    · exact second plain.2 right
  | group p times body =>
    obtain ⟨n, -, taken⟩ := taken
    exact not_mem_of_times (fun _ _ _ => body plain) taken
  | field | start | finish | wordEdge | after | notAfter | notAhead => exact plain.elim

theorem takes_anywhere (plain : p.IsPlain cs) {before : Option Char} {w rest : Text}
    (taken : p.Takes before w rest) (before' : Option Char) (rest' : Text) :
    p.Takes before' w rest' := by
  induction p generalizing before before' w rest rest' with
  | empty | fixed t | quoted t | chars cls times => exact taken
  | seq p q first second =>
    obtain ⟨u, v, rfl, left, right⟩ := taken
    exact ⟨u, v, rfl, first plain.1 left before' (v ++ rest'),
      second plain.2 right (behind before' u) rest'⟩
  | alt p q first second =>
    exact taken.imp (fun left => first plain.1 left before' rest')
      (fun right => second plain.2 right before' rest')
  | group p times body =>
    obtain ⟨n, allowed, taken⟩ := taken
    exact ⟨n, allowed, times_anywhere (fun _ _ _ inner => body plain inner) taken before' rest'⟩
  | field | start | finish | wordEdge | after | notAfter | notAhead => exact plain.elim

theorem IsPlain.spells (plain : p.IsPlain cs) : p.Spells {w | p.Takes none w []} :=
  fun _ _ _ => ⟨fun taken => takes_anywhere plain taken none [],
    fun taken => takes_anywhere plain taken _ _⟩

theorem fields_of_isPlain (plain : p.IsPlain cs) : p.fields = [] := by
  induction p with
  | seq p q first second | alt p q first second =>
    exact List.append_eq_nil_iff.mpr ⟨first plain.1, second plain.2⟩
  | group p times body => exact body plain
  | field => exact plain.elim
  | _ => rfl

theorem isPlain_all {ps : List Pattern} (parts : ∀ p ∈ ps, p.IsPlain cs) : (all ps).IsPlain cs := by
  induction ps with
  | nil => exact trivial
  | cons p ps ih =>
    obtain ⟨first, others⟩ := List.forall_mem_cons.mp parts
    cases ps with
    | nil => exact first
    | cons q ps => exact ⟨first, ih others⟩

theorem isPlain_separated {mark : Pattern} (between : mark.IsPlain cs) {ps : List Pattern}
    (parts : ∀ p ∈ ps, p.IsPlain cs) : (separated mark ps).IsPlain cs := by
  induction ps with
  | nil => exact trivial
  | cons p ps ih =>
    obtain ⟨first, others⟩ := List.forall_mem_cons.mp parts
    cases ps with
    | nil => exact first
    | cons q ps => exact ⟨first, between, ih others⟩

theorem isPlain_oneOf {ps : List Pattern} (choices : ∀ p ∈ ps, p.IsPlain cs) :
    (oneOf ps).IsPlain cs := by
  induction ps with
  | nil => exact trivial
  | cons p ps ih =>
    obtain ⟨first, others⟩ := List.forall_mem_cons.mp choices
    cases ps with
    | nil => exact first
    | cons q ps => exact ⟨first, ih others⟩

end Apidoc.Pattern
