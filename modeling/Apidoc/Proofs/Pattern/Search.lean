import Apidoc.Proofs.Pattern.Parts

namespace Apidoc

def Cursor.between (u v : Text) : Cursor := ⟨behind none u, u.length, v, []⟩

theorem Cursor.reach_sorted {cls : CharClass} {captures : List Capture} {nearer : List Cursor}
    {before : Option Char} {offset : Nat} {s : Text} {limit : Option Nat}
    (sorted : nearer.Pairwise fun c d => d.offset < c.offset)
    (near : ∀ c ∈ nearer, c.offset < offset) :
    (reach cls captures nearer before offset s limit).Pairwise fun c d => d.offset < c.offset := by
  induction s generalizing nearer before offset limit with
  | nil => exact .cons near sorted
  | cons a s ih =>
    have here : ((⟨before, offset, a :: s, captures⟩ : Cursor) :: nearer).Pairwise
        fun c d => d.offset < c.offset := .cons near sorted
    simp only [reach]
    split
    · apply ih here
      intro c member
      rcases List.mem_cons.mp member with rfl | member
      · exact Nat.lt_succ_self offset
      · exact Nat.lt_succ_of_lt (near c member)
    · exact here

theorem Cursor.stops_sorted {cls : CharClass} {times : Times} (few : times.isLazy) (c : Cursor) :
    (c.stops cls times).Pairwise fun d e => d.offset < e.offset := by
  unfold stops
  split
  · exact .nil
  · simp only [few, if_true, List.pairwise_reverse]
    exact reach_sorted .nil fun _ absent => nomatch absent

theorem head?_flatMap_rec {α β : Type} (good : β → Prop) {l : List α} {g : α → List β}
    (each : ∀ a ∈ l, ∀ b, (g a).head? = some b → good b) {b : β}
    (first : (l.flatMap g).head? = some b) : good b := by
  induction l with
  | nil => cases first
  | cons a l ih =>
    rw [List.flatMap_cons] at first
    obtain ⟨here, others⟩ := List.forall_mem_cons.mp each
    cases behind : g a with
    | nil =>
      rw [behind, List.nil_append] at first
      exact ih others first
    | cons x r =>
      rw [behind] at first
      exact here b (by rw [behind]; exact first)

theorem exists_of_head?_flatMap {α β : Type} {l : List α} {g : α → List β} {b : β}
    (first : (l.flatMap g).head? = some b) : ∃ a ∈ l, (g a).head? = some b :=
  head?_flatMap_rec (fun b => ∃ a ∈ l, (g a).head? = some b)
    (fun a member _ here => ⟨a, member, here⟩) first

theorem head?_flatMap_of_sorted {α β : Type} {r : α → α → Prop} {l : List α} {g : α → List β}
    {x : α} (sorted : l.Pairwise r) (member : x ∈ l) (nearer : ∀ d ∈ l, r d x → g d = [])
    (leads : g x ≠ []) : (l.flatMap g).head? = (g x).head? := by
  induction l with
  | nil => cases member
  | cons d l ih =>
    rw [List.pairwise_cons] at sorted
    rcases List.mem_cons.mp member with rfl | later
    · rw [List.flatMap_cons, List.head?_append_of_ne_nil _ leads]
    · have none := nearer d (.head _) (sorted.1 x later)
      rw [List.flatMap_cons, none, List.nil_append]
      exact ih sorted.2 later fun e inside before => nearer e (.tail _ inside) before

theorem exists_first_of_head?_flatMap {α β : Type} {r : α → α → Prop} [Std.Asymm r] {l : List α}
    {g : α → List β} {b : β} (sorted : l.Pairwise r) (first : (l.flatMap g).head? = some b) :
    ∃ a ∈ l, (g a).head? = some b ∧ ∀ d ∈ l, r d a → g d = [] := by
  induction l with
  | nil => cases first
  | cons a l ih =>
    rw [List.pairwise_cons] at sorted
    rw [List.flatMap_cons] at first
    by_cases none : g a = []
    · rw [none, List.nil_append] at first
      obtain ⟨e, member, here, nearer⟩ := ih sorted.2 first
      exact ⟨e, .tail _ member, here, List.forall_mem_cons.mpr ⟨fun _ => none, nearer⟩⟩
    · rw [List.head?_append_of_ne_nil _ none] at first
      refine ⟨a, .head _, first, List.forall_mem_cons.mpr ⟨?_, ?_⟩⟩
      · exact fun self => absurd self (Std.Asymm.asymm a a self)
      · exact fun d member before => absurd before (Std.Asymm.asymm a d (sorted.1 d member))

namespace Cursor

variable {cls : CharClass} {times : Times} {c : Cursor} {w rest : Text} {g : Cursor → List Cursor}

theorem exists_mem_stops (split : c.rest = w ++ rest) (accepted : ∀ a ∈ w, cls.accepts a)
    (allowed : times.Allows w.length) :
    ∃ d ∈ c.stops cls times, c.Passes w d ∧ d.captures = c.captures := by
  have passes : c.Passes w ⟨behind c.before w, c.offset + w.length, rest, c.captures⟩ :=
    ⟨split, rfl, rfl⟩
  exact ⟨_, mem_stops.mpr ⟨w, passes, accepted, allowed, rfl⟩, passes, rfl⟩

theorem Passes.append_of_lt {u : Text} {d e : Cursor} (near : c.Passes u d) (far : c.Passes w e)
    (before : d.offset < e.offset) : ∃ v, v ≠ [] ∧ w = u ++ v ∧ d.rest = v ++ e.rest := by
  have shorter : u.length < w.length := by
    have first := near.offset
    have second := far.offset
    omega
  have same : w ++ e.rest = u ++ d.rest := far.rest.symm.trans near.rest
  rcases List.append_eq_append_iff.mp same with ⟨v, eq, -⟩ | ⟨v, eq, rest⟩
  · rw [eq, List.length_append] at shorter
    omega
  · refine ⟨v, ?_, eq, rest⟩
    intro none
    rw [eq, none, List.append_nil] at shorter
    omega

theorem head?_stops_of_lazy (few : times.isLazy) (split : c.rest = w ++ rest)
    (accepted : ∀ a ∈ w, cls.accepts a) (allowed : times.Allows w.length)
    (blocked : ∀ u v d, w = u ++ v → v ≠ [] → c.Passes u d → g d = [])
    (leads : ∀ d, c.Passes w d → g d ≠ []) :
    ∃ d, c.Passes w d ∧ d.captures = c.captures ∧
      ((c.stops cls times).flatMap g).head? = (g d).head? := by
  obtain ⟨d, member, passes, kept⟩ := exists_mem_stops split accepted allowed
  refine ⟨d, passes, kept, head?_flatMap_of_sorted (stops_sorted few c) member ?_ (leads d passes)⟩
  intro e listed before
  obtain ⟨u, reached, -, -, -⟩ := mem_stops.mp listed
  obtain ⟨v, some, eq, -⟩ := reached.append_of_lt passes before
  exact blocked u v e eq some reached

theorem exists_stop_of_lazy (few : times.isLazy) {b : Cursor}
    (first : ((c.stops cls times).flatMap g).head? = some b) :
    ∃ w d, c.Passes w d ∧ (∀ a ∈ w, cls.accepts a) ∧ times.Allows w.length ∧
      d.captures = c.captures ∧ (g d).head? = some b ∧
      ∀ u v, w = u ++ v → v ≠ [] → times.Allows u.length →
        ∃ e, c.Passes u e ∧ e.captures = c.captures ∧ g e = [] := by
  let nearer (d e : Cursor) : Prop := d.offset < e.offset
  have : Std.Asymm nearer := ⟨fun _ _ before after => Nat.lt_asymm before after⟩
  obtain ⟨d, listed, here, none⟩ :=
    exists_first_of_head?_flatMap (r := nearer) (stops_sorted few c) first
  obtain ⟨w, passes, accepted, allowed, kept⟩ := mem_stops.mp listed
  refine ⟨w, d, passes, accepted, allowed, kept, here, ?_⟩
  rintro u v rfl some fits
  have split : c.rest = u ++ (v ++ d.rest) := by rw [passes.rest, List.append_assoc]
  have inside : ∀ a ∈ u, cls.accepts a := fun a member => accepted a (List.mem_append_left v member)
  obtain ⟨e, listed, reached, same⟩ := exists_mem_stops split inside fits
  refine ⟨e, reached, same, none e listed ?_⟩
  have more := List.length_pos_iff.mpr some
  have last := passes.offset
  rw [List.length_append, ← Nat.add_assoc, ← reached.offset] at last
  show e.offset < d.offset
  omega

theorem stops_sorted_of_greedy (many : times.isLazy = false) (c : Cursor) :
    (c.stops cls times).Pairwise fun d e => e.offset < d.offset := by
  unfold stops
  split
  · exact .nil
  · rw [many]
    exact reach_sorted .nil fun _ absent => nomatch absent

theorem head?_stops_of_greedy (many : times.isLazy = false) (split : c.rest = w ++ rest)
    (accepted : ∀ a ∈ w, cls.accepts a) (allowed : times.Allows w.length)
    (longest : ∀ u v, rest = u ++ v → (∀ a ∈ u, cls.accepts a) → times.Allows (w ++ u).length →
      u = [])
    (leads : ∀ d, c.Passes w d → g d ≠ []) :
    ∃ d, c.Passes w d ∧ d.captures = c.captures ∧
      ((c.stops cls times).flatMap g).head? = (g d).head? := by
  obtain ⟨d, member, passes, kept⟩ := exists_mem_stops split accepted allowed
  refine ⟨d, passes, kept,
    head?_flatMap_of_sorted (stops_sorted_of_greedy many c) member ?_ (leads d passes)⟩
  intro e listed before
  obtain ⟨x, reached, inside, fits, -⟩ := mem_stops.mp listed
  obtain ⟨u, some, rfl, remains⟩ := passes.append_of_lt reached before
  have tail : ∀ a ∈ u, cls.accepts a := fun a member => inside a (List.mem_append_right w member)
  exact absurd (longest u e.rest ((passes.rest_eq split).symm.trans remains) tail fits) some

theorem exists_stop_of_greedy (many : times.isLazy = false) {b : Cursor}
    (first : ((c.stops cls times).flatMap g).head? = some b) :
    ∃ w d, c.Passes w d ∧ (∀ a ∈ w, cls.accepts a) ∧ times.Allows w.length ∧
      d.captures = c.captures ∧ (g d).head? = some b ∧
      ∀ u v, d.rest = u ++ v → u ≠ [] → (∀ a ∈ u, cls.accepts a) →
        times.Allows (w ++ u).length → ∃ e, c.Passes (w ++ u) e ∧ e.captures = c.captures ∧
          g e = [] := by
  let further (d e : Cursor) : Prop := e.offset < d.offset
  have : Std.Asymm further := ⟨fun _ _ before after => Nat.lt_asymm before after⟩
  obtain ⟨d, listed, here, none⟩ :=
    exists_first_of_head?_flatMap (r := further) (stops_sorted_of_greedy many c) first
  obtain ⟨w, passes, accepted, allowed, kept⟩ := mem_stops.mp listed
  refine ⟨w, d, passes, accepted, allowed, kept, here, ?_⟩
  intro u v more some solid fits
  have split : c.rest = (w ++ u) ++ v := by rw [passes.rest, more, List.append_assoc]
  obtain ⟨e, listed, reached, same⟩ :=
    exists_mem_stops split (List.forall_mem_append.mpr ⟨accepted, solid⟩) fits
  refine ⟨e, reached, same, none e listed ?_⟩
  have longer := List.length_pos_iff.mpr some
  have last := reached.offset
  rw [List.length_append, ← Nat.add_assoc, ← passes.offset] at last
  show d.offset < e.offset
  omega

/-- Free text stops at the first place from which the rest goes on. -/
theorem head?_stops (split : c.rest = w ++ rest)
    (blocked : ∀ u v d, w = u ++ v → v ≠ [] → c.Passes u d → g d = [])
    (leads : ∀ d, c.Passes w d → g d ≠ []) :
    ∃ d, c.Passes w d ∧ d.captures = c.captures ∧
      ((c.stops .any .lazyStar).flatMap g).head? = (g d).head? :=
  head?_stops_of_lazy rfl split (fun _ _ => rfl) (Times.allows_lazyStar _) blocked leads

theorem head?_endsUpTo {places : Cursor → List Cursor} {n : Nat} (split : c.rest = w ++ rest)
    (enough : w.length ≤ n)
    (step : ∀ u a v d, w = u ++ a :: v → c.Passes u d →
      ∃ e, d.Passes [a] e ∧ e.captures = d.captures ∧ places d = [e])
    (blocked : ∀ u v d, w = u ++ v → v ≠ [] → c.Passes u d → g d = [])
    (leads : ∀ d, c.Passes w d → g d ≠ []) :
    ∃ d, c.Passes w d ∧ d.captures = c.captures ∧
      ((endsUpTo places true n c).flatMap g).head? = (g d).head? := by
  induction w generalizing c n with
  | nil =>
    refine ⟨c, .refl c, rfl, ?_⟩
    have here := leads c (.refl c)
    cases n with
    | zero => simp [endsUpTo]
    | succ n =>
      simp only [endsUpTo, if_true, List.flatMap_cons]
      exact List.head?_append_of_ne_nil _ here
  | cons a w ih =>
    cases n with
    | zero => simp at enough
    | succ n =>
      obtain ⟨e, passes, kept, only⟩ := step [] a w c rfl (.refl c)
      have behind : e.rest = w ++ rest := passes.rest_eq split
      have further : c.offset < e.offset := by
        rw [passes.offset, List.length_singleton]
        omega
      obtain ⟨d, reached, same, found⟩ := ih behind (Nat.le_of_succ_le_succ enough)
        (fun u b v d eq more => step (a :: u) b v d (by rw [eq]; rfl) (passes.trans more))
        (fun u v d eq some more => blocked (a :: u) v d (by rw [eq]; rfl) some (passes.trans more))
        (fun d more => leads d (passes.trans more))
      refine ⟨d, passes.trans reached, same.trans kept, ?_⟩
      have none : g c = [] := blocked [] (a :: w) c rfl (List.cons_ne_nil a w) (.refl c)
      simp only [endsUpTo, if_true, List.flatMap_cons, none, List.nil_append, only,
        List.flatMap_nil, List.append_nil, further]
      exact found

end Cursor

namespace Pattern

variable {p q : Pattern}

theorem get_of_kept {m : Match} {name : Field} {w rest : Text}
    (kept : m.stop.captures.find? (·.field = name) = some ⟨name, w ++ rest, w.length⟩) :
    m.get name = w := by
  rw [Match.get, Match.get?, kept]
  exact List.take_left

theorem run_some (p : Pattern) (c : Cursor) : p.run c some = (p.ends c).head? := by
  rw [run_eq_findSome?]
  cases p.ends c <;> rfl

theorem head?_seq (good : Cursor → Prop) {c d : Cursor}
    (each : ∀ e ∈ p.ends c, ∀ d, (q.ends e).head? = some d → good d)
    (first : ((seq p q).ends c).head? = some d) : good d :=
  head?_flatMap_rec good each first

theorem exists_of_head?_seq {c b : Cursor} (first : ((seq p q).ends c).head? = some b) :
    ∃ a ∈ p.ends c, (q.ends a).head? = some b :=
  exists_of_head?_flatMap first

theorem exists_of_head?_all {ps qs : List Pattern} (more : qs ≠ []) {c b : Cursor}
    (first : ((all (ps ++ qs)).ends c).head? = some b) :
    ∃ w a, c.Passes w a ∧ ((all qs).ends a).head? = some b := by
  induction ps generalizing c with
  | nil => exact ⟨[], c, .refl c, first⟩
  | cons p ps ih =>
    have parts : all (p :: (ps ++ qs)) = seq p (all (ps ++ qs)) := by
      obtain ⟨r, rs, eq⟩ := List.exists_cons_of_ne_nil (List.append_ne_nil_of_right_ne_nil ps more)
      rw [eq]
      rfl
    rw [List.cons_append, parts] at first
    obtain ⟨a, member, first⟩ := exists_of_head?_seq first
    obtain ⟨u, near, -⟩ := p.faithful.sound member
    obtain ⟨v, e, further, first⟩ := ih first
    exact ⟨u ++ v, e, near.trans further, first⟩

theorem mem_ends {c d : Cursor} (unnamed : p.fields = []) (member : d ∈ p.ends c) :
    ∃ w, c.Passes w d ∧ p.Takes c.before w d.rest ∧ d.captures = c.captures := by
  obtain ⟨w, passes, taken⟩ := p.faithful.sound member
  exact ⟨w, passes, taken, silent_of_fields unnamed member⟩

theorem mem_ends_seq (unnamed : p.fields = []) {c d : Cursor}
    (member : d ∈ (seq p q).ends c) : ∃ w e, c.Passes w e ∧ p.Takes c.before w e.rest ∧
      e.captures = c.captures ∧ d ∈ q.ends e := by
  obtain ⟨e, near, later⟩ := List.mem_flatMap.mp member
  obtain ⟨w, passes, taken, same⟩ := mem_ends unnamed near
  exact ⟨w, e, passes, taken, same, later⟩

theorem mem_ends_field {name : Field} {c d : Cursor} (unnamed : p.fields = [])
    (member : d ∈ (field name p).ends c) :
    ∃ w, c.Passes w d ∧ p.Takes c.before w d.rest ∧
      d.captures = ⟨name, c.rest, w.length⟩ :: c.captures := by
  obtain ⟨e, inner, rfl⟩ := List.mem_map.mp member
  obtain ⟨w, passes, taken, kept⟩ := mem_ends unnamed inner
  refine ⟨w, ⟨passes.rest, passes.before, passes.offset⟩, taken, ?_⟩
  rw [Cursor.keep, passes.offset, Nat.add_sub_cancel_left, kept]

theorem ends_ne_nil_iff {c : Cursor} :
    p.ends c ≠ [] ↔ ∃ w rest, c.rest = w ++ rest ∧ p.Takes c.before w rest := by
  constructor
  · intro some
    obtain ⟨d, member⟩ := List.exists_mem_of_ne_nil _ some
    obtain ⟨w, passes, taken⟩ := p.faithful.sound member
    exact ⟨w, d.rest, passes.rest, taken⟩
  · intro taken
    obtain ⟨w, rest, split, taken⟩ := taken
    obtain ⟨d, member, -⟩ := p.faithful.complete split taken
    exact List.ne_nil_of_mem member

theorem exists_kept_of_lazy {starts : Text → Prop} (unnamed : p.fields = [])
    (leads : ∀ c : Cursor, p.ends c ≠ [] ↔ starts c.rest) {name : Field} {c a b : Cursor} {s : Text}
    (passes : c.Passes s a) (kept : a.captures = c.captures)
    (first : ((a.stops .any .lazyStar).flatMap fun e => p.ends (e.keep name c)).head? = some b) :
    ∃ w rest, a.rest = w ++ rest ∧ starts rest ∧
      (∀ u v, w = u ++ v → v ≠ [] → ¬ starts (v ++ rest)) ∧
      b.captures = ⟨name, c.rest, (s ++ w).length⟩ :: c.captures := by
  obtain ⟨w, e, further, -, -, same, found, nearer⟩ := Cursor.exists_stop_of_lazy rfl first
  have member : b ∈ p.ends (e.keep name c) := List.mem_of_mem_head? found
  have last : starts (e.keep name c).rest := (leads _).mp (List.ne_nil_of_mem member)
  refine ⟨w, e.rest, further.rest, last, ?_, ?_⟩
  · rintro u v rfl some here
    obtain ⟨d, near, -, none⟩ := nearer u v rfl some (Times.allows_lazyStar _)
    have behind : d.rest = v ++ e.rest :=
      near.rest_eq (further.rest.trans (List.append_assoc ..))
    exact (leads (d.keep name c)).mpr (behind ▸ here) none
  · have offset := (passes.trans further).offset
    rw [silent_of_fields unnamed member, Cursor.keep, same, kept, offset, Nat.add_sub_cancel_left]

theorem searchFrom?_eq_some {before : Option Char} {offset : Nat} {s : Text} {m : Match}
    (found : p.searchFrom? before offset s = some m) :
    ∃ u v d, s = u ++ v ∧ (p.ends ⟨behind before u, offset + u.length, v, []⟩).head? = some d ∧
      m = ⟨offset + u.length, d⟩ := by
  have here {before : Option Char} {offset : Nat} {s : Text} {m : Match}
      (matched : p.matchAt? ⟨before, offset, s, []⟩ = some m) :
      ∃ d, (p.ends ⟨before, offset, s, []⟩).head? = some d ∧ m = ⟨offset, d⟩ := by
    unfold matchAt? at matched
    rw [run_some] at matched
    obtain ⟨d, first, rfl⟩ := Option.map_eq_some_iff.mp matched
    exact ⟨d, first, rfl⟩
  induction s generalizing before offset with
  | nil =>
    obtain ⟨d, first, eq⟩ := here found
    exact ⟨[], [], d, rfl, first, eq⟩
  | cons a s ih =>
    rw [searchFrom?, Option.orElse_eq_orElse, Option.orElse_eq_or, Option.or_eq_some_iff] at found
    rcases found with matched | ⟨-, later⟩
    · obtain ⟨d, first, eq⟩ := here matched
      exact ⟨[], a :: s, d, rfl, first, eq⟩
    · obtain ⟨u, v, d, rfl, first, eq⟩ := ih later
      refine ⟨a :: u, v, d, rfl, ?_, ?_⟩
      · rwa [List.length_cons, Nat.add_comm u.length, ← Nat.add_assoc]
      · rw [eq, List.length_cons, Nat.add_comm u.length, ← Nat.add_assoc]

theorem searchFrom?_of_takes (before : Option Char) (offset : Nat) {u w v : Text}
    (taken : p.Takes (behind before u) w v) :
    ∃ m, p.searchFrom? before offset (u ++ (w ++ v)) = some m ∧ m.start ≤ offset + u.length := by
  have here (before : Option Char) (offset : Nat) (taken : p.Takes before w v) :
      ∃ d, p.matchAt? ⟨before, offset, w ++ v, []⟩ = some ⟨offset, d⟩ := by
    have places : p.ends ⟨before, offset, w ++ v, []⟩ ≠ [] :=
      ends_ne_nil_iff.mpr ⟨w, v, rfl, taken⟩
    refine ⟨(p.ends ⟨before, offset, w ++ v, []⟩).head places, ?_⟩
    rw [matchAt?, run_some, List.head?_eq_some_head places]
    rfl
  induction u generalizing before offset with
  | nil =>
    obtain ⟨d, matched⟩ := here before offset taken
    refine ⟨⟨offset, d⟩, ?_, Nat.le_refl offset⟩
    rw [List.nil_append]
    cases text : w ++ v with
    | nil =>
      rw [text] at matched
      exact matched
    | cons a s =>
      rw [text] at matched
      rw [searchFrom?, Option.orElse_eq_orElse, Option.orElse_eq_or, matched, Option.some_or]
  | cons a u ih =>
    obtain ⟨m, later, bound⟩ := ih (some a) (offset + 1) taken
    rw [List.length_cons]
    rw [List.cons_append, searchFrom?, Option.orElse_eq_orElse, Option.orElse_eq_or]
    cases matched : p.matchAt? ⟨before, offset, a :: (u ++ (w ++ v)), []⟩ with
    | none => exact ⟨m, later, by omega⟩
    | some first =>
      obtain ⟨d, -, rfl⟩ := Option.map_eq_some_iff.mp matched
      exact ⟨⟨offset, d⟩, rfl, Nat.le_add_right offset _⟩

/-- If some piece is taken, a search finds a match, and what holds of the first match at every
place holds of it. -/
theorem search?_of_takes {s : Text} {good : Match → Prop}
    (each : ∀ u v d, s = u ++ v → (p.ends (.between u v)).head? = some d → good ⟨u.length, d⟩)
    {u w v : Text} (split : s = u ++ (w ++ v)) (taken : p.Takes (behind none u) w v) :
    ∃ m, p.search? s = some m ∧ good m := by
  obtain ⟨m, found, -⟩ := searchFrom?_of_takes none 0 taken
  rw [← split] at found
  refine ⟨m, found, ?_⟩
  obtain ⟨x, y, d, parts, first, rfl⟩ := searchFrom?_eq_some found
  rw [Nat.zero_add] at first ⊢
  exact each x y d parts first

theorem search?_eq_none {s : Text}
    (never : ∀ u w v, s = u ++ (w ++ v) → ¬ p.Takes (behind none u) w v) : p.search? s = none := by
  by_contra some
  obtain ⟨m, found⟩ := Option.ne_none_iff_exists'.mp some
  obtain ⟨u, v, d, rfl, first, -⟩ := searchFrom?_eq_some found
  obtain ⟨w, passes, taken⟩ := p.faithful.sound (List.mem_of_mem_head? first)
  exact never u w d.rest (congrArg (u ++ ·) passes.rest) taken

theorem searchFrom?_append {before : Option Char} {offset : Nat} {u s : Text}
    (none : ∀ x y, u = x ++ y → y ≠ [] →
      p.ends ⟨behind before x, offset + x.length, y ++ s, []⟩ = []) :
    p.searchFrom? before offset (u ++ s) =
      p.searchFrom? (behind before u) (offset + u.length) s := by
  induction u generalizing before offset with
  | nil => rfl
  | cons a u ih =>
    have here : p.matchAt? ⟨before, offset, a :: (u ++ s), []⟩ = .none := by
      have empty := none [] (a :: u) rfl (List.cons_ne_nil a u)
      unfold matchAt?
      rw [run_some]
      exact congrArg (fun places : List Cursor => places.head?.map _) empty
    rw [List.cons_append, searchFrom?, here, Option.orElse_eq_orElse, Option.orElse_eq_or,
      Option.none_or, ih]
    · rw [behind_cons, List.length_cons, Nat.add_assoc, Nat.add_comm 1]
    · intro x y eq some
      have later := none (a :: x) y (congrArg (a :: ·) eq) some
      rwa [behind_cons, List.length_cons, Nat.add_comm x.length, ← Nat.add_assoc] at later

theorem search?_of_leftmost {u v : Text} {d : Cursor}
    (earlier : ∀ x y, u = x ++ y → y ≠ [] → p.ends (.between x (y ++ v)) = [])
    (first : (p.ends (.between u v)).head? = some d) :
    p.search? (u ++ v) = some ⟨u.length, d⟩ := by
  have none : ∀ x y, u = x ++ y → y ≠ [] →
      p.ends ⟨behind .none x, 0 + x.length, y ++ v, []⟩ = [] := by
    intro x y eq some
    rw [Nat.zero_add]
    exact earlier x y eq some
  have matched : p.matchAt? ⟨behind .none u, u.length, v, []⟩ = some ⟨u.length, d⟩ := by
    unfold matchAt?
    rw [run_some]
    exact congrArg (Option.map _) first
  rw [search?, searchFrom?_append none, Nat.zero_add]
  cases v with
  | nil => exact matched
  | cons a v =>
    rw [searchFrom?, Option.orElse_eq_orElse, Option.orElse_eq_or, matched, Option.some_or]

end Pattern

end Apidoc
