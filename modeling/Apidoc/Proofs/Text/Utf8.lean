import Apidoc.Text.Utf8
import Mathlib.Tactic.SplitIfs

namespace Apidoc.Text.Utf8

theorem toNat_byte {n : Nat} (small : n < 256) : (UInt8.ofNat n).toNat = n :=
  UInt8.toNat_ofNat_of_lt' small

theorem isValidChar_toNat (c : Char) : c.toNat < 0xD800 ∨ 0xDFFF < c.toNat ∧ c.toNat < 0x110000 :=
  c.valid

section

variable {b : UInt8}

theorem lead?_two (low : 0xC2 ≤ b.toNat) (high : b.toNat < 0xE0) :
    lead? b = some ⟨1, 0x80, 0xBF, b.toNat - 0xC0, [b]⟩ := by
  rw [lead?, if_neg (Nat.not_lt.mpr low), if_pos high]

theorem lead?_three (low : 0xE0 ≤ b.toNat) (high : b.toNat < 0xF0) {second : Nat}
    (continues : 0x80 ≤ second ∧ second ≤ 0xBF) (long : b.toNat = 0xE0 → 0xA0 ≤ second)
    (surrogate : b.toNat = 0xED → second ≤ 0x9F) :
    ∃ first last, lead? b = some ⟨2, first, last, b.toNat - 0xE0, [b]⟩ ∧
      first ≤ second ∧ second ≤ last := by
  simp only [lead?]
  rw [if_neg (by omega), if_neg (by omega)]
  split
  · rename_i same
    exact ⟨0xA0, 0xBF, by rw [same], long same, continues.2⟩
  · split
    · rename_i same
      exact ⟨0x80, 0x9F, rfl, continues.1, surrogate same⟩
    · exact ⟨0x80, 0xBF, rfl, continues⟩

theorem lead?_four (low : 0xF0 ≤ b.toNat) (high : b.toNat < 0xF5) {second : Nat}
    (continues : 0x80 ≤ second ∧ second ≤ 0xBF) (long : b.toNat = 0xF0 → 0x90 ≤ second)
    (last : b.toNat = 0xF4 → second ≤ 0x8F) :
    ∃ first last, lead? b = some ⟨3, first, last, b.toNat - 0xF0, [b]⟩ ∧
      first ≤ second ∧ second ≤ last := by
  simp only [lead?]
  rw [if_neg (by omega), if_neg (by omega), if_neg (by omega), if_neg (by omega),
    if_neg (by omega)]
  split
  · rename_i same
    exact ⟨0x90, 0xBF, by rw [same], long same, continues.2⟩
  · split
    · exact ⟨0x80, 0xBF, rfl, continues⟩
    · rename_i below
      have same : b.toNat = 0xF4 := by omega
      exact ⟨0x80, 0x8F, if_pos same, continues.1, last same⟩

end

variable {position : Nat}

theorem decodeFrom_lead {b : UInt8} {p : Pending} (beyond : 0x80 ≤ b.toNat)
    (lead : lead? b = some p) (bs : Bytes) :
    decodeFrom position none (b :: bs) = decodeFrom position (some p) bs := by
  rw [decodeFrom, if_neg (Nat.not_lt.mpr beyond), lead]

def tail (n : Nat) : UInt8 := UInt8.ofNat (0x80 + n % 0x40)

theorem toNat_tail (n : Nat) : (tail n).toNat = 0x80 + n % 0x40 := toNat_byte (by omega)

section

variable {low high n : Nat} (range : low ≤ 0x80 + n % 0x40 ∧ 0x80 + n % 0x40 ≤ high)
include range

theorem decodeFrom_more (owed value : Nat) (read bs : Bytes) :
    decodeFrom position (some ⟨owed + 2, low, high, value, read⟩) (tail n :: bs) =
      decodeFrom position
        (some ⟨owed + 1, 0x80, 0xBF, value * 0x40 + n % 0x40, read ++ [tail n]⟩) bs := by
  rw [decodeFrom, toNat_tail, if_pos range]
  simp only [Pending.push, toNat_tail, Nat.add_sub_cancel_left]
  rfl

theorem decodeFrom_last (value : Nat) (read bs : Bytes) :
    decodeFrom position (some ⟨1, low, high, value, read⟩) (tail n :: bs) =
      (Char.ofNat (value * 0x40 + n % 0x40) :: ·) <$>
        decodeFrom (position + (read.length + 1)) none bs := by
  rw [decodeFrom, toNat_tail, if_pos range]
  simp only [Pending.push, toNat_tail, Nat.add_sub_cancel_left, List.length_append,
    List.length_singleton]
  rfl

end

theorem encodeChar_eq (c : Char) : encodeChar c =
    if c.toNat < 0x80 then [UInt8.ofNat c.toNat]
    else if c.toNat < 0x800 then [UInt8.ofNat (0xC0 + c.toNat / 0x40), tail c.toNat]
    else if c.toNat < 0x10000 then
      [UInt8.ofNat (0xE0 + c.toNat / 0x1000), tail (c.toNat / 0x40), tail c.toNat]
    else [UInt8.ofNat (0xF0 + c.toNat / 0x40000), tail (c.toNat / 0x1000), tail (c.toNat / 0x40),
      tail c.toNat] := rfl

theorem decodeFrom_encodeChar (c : Char) (bs : Bytes) :
    ∃ next, decodeFrom position none (encodeChar c ++ bs) =
      (c :: ·) <$> decodeFrom next none bs := by
  have valid := isValidChar_toNat c
  have read {m : Nat} (value : m = c.toNat) : Char.ofNat m = c := by
    rw [value, Char.ofNat_toNat]
  -- the range of bytes behind the second
  have range (n : Nat) : 0x80 ≤ 0x80 + n % 0x40 ∧ 0x80 + n % 0x40 ≤ 0xBF := by omega
  rw [encodeChar_eq]
  split
  · rename_i one
    have byte : (UInt8.ofNat c.toNat).toNat = c.toNat := toNat_byte (by omega)
    refine ⟨position + 1, ?_⟩
    rw [List.singleton_append, decodeFrom, byte, if_pos one, read rfl]
  · split
    · have byte : (UInt8.ofNat (0xC0 + c.toNat / 0x40)).toNat = 0xC0 + c.toNat / 0x40 :=
        toNat_byte (by omega)
      have lead := lead?_two (b := UInt8.ofNat (0xC0 + c.toNat / 0x40)) (by omega) (by omega)
      simp only [List.cons_append, List.nil_append]
      rw [decodeFrom_lead (by omega) lead, decodeFrom_last (range _), byte, read (by omega)]
      exact ⟨_, rfl⟩
    · split
      · have byte : (UInt8.ofNat (0xE0 + c.toNat / 0x1000)).toNat = 0xE0 + c.toNat / 0x1000 :=
          toNat_byte (by omega)
        obtain ⟨first, last, lead, second⟩ := lead?_three
          (b := UInt8.ofNat (0xE0 + c.toNat / 0x1000)) (by omega) (by omega)
          (range (c.toNat / 0x40)) (by omega) (by omega)
        simp only [List.cons_append, List.nil_append]
        rw [decodeFrom_lead (by omega) lead, decodeFrom_more second _,
          decodeFrom_last (range _), byte, read (by omega)]
        exact ⟨_, rfl⟩
      · have byte : (UInt8.ofNat (0xF0 + c.toNat / 0x40000)).toNat = 0xF0 + c.toNat / 0x40000 :=
          toNat_byte (by omega)
        obtain ⟨first, last, lead, second⟩ := lead?_four
          (b := UInt8.ofNat (0xF0 + c.toNat / 0x40000)) (by omega) (by omega)
          (range (c.toNat / 0x1000)) (by omega) (by omega)
        simp only [List.cons_append, List.nil_append]
        rw [decodeFrom_lead (by omega) lead, decodeFrom_more second _,
          decodeFrom_more (range _) _, decodeFrom_last (range _), byte,
          read (by omega)]
        exact ⟨_, rfl⟩

theorem decodeFrom_encode (s : Text) : decodeFrom position none (encode s) = .ok s := by
  induction s generalizing position with
  | nil => rfl
  | cons c s ih =>
    obtain ⟨next, read⟩ : ∃ next, decodeFrom position none (encodeChar c ++ encode s) = _ :=
      decodeFrom_encodeChar c (encode s)
    have written : encode (c :: s) = encodeChar c ++ encode s := List.flatMap_cons
    rw [written, read, ih]
    rfl

theorem decode_encode (s : Text) : decode (encode s) = .ok s := decodeFrom_encode s

theorem length_encode_le (s : Text) : (encode s).length ≤ 4 * s.length := by
  induction s with
  | nil => exact Nat.le_refl 0
  | cons c s ih =>
    have first : (encodeChar c).length ≤ 4 := by
      rw [encodeChar_eq]
      split_ifs <;> simp
    have written : encode (c :: s) = encodeChar c ++ encode s := List.flatMap_cons
    rw [written, List.length_append, List.length_cons]
    omega

theorem byte_cons_lt {m n : Nat} {x y : Bytes} (small : n < 256) (first : m ≤ n)
    (later : m = n → x < y) : UInt8.ofNat m :: x < UInt8.ofNat n :: y := by
  have less : m < 256 := Nat.lt_of_le_of_lt first small
  rw [List.cons_lt_cons_iff, UInt8.lt_iff_toNat_lt, toNat_byte less, toNat_byte small]
  rcases Nat.lt_or_eq_of_le first with less | same
  · exact .inl less
  · exact .inr ⟨congrArg UInt8.ofNat same, later same⟩

theorem byte_cons_lt_of_lt {m n : Nat} {x y : Bytes} (small : n < 256) (first : m < n) :
    UInt8.ofNat m :: x < UInt8.ofNat n :: y :=
  byte_cons_lt small (Nat.le_of_lt first) fun same => absurd same (Nat.ne_of_lt first)

theorem tail_cons_lt {m n : Nat} {x y : Bytes} (high : m / 0x40 = n / 0x40) (less : m < n) :
    tail m :: x < tail n :: y :=
  byte_cons_lt_of_lt (by omega) (by omega)

theorem tail_cons_lt_of_le {m n : Nat} {x y : Bytes} (high : m / 0x40 = n / 0x40) (le : m ≤ n)
    (later : m = n → x < y) : tail m :: x < tail n :: y :=
  byte_cons_lt (by omega) (by omega) fun same => later (by omega)

theorem encodeChar_lt {c d : Char} (less : c < d) (x y : Bytes) :
    encodeChar c ++ x < encodeChar d ++ y := by
  have codes : c.toNat < d.toNat := less
  have valid := isValidChar_toNat d
  rw [encodeChar_eq, encodeChar_eq]
  split
  · split_ifs <;> exact byte_cons_lt_of_lt (by omega) (by omega)
  · split
    · split_ifs
      · omega
      · exact byte_cons_lt (by omega) (by omega) fun same => tail_cons_lt (by omega) codes
      · exact byte_cons_lt_of_lt (by omega) (by omega)
      · exact byte_cons_lt_of_lt (by omega) (by omega)
    · split
      · split_ifs
        · omega
        · omega
        · exact byte_cons_lt (by omega) (by omega) fun same =>
            tail_cons_lt_of_le (by omega) (by omega) fun same => tail_cons_lt (by omega) codes
        · exact byte_cons_lt_of_lt (by omega) (by omega)
      · split_ifs
        · omega
        · omega
        · omega
        · exact byte_cons_lt (by omega) (by omega) fun same =>
            tail_cons_lt_of_le (by omega) (by omega) fun same =>
              tail_cons_lt_of_le (by omega) (by omega) fun same => tail_cons_lt (by omega) codes

theorem exists_encodeChar_eq_cons (c : Char) : ∃ b bs, encodeChar c = b :: bs := by
  rw [encodeChar_eq]
  split_ifs <;> exact ⟨_, _, rfl⟩

theorem encode_lt {s t : Text} (less : s < t) : encode s < encode t := by
  induction less with
  | @nil c t =>
    obtain ⟨b, bs, bytes⟩ := exists_encodeChar_eq_cons c
    have written : encode (c :: t) = b :: (bs ++ encode t) := by
      rw [encode, List.flatMap_cons, bytes]
      rfl
    rw [written]
    exact List.nil_lt_cons ..
  | cons later ih => exact List.append_left_lt ih
  | rel first => exact encodeChar_lt first _ _

theorem encode_lt_iff {s t : Text} : encode s < encode t ↔ s < t := by
  constructor
  · intro less
    refine Decidable.byContradiction fun above => ?_
    rcases List.le_iff_lt_or_eq.mp (List.not_lt.mp above) with greater | same
    · exact List.lt_asymm less (encode_lt greater)
    · rw [same] at less
      exact List.lt_irrefl _ less
  · exact encode_lt

end Apidoc.Text.Utf8
