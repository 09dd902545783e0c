import Apidoc.Proofs.Flate.CheckSum
import Mathlib.Tactic.Ring

/-!
Streams of stored blocks. What such a stream holds is read back with any bytes behind the stream,
and a stream that is cut off is found to be incomplete. Any bytes that fit into a block have a
stream of one block.
-/
namespace Apidoc.Flate

def twoBytes (n : Nat) : Bytes := [UInt8.ofNat (n % 256), UInt8.ofNat (n / 256)]

def fourBytes (n : Nat) : Bytes :=
  [UInt8.ofNat (n / 0x1000000), UInt8.ofNat (n / 0x10000 % 256), UInt8.ofNat (n / 0x100 % 256),
    UInt8.ofNat (n % 256)]

/-- A stored block: the bits that fill up its first byte, and the bytes that it holds. -/
structure StoredBlock where
  filling : BitVec 5
  data : Bytes
  short : data.length < 0x10000

namespace StoredBlock

variable (b : StoredBlock)

/-- The first bit tells whether the block is the last one, and the next two that it is stored. -/
def lead (final : Bool) : UInt8 := UInt8.ofNat (final.toNat + 8 * b.filling.toNat)

def body : Bytes := twoBytes b.data.length ++ (twoBytes (0xFFFF - b.data.length) ++ b.data)

def bytes (final : Bool) : Bytes := b.lead final :: b.body

end StoredBlock

/-- A stream of stored blocks: two bytes that name the method and need no dictionary, the blocks
before the last one, and the last one. -/
structure StoredStream where
  method : UInt8
  flags : UInt8
  earlier : List StoredBlock
  last : StoredBlock
  checked : (method.toNat * 256 + flags.toNat) % 31 = 0
  deflated : method.toNat % 16 = 8
  window : method.toNat / 16 ≤ 7
  plain : flags.toNat.testBit 5 = false

namespace StoredStream

variable (z : StoredStream)

def data : Bytes := z.earlier.flatMap StoredBlock.data ++ z.last.data

def body : Bytes := z.earlier.flatMap (·.bytes false) ++ z.last.bytes true

def bytes : Bytes := z.method :: z.flags :: (z.body ++ fourBytes (adler z.data))

def single {data : Bytes} (short : data.length < 0x10000) : StoredStream where
  method := 0x78
  flags := 0x01
  earlier := []
  last := ⟨0, data, short⟩
  checked := by decide
  deflated := by decide
  window := by decide
  plain := by decide

end StoredStream

def stored (data : Bytes) : Bytes :=
  [0x78, 0x01, 0x01] ++ (twoBytes data.length ++ (twoBytes (0xFFFF - data.length) ++
    (data ++ fourBytes (checkSum data))))

/-! Reading whole bytes. -/

def bitSum (n more : Nat) : Nat :=
  (n.testBit 0).toNat + 2 * ((n.testBit 1).toNat + 2 * ((n.testBit 2).toNat +
    2 * ((n.testBit 3).toNat + 2 * ((n.testBit 4).toNat + 2 * ((n.testBit 5).toNat +
    2 * ((n.testBit 6).toNat + 2 * ((n.testBit 7).toNat + 2 * more)))))))

theorem bitSum_zero : ∀ n < 256, bitSum n 0 = n := by decide +kernel

theorem bitSum_eq (b : UInt8) (more : Nat) : bitSum b.toNat more = b.toNat + 256 * more := by
  have split (n : Nat) : bitSum n more = bitSum n 0 + 256 * more := by
    unfold bitSum
    ring
  rw [split, bitSum_zero b.toNat b.toNat_lt]

theorem number_byte (b : UInt8) (bs : Bytes) :
    Bits.number 8 ⟨[], b :: bs⟩ = .ok (b.toNat, ⟨[], bs⟩) := by
  have read : Bits.number 8 ⟨[], b :: bs⟩ = .ok (bitSum b.toNat 0, ⟨[], bs⟩) := rfl
  rw [read, bitSum_eq, Nat.mul_zero, Nat.add_zero]

theorem number_twoBytes {n : Nat} (small : n < 0x10000) (bs : Bytes) :
    Bits.number 16 ⟨[], twoBytes n ++ bs⟩ = .ok (n, ⟨[], bs⟩) := by
  have read (a b : UInt8) : Bits.number 16 ⟨[], a :: b :: bs⟩ =
      .ok (bitSum a.toNat (bitSum b.toNat 0), ⟨[], bs⟩) := rfl
  have byte {m : Nat} (less : m < 256) : (UInt8.ofNat m).toNat = m := UInt8.toNat_ofNat_of_lt' less
  have low : (UInt8.ofNat (n % 256)).toNat = n % 256 := byte (by omega)
  have high : (UInt8.ofNat (n / 256)).toNat = n / 256 := byte (by omega)
  have value : n % 256 + 256 * (n / 256 + 256 * 0) = n := by omega
  rw [twoBytes, List.cons_append, List.cons_append, List.nil_append, read, bitSum_eq, bitSum_eq,
    low, high, value]

theorem bigEndian_fourBytes {n : Nat} (small : n < 0x100000000) : bigEndian (fourBytes n) = n := by
  have byte {m : Nat} (less : m < 256) : (UInt8.ofNat m).toNat = m := UInt8.toNat_ofNat_of_lt' less
  simp only [bigEndian, fourBytes, List.foldl_cons, List.foldl_nil]
  rw [byte (by omega), byte (by omega), byte (by omega), byte (by omega)]
  omega

/-! Bytes that end too soon. -/

theorem Bits.bit_cases (b : Bits) : b.size = 0 ∧ b.bit = .error .truncated ∨
    ∃ x d, b.bit = .ok (x, d) ∧ b.size = d.size + 1 := by
  obtain ⟨begun, bytes⟩ := b
  cases begun with
  | cons x begun =>
    refine .inr ⟨x, ⟨begun, bytes⟩, rfl, ?_⟩
    simp only [Bits.size, List.length_cons]
    omega
  | nil =>
    cases bytes with
    | nil => exact .inl ⟨rfl, rfl⟩
    | cons byte bytes =>
      refine .inr ⟨_, _, rfl, ?_⟩
      simp only [Bits.size, byteBits, List.length_tail, List.length_map, List.length_range,
        List.length_cons, List.length_nil]
      omega

theorem number_of_size_lt {n : Nat} {b : Bits} (few : b.size < n) :
    b.number n = .error .truncated := by
  induction n generalizing b with
  | zero => exact absurd few (Nat.not_lt_zero _)
  | succ n ih =>
    rcases b.bit_cases with ⟨-, ended⟩ | ⟨x, d, read, size⟩
    · rw [Bits.number, ended]
      rfl
    · have later : d.number n = .error .truncated := ih (by omega)
      rw [Bits.number, read]
      simp only [bind, Except.bind, later]

theorem take_of_length_lt {n : Nat} {b : Bits} (few : b.bytes.length < n) :
    b.take n = .error .truncated := by
  rw [Bits.take, if_pos few]

theorem cut_cases {cut rest u v : Bytes} (split : u ++ v = cut ++ rest) :
    (∃ t, t ≠ [] ∧ u = cut ++ t) ∨ ∃ c, cut = u ++ c ∧ v = c ++ rest := by
  rcases List.append_eq_append_iff.mp split with ⟨c, reached, behind⟩ | ⟨t, within, behind⟩
  · exact .inr ⟨c, reached, behind⟩
  · by_cases none : t = []
    · rw [none] at within behind
      exact .inr ⟨[], by rw [within, List.append_nil, List.append_nil], behind.symm⟩
    · exact .inl ⟨t, none, within⟩

theorem length_lt_of_cut {cut t u : Bytes} (some : t ≠ []) (within : u = cut ++ t) :
    cut.length < u.length := by
  rw [within, List.length_append]
  exact Nat.lt_add_of_pos_right (List.length_pos_iff.mpr some)

theorem number_of_cut {cut t : Bytes} {n : Nat} (some : t ≠ []) (within : twoBytes n = cut ++ t) :
    (⟨[], cut⟩ : Bits).number 16 = .error .truncated := by
  have few : cut.length < 2 := length_lt_of_cut some within
  apply number_of_size_lt
  simp only [Bits.size, List.length_nil]
  omega

/-! Reading a block. -/

theorem take_data (data rest : Bytes) :
    (⟨[], data ++ rest⟩ : Bits).take data.length = .ok (data, ⟨[], rest⟩) := by
  have enough : ¬(data ++ rest).length < data.length := by simp
  rw [Bits.take, if_neg enough, List.take_left, List.drop_left]

namespace StoredBlock

variable (b : StoredBlock)

theorem storedBlock_lengths (rest : Bytes) (out : Output) :
    storedBlock ⟨[], twoBytes b.data.length ++ (twoBytes (0xFFFF - b.data.length) ++ rest)⟩ out =
      ((⟨[], rest⟩ : Bits).take b.data.length).map fun read => (out ++ read.1.toArray, read.2) := by
  have short := b.short
  have first := number_twoBytes short (twoBytes (0xFFFF - b.data.length) ++ rest)
  have second := number_twoBytes (n := 0xFFFF - b.data.length) (by omega) rest
  have sum : b.data.length + (0xFFFF - b.data.length) = 0xFFFF := by omega
  simp only [storedBlock, Bits.aligned, first, second, sum, bind, Except.bind, ne_eq,
    not_true_eq_false, if_false]
  cases (⟨[], rest⟩ : Bits).take b.data.length <;> rfl

theorem storedBlock_body (rest : Bytes) (out : Output) :
    storedBlock ⟨[], b.body ++ rest⟩ out = .ok (out ++ b.data.toArray, ⟨[], rest⟩) := by
  rw [body, List.append_assoc, List.append_assoc, storedBlock_lengths, take_data]
  rfl

theorem storedBlock_cut {cut rest : Bytes} (split : b.body = cut ++ rest) (some : rest ≠ [])
    (out : Output) : storedBlock ⟨[], cut⟩ out = .error .truncated := by
  rcases cut_cases split with ⟨t, more, within⟩ | ⟨c, rfl, behind⟩
  · have first := number_of_cut more within
    simp only [storedBlock, Bits.aligned, first, bind, Except.bind]
  · rcases cut_cases behind with ⟨t, more, within⟩ | ⟨d, rfl, within⟩
    · have first := number_twoBytes b.short c
      have second := number_of_cut more within
      simp only [storedBlock, Bits.aligned, first, second, bind, Except.bind]
    · rw [storedBlock_lengths, take_of_length_lt (length_lt_of_cut some within)]
      rfl

theorem testBit_lead (final : Bool) : (b.lead final).toNat.testBit 0 = final ∧
    (b.lead final).toNat.testBit 1 = false ∧ (b.lead final).toNat.testBit 2 = false := by
  have all : ∀ n < 32, (UInt8.ofNat (final.toNat + 8 * n)).toNat.testBit 0 = final ∧
      (UInt8.ofNat (final.toNat + 8 * n)).toNat.testBit 1 = false ∧
      (UInt8.ofNat (final.toNat + 8 * n)).toNat.testBit 2 = false := by
    cases final <;> decide
  exact all b.filling.toNat b.filling.isLt

theorem blocks_lead (final : Bool) (fuel : Nat) (rest : Bytes) (out : Output) :
    blocks (fuel + 1) ⟨[], b.lead final :: rest⟩ out = (storedBlock ⟨[], rest⟩ out).bind fun read =>
      if final then .ok read else blocks fuel read.2 read.1 := by
  obtain ⟨first, second, third⟩ := b.testBit_lead final
  let begun := [3, 4, 5, 6, 7].map (b.lead final).toNat.testBit
  have last : (⟨[], b.lead final :: rest⟩ : Bits).bit =
      .ok (final, ⟨false :: false :: begun, rest⟩) := by
    have read : (⟨[], b.lead final :: rest⟩ : Bits).bit = .ok ((b.lead final).toNat.testBit 0,
      ⟨(b.lead final).toNat.testBit 1 :: (b.lead final).toNat.testBit 2 :: begun, rest⟩) := rfl
    rw [read, first, second, third]
  have kind : (⟨false :: false :: begun, rest⟩ : Bits).number 2 = .ok (0, ⟨begun, rest⟩) := rfl
  rw [blocks, last]
  simp only [bind, Except.bind, kind, block]
  rfl

theorem blocks_bytes (final : Bool) (fuel : Nat) (rest : Bytes) (out : Output) :
    blocks (fuel + 1) ⟨[], b.bytes final ++ rest⟩ out =
      if final then .ok (out ++ b.data.toArray, ⟨[], rest⟩)
      else blocks fuel ⟨[], rest⟩ (out ++ b.data.toArray) := by
  rw [bytes, List.cons_append, blocks_lead, storedBlock_body]
  rfl

theorem blocks_nil (fuel : Nat) (out : Output) :
    blocks fuel ⟨[], []⟩ out = .error .truncated := by
  cases fuel <;> rfl

theorem blocks_cut {final : Bool} {cut rest : Bytes} (split : b.bytes final = cut ++ rest)
    (some : rest ≠ []) (fuel : Nat) (out : Output) :
    blocks fuel ⟨[], cut⟩ out = .error .truncated := by
  cases cut with
  | nil => exact blocks_nil fuel out
  | cons byte cut =>
    cases fuel with
    | zero => rfl
    | succ fuel =>
      obtain ⟨rfl, behind⟩ := List.cons.inj split
      rw [blocks_lead, b.storedBlock_cut behind some]
      rfl

end StoredBlock

/-! Reading a stream. -/

theorem inflate_of_blocks {bytes check : Bytes} {out : Output} {b done rest : Bits}
    (begun : header (.ofBytes bytes) = .ok b)
    (block : blocks (b.size + 1) b #[] = .ok (out, done))
    (four : done.aligned.take 4 = .ok (check, rest))
    (sum : bigEndian check = checkSum out.toList) : inflate bytes = .ok out.toList := by
  simp only [inflate, begun, bind, Except.bind, block, four]
  exact if_pos sum

theorem blocks_flatMap (last : StoredBlock) (rest : Bytes) {earlier : List StoredBlock} {fuel : Nat}
    (enough : earlier.length < fuel) (out : Output) :
    blocks fuel ⟨[], earlier.flatMap (·.bytes false) ++ (last.bytes true ++ rest)⟩ out =
      .ok (out ++ (earlier.flatMap StoredBlock.data ++ last.data).toArray, ⟨[], rest⟩) := by
  induction earlier generalizing fuel out with
  | nil =>
    obtain ⟨fuel, rfl⟩ := Nat.exists_eq_add_one.mpr enough
    exact last.blocks_bytes true fuel rest out
  | cons b earlier ih =>
    obtain ⟨fuel, rfl⟩ := Nat.exists_eq_add_one.mpr (Nat.lt_of_le_of_lt (Nat.zero_le _) enough)
    rw [List.flatMap_cons, List.append_assoc, b.blocks_bytes, if_neg Bool.false_ne_true,
      ih (Nat.lt_of_succ_lt_succ enough)]
    simp

theorem blocks_flatMap_cut (last : StoredBlock) {earlier : List StoredBlock} {cut rest : Bytes}
    (split : earlier.flatMap (·.bytes false) ++ last.bytes true = cut ++ rest) (some : rest ≠ [])
    (fuel : Nat) (out : Output) : blocks fuel ⟨[], cut⟩ out = .error .truncated := by
  induction earlier generalizing cut fuel out with
  | nil => exact last.blocks_cut split some fuel out
  | cons b earlier ih =>
    rw [List.flatMap_cons, List.append_assoc] at split
    rcases cut_cases split with ⟨t, more, within⟩ | ⟨c, rfl, behind⟩
    · exact b.blocks_cut within more fuel out
    · cases fuel with
      | zero => rfl
      | succ fuel =>
        rw [b.blocks_bytes, if_neg Bool.false_ne_true]
        exact ih behind fuel _

namespace StoredStream

variable (z : StoredStream)

theorem header_ofBytes (rest : Bytes) :
    header (.ofBytes (z.method :: z.flags :: rest)) = .ok ⟨[], rest⟩ := by
  have window : ¬ 7 < z.method.toNat / 16 := Nat.not_lt.mpr z.window
  simp [header, Bits.ofBytes, number_byte, bind, Except.bind, z.checked, z.deflated, window,
    z.plain]

theorem length_lt (rest : Bytes) :
    z.earlier.length < (⟨[], z.body ++ rest⟩ : Bits).size + 1 := by
  have each (earlier : List StoredBlock) :
      earlier.length ≤ (earlier.flatMap (·.bytes false)).length := by
    induction earlier with
    | nil => exact Nat.zero_le _
    | cons b earlier ih =>
      have lead : (b.bytes false).length = b.body.length + 1 := List.length_cons
      rw [List.flatMap_cons, List.length_append, List.length_cons, lead]
      omega
  have enough := each z.earlier
  simp only [Bits.size, body, List.length_append, List.length_nil]
  omega

theorem blocks_body {fuel : Nat} (enough : z.earlier.length < fuel) (rest : Bytes) (out : Output) :
    blocks fuel ⟨[], z.body ++ rest⟩ out = .ok (out ++ z.data.toArray, ⟨[], rest⟩) := by
  rw [body, List.append_assoc]
  exact blocks_flatMap z.last rest enough out

theorem inflate_bytes (trailing : Bytes) : inflate (z.bytes ++ trailing) = .ok z.data := by
  have read := inflate_of_blocks
    (z.header_ofBytes (z.body ++ (fourBytes (adler z.data) ++ trailing)))
    (z.blocks_body (z.length_lt _) (fourBytes (adler z.data) ++ trailing) #[])
    (take_data (fourBytes (adler z.data)) trailing)
    (by simp [bigEndian_fourBytes (adler_lt z.data), checkSum_eq_adler])
  simpa [bytes] using read

theorem inflate_cut {cut rest : Bytes} (split : z.bytes = cut ++ rest) (some : rest ≠ []) :
    inflate cut = .error .truncated := by
  rcases cut with _ | ⟨method, _ | ⟨flags, cut⟩⟩
  · rfl
  · have ended : header (.ofBytes [method]) = .error .truncated := by
      have second : (⟨[], []⟩ : Bits).number 8 = .error .truncated := rfl
      simp only [header, Bits.ofBytes, number_byte, second, bind, Except.bind]
    simp only [inflate, ended, bind, Except.bind]
  · obtain ⟨rfl, flagged⟩ := List.cons.inj split
    obtain ⟨rfl, behind⟩ := List.cons.inj flagged
    rcases cut_cases behind with ⟨t, more, within⟩ | ⟨c, rfl, within⟩
    · have ended (fuel : Nat) := blocks_flatMap_cut z.last within more fuel #[]
      simp only [inflate, header_ofBytes, ended, bind, Except.bind]
    · have read := z.blocks_body (z.length_lt c) c #[]
      have ended : (⟨[], c⟩ : Bits).aligned.take 4 = .error .truncated :=
        take_of_length_lt (length_lt_of_cut some within)
      simp only [inflate, header_ofBytes, read, ended, bind, Except.bind]

end StoredStream

theorem inflate_stored {data : Bytes} (short : data.length < 0x10000) :
    inflate (stored data) = .ok data := by
  have bytes : (StoredStream.single short).bytes = stored data := by
    simp [StoredStream.bytes, StoredStream.body, StoredStream.data, StoredStream.single,
      StoredBlock.bytes, StoredBlock.body, StoredBlock.lead, stored, checkSum_eq_adler]
  rw [← bytes, ← List.append_nil (StoredStream.bytes _)]
  exact (StoredStream.single short).inflate_bytes []

end Apidoc.Flate
