import Apidoc.Flate.Inflate
import Mathlib.Algebra.Ring.Nat
import Mathlib.Data.List.Infix

/-!
The check sum of a stream, told by the starts of the data: the sum of all bytes, and the sum of the
sums of all starts.
-/
namespace Apidoc.Flate

def startSum (start : Bytes) : Nat := 1 + (start.map UInt8.toNat).sum

def startSums (data : Bytes) : Nat := (data.inits.tail.map startSum).sum

theorem startSum_append (data : Bytes) (byte : UInt8) :
    startSum (data ++ [byte]) = startSum data + byte.toNat := by
  simp [startSum, Nat.add_assoc]

theorem startSums_append (data : Bytes) (byte : UInt8) :
    startSums (data ++ [byte]) = startSums data + startSum (data ++ [byte]) := by
  have starts : (data ++ [byte]).inits.tail = data.inits.tail ++ [data ++ [byte]] := by
    rw [List.inits_append, List.tail_append_of_ne_nil (by cases data <;> simp)]
    rfl
  rw [startSums, starts, List.map_append, List.sum_append, List.map_singleton, List.sum_singleton]
  rfl

/-- Both sums modulo the largest prime number of two bytes, the second one in front. -/
def adler (data : Bytes) : Nat := startSums data % 65521 * 0x10000 + startSum data % 65521

theorem checkSum_eq_adler (data : Bytes) : checkSum data = adler data := by
  have sums : data.foldl (fun (sums : Nat × Nat) byte =>
      let low := (sums.1 + byte.toNat) % checkModulus
      (low, (sums.2 + low) % checkModulus)) (1, 0) =
        (startSum data % checkModulus, startSums data % checkModulus) := by
    induction data using List.reverseRecOn with
    | nil => rfl
    | append_singleton data byte ih =>
      have low : (startSum data % checkModulus + byte.toNat) % checkModulus =
          startSum (data ++ [byte]) % checkModulus := by
        rw [startSum_append, Nat.mod_add_mod]
      rw [List.foldl_append, ih, List.foldl_cons, List.foldl_nil]
      simp only [low]
      rw [startSums_append, Nat.mod_add_mod, Nat.add_mod_mod]
  simp only [checkSum, sums]
  rfl

theorem adler_lt (data : Bytes) : adler data < 0x100000000 := by
  unfold adler
  omega

end Apidoc.Flate
