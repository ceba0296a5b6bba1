/-! # Byte strings, big-endian words and zero padding

A word is cut into bytes by powers of two. A power of a number is the one that comes with the numbers,
also where an algebra library that is imported beside has powers of its own. -/

attribute [instance (1100), default_instance (20000)] instPowNat

namespace MixRelay

abbrev Bytes := List UInt8

namespace Bytes

/-- The four big-endian bytes of `n` modulo `2 ^ 32`. -/
def ofWord (n : Nat) : Bytes :=
  [UInt8.ofNat (n / 2 ^ 24), UInt8.ofNat (n / 2 ^ 16), UInt8.ofNat (n / 2 ^ 8), UInt8.ofNat n]

/-- The big-endian value of a byte string of any length. -/
def toNat (bs : Bytes) : Nat := bs.foldl (fun n b => 256 * n + b.toNat) 0

/-- The first `n` bytes, followed by zeros where there are fewer. -/
def fit (n : Nat) (bs : Bytes) : Bytes := bs.take n ++ List.replicate (n - bs.length) 0

@[simp] theorem length_ofWord (n : Nat) : (ofWord n).length = 4 := rfl

theorem toNat_ofWord (n : Nat) : toNat (ofWord n) = n % 2 ^ 32 := by
  simp only [toNat, ofWord, List.foldl_cons, List.foldl_nil, UInt8.toNat_ofNat']
  omega

theorem toNat_ofWord_of_lt {n : Nat} (h : n < 2 ^ 32) : toNat (ofWord n) = n := by
  rw [toNat_ofWord, Nat.mod_eq_of_lt h]

@[simp] theorem length_fit (n : Nat) (bs : Bytes) : (fit n bs).length = n := by
  simp only [fit, List.length_append, List.length_take, List.length_replicate]
  omega

theorem fit_of_le {n : Nat} {bs : Bytes} (h : n ≤ bs.length) : fit n bs = bs.take n := by
  simp [fit, Nat.sub_eq_zero_of_le h]

/-- In front stand the bytes that there were. -/
theorem take_fit (n : Nat) (bs : Bytes) : (fit n bs).take (min bs.length n) = bs.take n := by
  rw [fit, List.take_append_of_le_length (by simp [Nat.min_comm]), List.take_take]
  rw [List.take_eq_take_iff]
  omega

/-- Behind them are zeros. -/
theorem drop_fit (n : Nat) (bs : Bytes) :
    (fit n bs).drop (min bs.length n) = List.replicate (n - min bs.length n) 0 := by
  have hlength : (bs.take n).length = min bs.length n := by rw [List.length_take, Nat.min_comm]
  rw [fit, ← hlength, List.drop_left, hlength]
  congr 1
  omega

end Bytes
end MixRelay
