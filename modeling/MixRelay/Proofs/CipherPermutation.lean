import MixRelay.AesBlockCipher
import Mathlib.Data.List.Nodup
import Mathlib.Logic.Function.Basic

/-!
# Under one key no two blocks look the same

A round of the cipher is made of steps that can each be undone: shifting the rows four times changes
nothing, neither does mixing the columns four times, no two bytes have the same substitute, and a key is
taken off as it was put on. The round keys do not depend on the block. So the cipher is injective.
-/
namespace MixRelay

theorem Block.xor_injective (k : Block) : Function.Injective (Block.xor · k) :=
  Function.LeftInverse.injective (g := (Block.xor · k)) fun a => Block.xor_xor_cancel a k

namespace AES

section Bytes
variable (a b c : UInt8)

theorem xor_left_comm : a ^^^ (b ^^^ c) = b ^^^ (a ^^^ c) := by
  rw [← UInt8.xor_assoc, UInt8.xor_comm a b, UInt8.xor_assoc]

theorem xor_cancel_left : a ^^^ (a ^^^ b) = b := by
  rw [← UInt8.xor_assoc, UInt8.xor_self, UInt8.zero_xor]

theorem nodup_substitutionTable : substitutionTable.toList.Nodup := by
  have hvalues : (substitutionTable.toList.map UInt8.toNat).Nodup := by decide +kernel
  exact hvalues.of_map

theorem substitute_injective : Function.Injective substitute := by
  intro a b h
  have hsize : substitutionTable.toList.length = 256 := by decide +kernel
  have hentry (c : UInt8) (hc : c.toNat < substitutionTable.toList.length) :
      substitute c = substitutionTable.toList[c.toNat] := by
    simp only [Array.length_toList] at hc
    simp [substitute, hc]
  have ha : a.toNat < substitutionTable.toList.length := hsize.symm ▸ a.toNat_lt
  have hb : b.toNat < substitutionTable.toList.length := hsize.symm ▸ b.toNat_lt
  rw [hentry a ha, hentry b hb] at h
  exact UInt8.toNat_inj.1 (nodup_substitutionTable.getElem_inj_iff.1 h)

/-- Doubling is a shift, and where a bit falls out the polynomial is taken off. -/
theorem double_eq : double a = (a <<< 1) ^^^ if a < 0x80 then 0 else 0x1b := by
  unfold double
  split <;> simp

theorem lt_half_iff : a < 0x80 ↔ a.toBitVec.msb = false := by
  rw [BitVec.msb_eq_decide, decide_eq_false_iff_not, Nat.not_le]
  rfl

theorem shiftLeft_one_xor : (a ^^^ b) <<< 1 = (a <<< 1) ^^^ (b <<< 1) := by
  apply UInt8.toBitVec_inj.1
  simp [BitVec.shiftLeft_xor_distrib]

/-- Doubling is linear. -/
theorem double_xor : double (a ^^^ b) = double a ^^^ double b := by
  simp only [double_eq, lt_half_iff, UInt8.toBitVec_xor, BitVec.msb_xor, shiftLeft_one_xor]
  cases a.toBitVec.msb <;> cases b.toBitVec.msb <;>
    simp [UInt8.xor_assoc, UInt8.xor_comm, xor_left_comm]

end Bytes

section Steps
variable (s : Block) (i k : Nat)

/-- The byte so many rows below another one in its column, from the top again behind the last row. -/
def rowBelow : UInt8 := s[(4 * (i / 4) + (i + k) % 4) % 16]

theorem rowBelow_zero (h : i < 16) : rowBelow s i 0 = s[i] := by
  have hindex : (4 * (i / 4) + (i + 0) % 4) % 16 = i := by omega
  simp only [rowBelow, hindex]

theorem rowBelow_add_four : rowBelow s i (k + 4) = rowBelow s i k := by
  simp only [rowBelow, ← Nat.add_assoc, Nat.add_mod_right]

theorem rowBelow_mixColumns : rowBelow (mixColumns s) i k =
    double (rowBelow s i k) ^^^ double (rowBelow s i (k + 1)) ^^^ rowBelow s i (k + 1) ^^^
      rowBelow s i (k + 2) ^^^ rowBelow s i (k + 3) := by
  have hindex (m : Nat) :
      (4 * ((4 * (i / 4) + (i + k) % 4) % 16 / 4) + ((4 * (i / 4) + (i + k) % 4) % 16 + m) % 4) % 16 =
        (4 * (i / 4) + (i + (k + m)) % 4) % 16 := by
    omega
  have hself := hindex 0
  rw [Nat.add_zero, Nat.add_zero] at hself
  simp only [rowBelow, mixColumns, Vector.getElem_ofFn, hindex, hself, Nat.add_zero]

/-- The bytes of a column taken together, from a row on. -/
def columnSum : UInt8 :=
  rowBelow s i k ^^^ (rowBelow s i (k + 1) ^^^ (rowBelow s i (k + 2) ^^^ rowBelow s i (k + 3)))

/-- It does not matter from which row. -/
theorem columnSum_succ : columnSum s i (k + 1) = columnSum s i k := by
  simp only [columnSum, Nat.add_assoc, Nat.reduceAdd, rowBelow_add_four]
  rw [UInt8.xor_comm (rowBelow s i (k + 3)), xor_left_comm (rowBelow s i (k + 2)), xor_left_comm]

/-- A mixed byte is the old one with its column and the double of what it and the next one differ in. -/
theorem rowBelow_mixColumns_eq : rowBelow (mixColumns s) i k =
    rowBelow s i k ^^^ (columnSum s i k ^^^ double (rowBelow s i k ^^^ rowBelow s i (k + 1))) := by
  rw [rowBelow_mixColumns, columnSum, double_xor]
  simp only [UInt8.xor_assoc, UInt8.xor_comm, xor_left_comm, xor_cancel_left]

/-- Two rows that follow each other differ by the double of what rows two apart differ in. -/
theorem mixColumns_xor_next : rowBelow (mixColumns s) i k ^^^ rowBelow (mixColumns s) i (k + 1) =
    (rowBelow s i k ^^^ rowBelow s i (k + 1)) ^^^ double (rowBelow s i k ^^^ rowBelow s i (k + 2)) := by
  rw [rowBelow_mixColumns_eq, rowBelow_mixColumns_eq, columnSum_succ]
  simp only [double_xor, UInt8.xor_assoc, xor_left_comm, xor_cancel_left]

theorem columnSum_mixColumns : columnSum (mixColumns s) i k = columnSum s i k := by
  have hfirst := mixColumns_xor_next s i k
  have hsecond := mixColumns_xor_next s i (k + 2)
  simp only [Nat.add_assoc, Nat.reduceAdd, rowBelow_add_four] at hfirst hsecond
  rw [columnSum, ← UInt8.xor_assoc, hfirst, hsecond, columnSum]
  simp only [double_xor, UInt8.xor_assoc, UInt8.xor_comm, xor_left_comm, xor_cancel_left]

/-- A byte mixed twice is the old one with four times what rows two apart differ in. -/
theorem rowBelow_mixColumns_twice : rowBelow (mixColumns (mixColumns s)) i k =
    rowBelow s i k ^^^ double (double (rowBelow s i k ^^^ rowBelow s i (k + 2))) := by
  rw [rowBelow_mixColumns_eq, mixColumns_xor_next, columnSum_mixColumns, double_xor,
    rowBelow_mixColumns_eq]
  generalize double (rowBelow s i k ^^^ rowBelow s i (k + 1)) = change
  simp only [UInt8.xor_assoc, UInt8.xor_comm, xor_left_comm, xor_cancel_left]

theorem mixColumns_four : mixColumns (mixColumns (mixColumns (mixColumns s))) = s := by
  apply Vector.ext
  intro i h
  have hfour := rowBelow_add_four s i 0
  rw [← rowBelow_zero _ i h, ← rowBelow_zero s i h]
  simp only [rowBelow_mixColumns_twice, double_xor, Nat.zero_add, Nat.reduceAdd] at hfour ⊢
  rw [hfour]
  simp only [UInt8.xor_assoc, UInt8.xor_comm, xor_left_comm, xor_cancel_left, UInt8.xor_self,
    UInt8.zero_xor]

theorem mixColumns_injective : Function.Injective mixColumns :=
  Function.LeftInverse.injective (g := fun s => mixColumns (mixColumns (mixColumns s))) mixColumns_four

theorem getElem_shiftRows_twice (h : i < 16) :
    (shiftRows (shiftRows s))[i] = s[(i + 8 * (i % 4)) % 16] := by
  have hindex : ((i + 4 * (i % 4)) % 16 + 4 * ((i + 4 * (i % 4)) % 16 % 4)) % 16 =
      (i + 8 * (i % 4)) % 16 := by
    omega
  simp only [shiftRows, Vector.getElem_ofFn, hindex]

theorem shiftRows_four : shiftRows (shiftRows (shiftRows (shiftRows s))) = s := by
  apply Vector.ext
  intro i h
  have hindex : ((i + 8 * (i % 4)) % 16 + 8 * ((i + 8 * (i % 4)) % 16 % 4)) % 16 = i := by omega
  simp only [getElem_shiftRows_twice, hindex]

theorem shiftRows_injective : Function.Injective shiftRows :=
  Function.LeftInverse.injective (g := fun s => shiftRows (shiftRows (shiftRows s))) shiftRows_four

theorem map_substitute_injective : Function.Injective fun s : Block => s.map substitute := by
  intro a b h
  apply Vector.ext
  intro i hi
  have hbyte := congrArg (fun s : Block => s[i]) h
  simp only [Vector.getElem_map] at hbyte
  exact substitute_injective hbyte

end Steps

section Rounds
variable {a b : Block}

/-- After the same rounds with the same key the keys are the same, and the blocks are so only if they
were so before. -/
theorem foldl_round (constants : List UInt8) (a b key : Block) :
    (constants.foldl round (a, key)).2 = (constants.foldl round (b, key)).2 ∧
      ((constants.foldl round (a, key)).1 = (constants.foldl round (b, key)).1 → a = b) := by
  induction constants generalizing a b key with
  | nil => exact ⟨rfl, id⟩
  | cons constant constants ih =>
    obtain ⟨hkeys, hblocks⟩ := ih (round (a, key) constant).1 (round (b, key) constant).1
      (nextRoundKey key constant)
    refine ⟨hkeys, fun h => ?_⟩
    apply map_substitute_injective
    apply shiftRows_injective
    apply mixColumns_injective
    exact Block.xor_injective (nextRoundKey key constant) (hblocks h)

theorem encrypt_injective (key : Block) : Function.Injective (encrypt key) := by
  intro a b h
  obtain ⟨hkeys, hblocks⟩ := foldl_round roundConstants (Block.xor a key) (Block.xor b key) key
  apply Block.xor_injective key
  apply hblocks
  apply map_substitute_injective
  apply shiftRows_injective
  simp only [encrypt, hkeys] at h
  exact Block.xor_injective _ h

end Rounds
end AES
end MixRelay
