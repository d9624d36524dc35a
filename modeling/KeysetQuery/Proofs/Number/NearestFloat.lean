import Mathlib
import KeysetQuery.Number.Binary64

/-!
# The floating-point number next to an integer

* `isZeroFloat_ofBits` — bits that are not all zero, apart from the sign, are not those of zero;
* `nearestBits_pos` — the number nearest to a positive integer has such bits;
* `isZeroFloat_nearestFloat_ofInt` — only the integer zero is turned into zero.
-/

namespace KeysetQuery.Number

open Float.Model (Format)
open Float.Model.UnpackedFloat (isNaNBits packedNaN pack_unpack)

/-- The bits of a number that is made of bits: these, unless they are those of what is not a number,
which has bits of its own. -/
theorem toBits_ofBits (u : UInt64) : (Float.ofBits u).toBits =
    ⟨if @isNaNBits Format.binary64 u.toBitVec then packedNaN Format.binary64
      else u.toBitVec⟩ :=
  congrArg UInt64.ofBitVec (@pack_unpack Format.binary64 u.toBitVec (by decide))

/-- A number is zero only if all of its bits are, apart from the sign. -/
theorem isZeroFloat_of_toBits {x : Float} (h : x.toBits.toNat % 2 ^ 63 ≠ 0) :
    isZeroFloat x = false := by
  unfold isZeroFloat parts
  generalize x.toBits.toNat = bits at h
  simp only [Nat.pow_eq]
  by_cases hexponent : bits / 2 ^ 52 % 2 ^ 11 = 2047
  · rw [if_pos hexponent]
    split <;> rename_i hshape
    · split at hshape <;> exact absurd hshape (by simp)
    · rfl
  rw [if_neg hexponent]
  by_cases hsmall : bits / 2 ^ 52 % 2 ^ 11 = 0
  · have hmantissa : bits % 2 ^ 52 ≠ 0 := by omega
    rw [if_pos hsmall]
    exact beq_false_of_ne hmantissa
  · rw [if_neg hsmall]
    exact beq_false_of_ne (by omega)

/-- Bits that are not all zero, apart from the sign, are not those of zero. -/
theorem isZeroFloat_ofBits {u : UInt64} (h : u.toNat % 2 ^ 63 ≠ 0) :
    isZeroFloat (Float.ofBits u) = false := by
  apply isZeroFloat_of_toBits
  rw [toBits_ofBits]
  by_cases hnan : @isNaNBits Format.binary64 u.toBitVec = true
  · rw [if_pos hnan]
    decide
  · rw [if_neg hnan]
    exact h

theorem isZeroFloat_ofSignedBits {bits : ℕ} (hpos : 0 < bits) (hlt : bits < 2 ^ 63)
    (negative : Bool) : isZeroFloat (ofSignedBits negative bits) = false := by
  apply isZeroFloat_ofBits
  rw [UInt64.toNat_ofNat', Nat.pow_eq]
  cases negative
  · rw [if_neg Bool.false_ne_true]
    omega
  · rw [if_pos rfl]
    omega

/-- The number nearest to a positive integer has such bits. -/
theorem nearestBits_pos {n : ℕ} (hn : n ≠ 0) : 0 < nearestBits n 1 := by
  have hexponent : -53 ≤ mantissaExponent n 1 := by
    have hlog : Nat.log2 1 = 0 := by decide
    unfold mantissaExponent
    simp only [hlog]
    split <;> omega
  unfold nearestBits
  rw [if_neg hn]
  simp only [Nat.pow_eq]
  refine lt_min ?_ (by norm_num)
  have hsome : 0 < (mantissaExponent n 1 + 1074).toNat := by omega
  positivity

theorem nearestBits_lt (num den : ℕ) : nearestBits num den < 2 ^ 63 := by
  unfold nearestBits
  split
  · norm_num
  · exact lt_of_le_of_lt (min_le_right _ _) (by norm_num)

/-- Only the integer zero is turned into zero. -/
theorem isZeroFloat_nearestFloat_ofInt {i : ℤ} (hi : i ≠ 0) :
    isZeroFloat (nearestFloat (.ofInt i)) = false := by
  have hne : i.natAbs ≠ 0 := Int.natAbs_ne_zero.2 hi
  rw [Decimal.ofInt, nearestFloat, if_neg hne]
  split
  · exact isZeroFloat_ofSignedBits (by norm_num) (by norm_num) _
  · rw [if_neg (by unfold Decimal.adjusted; omega)]
    simp only [Int.toNat_zero, neg_zero, Nat.pow_eq, pow_zero, mul_one]
    exact isZeroFloat_ofSignedBits (nearestBits_pos hne) (nearestBits_lt _ _) _

end KeysetQuery.Number
