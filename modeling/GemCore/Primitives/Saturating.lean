import Mathlib.Algebra.GroupWithZero.Nat
import Mathlib.Algebra.Group.Int.Defs
import Mathlib.Tactic.SplitIfs

/-!
# Saturating arithmetic

The operations on 64-bit integers that stop at the ends of the range, as numbers.

## Main definitions

* `saturatingAdd`, `saturatingSub`, `minU64` — the operations.

## Main results

* `toNat_saturatingAdd`, `toNat_saturatingSub`, `toNat_minU64` — what they are.
-/

namespace GemCore

/-- `u64::saturating_add`. -/
def saturatingAdd (a b : UInt64) : UInt64 := if a ≤ a + b then a + b else 18446744073709551615

/-- `u64::saturating_sub`. -/
def saturatingSub (a b : UInt64) : UInt64 := if b ≤ a then a - b else 0

/-- `u64::min`. -/
def minU64 (a b : UInt64) : UInt64 := if a ≤ b then a else b

lemma toNat_saturatingAdd (a b : UInt64) :
    (saturatingAdd a b).toNat = min (a.toNat + b.toNat) (2 ^ 64 - 1) := by
  have ha := a.toNat_lt
  have hb := b.toNat_lt
  rw [saturatingAdd]
  split_ifs with h
  · rw [UInt64.le_iff_toNat_le, UInt64.toNat_add] at h
    rw [UInt64.toNat_add]
    omega
  · rw [UInt64.le_iff_toNat_le, UInt64.toNat_add] at h
    have hmax : (18446744073709551615 : UInt64).toNat = 18446744073709551615 := rfl
    omega

lemma toNat_saturatingSub (a b : UInt64) : (saturatingSub a b).toNat = a.toNat - b.toNat := by
  rw [saturatingSub]
  split_ifs with h
  · exact UInt64.toNat_sub_of_le _ _ h
  · rw [UInt64.le_iff_toNat_le] at h
    rw [UInt64.toNat_zero]
    omega

lemma toNat_minU64 (a b : UInt64) : (minU64 a b).toNat = min a.toNat b.toNat := by
  rw [minU64]
  split_ifs with h
  · rw [UInt64.le_iff_toNat_le] at h
    omega
  · rw [UInt64.le_iff_toNat_le] at h
    omega

end GemCore
