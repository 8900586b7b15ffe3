import Mathlib.Algebra.GroupWithZero.Nat
import Mathlib.Algebra.Group.Int.Defs
import Mathlib.Tactic.SplitIfs

/-!
# Checked 64-bit arithmetic

Amounts are `u64` values kept as natural numbers below `u64Size`. The checked operations of
the source return `none` outside that range, its plain ones reduce modulo `u64Size`.

## Main definitions

* `u64Size` — `2^64`.
* `checkedAdd`, `checkedSub`, `checkedMul` — the checked operations.
-/

namespace GemCore

/-- `u64::MAX + 1`. -/
def u64Size : ℕ := 2 ^ 64

/-- `u64::checked_add`. -/
def checkedAdd (a b : ℕ) : Option ℕ := if a + b < u64Size then some (a + b) else none

/-- `u64::checked_sub`. -/
def checkedSub (a b : ℕ) : Option ℕ := if b ≤ a then some (a - b) else none

/-- `u64::checked_mul`. -/
def checkedMul (a b : ℕ) : Option ℕ := if a * b < u64Size then some (a * b) else none

/-- A checked addition succeeds with the sum, which fits. -/
lemma checkedAdd_eq_some {a b c : ℕ} (h : checkedAdd a b = some c) :
    a + b = c ∧ c < u64Size := by
  unfold checkedAdd at h
  split_ifs at h with hlt
  obtain rfl := Option.some.inj h
  exact ⟨rfl, hlt⟩

/-- A checked subtraction succeeds with the difference, which adds back up. -/
lemma checkedSub_eq_some {a b c : ℕ} (h : checkedSub a b = some c) : a = b + c := by
  unfold checkedSub at h
  split_ifs at h with hle
  obtain rfl := Option.some.inj h
  omega

/-- Two checked subtractions in a row. -/
lemma checkedSub_bind_eq_some {a b c d : ℕ}
    (h : (checkedSub a b).bind (checkedSub · c) = some d) : a = b + c + d := by
  obtain ⟨r, hr, hd⟩ := Option.bind_eq_some_iff.mp h
  have h1 := checkedSub_eq_some hr
  have h2 := checkedSub_eq_some hd
  omega

/-- Two checked subtractions in a row fail when the sum is too large. -/
lemma checkedSub_bind_eq_none {a b c : ℕ}
    (h : (checkedSub a b).bind (checkedSub · c) = none) : a < b + c := by
  unfold checkedSub at h
  split_ifs at h with hle
  · simp at h
    omega
  · omega

end GemCore
