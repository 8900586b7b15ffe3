import Mathlib.Tactic.Ring

/-!
# Constant-product pools

A pool with two reserves pays for an amount of the one as much of the other as keeps the product of
the reserves, rounded down.

## Main definitions

* `payout` — what a pool pays for an amount.

## Main results

* `mul_le_mul_payout` — the product does not shrink.
* `payout_lt` — a pool is not emptied.
* `payout_mono` — more is paid for more, and of more.
-/

namespace Lib

/-- What a pool pays for an amount. -/
def payout (reserveIn reserveOut amount : ℕ) : ℕ := reserveOut * amount / (reserveIn + amount)

variable {reserveIn reserveOut amount : ℕ}

lemma payout_zero (reserveIn reserveOut : ℕ) : payout reserveIn reserveOut 0 = 0 := by
  rw [payout, Nat.mul_zero, Nat.zero_div]

/-- A pool pays at most what it has. -/
lemma payout_le : payout reserveIn reserveOut amount ≤ reserveOut := by
  rcases Nat.eq_zero_or_pos (reserveIn + amount) with h | h
  · rw [payout, h, Nat.div_zero]
    exact Nat.zero_le _
  · rw [payout, Nat.div_le_iff_le_mul_add_pred h, Nat.mul_comm (reserveIn + amount)]
    exact (Nat.mul_le_mul_left _ (Nat.le_add_left _ _)).trans (Nat.le_add_right _ _)

/-- **A pool is not emptied**, if there is something on either side. -/
theorem payout_lt (hin : 0 < reserveIn) (hout : 0 < reserveOut) :
    payout reserveIn reserveOut amount < reserveOut := by
  rw [payout, Nat.div_lt_iff_lt_mul (Nat.add_pos_left hin _)]
  exact Nat.mul_lt_mul_of_pos_left (Nat.lt_add_of_pos_left hin) hout

/-- **The product does not shrink**, also if more is paid in than what is paid for.

**Proof sketch.** The quotient times its divisor is at most the dividend, so that what is left of the
one reserve times the other with the amount is at least the old product. -/
theorem mul_le_mul_payout {paid : ℕ} (h : amount ≤ paid) :
    reserveIn * reserveOut ≤ (reserveIn + paid) *
      (reserveOut - payout reserveIn reserveOut amount) := by
  have hdiv : payout reserveIn reserveOut amount * (reserveIn + amount) ≤ reserveOut * amount :=
    Nat.div_mul_le_self _ _
  have hle : payout reserveIn reserveOut amount ≤ reserveOut := payout_le
  generalize payout reserveIn reserveOut amount = out at hdiv hle ⊢
  obtain ⟨left, rfl⟩ := Nat.exists_eq_add_of_le hle
  have hkept : reserveIn * (out + left) ≤ (reserveIn + amount) * left := by
    have hsum : (reserveIn + amount) * left + out * (reserveIn + amount) =
        reserveIn * (out + left) + (out + left) * amount := by ring
    omega
  rw [Nat.add_sub_cancel_left]
  exact hkept.trans (Nat.mul_le_mul_right _ (Nat.add_le_add_left h _))

/-- **More is paid for more, and of more.** -/
theorem payout_mono {reserveOut' amount' : ℕ} (hout : reserveOut ≤ reserveOut')
    (hamount : amount ≤ amount') :
    payout reserveIn reserveOut amount ≤ payout reserveIn reserveOut' amount' := by
  rcases Nat.eq_zero_or_pos (reserveIn + amount) with h | h
  · rw [payout, h, Nat.div_zero]
    exact Nat.zero_le _
  · have h' : 0 < reserveIn + amount' := by omega
    have hdiv : payout reserveIn reserveOut amount * (reserveIn + amount) ≤
        reserveOut * amount := Nat.div_mul_le_self _ _
    rw [payout, payout, Nat.le_div_iff_mul_le h']
    change payout reserveIn reserveOut amount * (reserveIn + amount') ≤ reserveOut' * amount'
    obtain ⟨more, rfl⟩ := Nat.exists_eq_add_of_le hamount
    calc payout reserveIn reserveOut amount * (reserveIn + (amount + more))
        = payout reserveIn reserveOut amount * (reserveIn + amount) +
            payout reserveIn reserveOut amount * more := by ring
      _ ≤ reserveOut * amount + reserveOut * more :=
          Nat.add_le_add hdiv (Nat.mul_le_mul_right _ payout_le)
      _ = reserveOut * (amount + more) := (Nat.mul_add _ _ _).symm
      _ ≤ reserveOut' * (amount + more) := Nat.mul_le_mul_right _ hout

end Lib
