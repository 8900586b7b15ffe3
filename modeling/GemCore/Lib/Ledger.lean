import Mathlib.Algebra.GroupWithZero.Nat
import Mathlib.Algebra.Group.Int.Defs
import Mathlib.Algebra.Group.Pi.Basic

/-!
# Ledgers

Who holds how much of what, for any kind of asset and any kind of account. Ledgers add up
entry by entry, so what a sequence of movements does is an equation between sums: the ledger
after them plus what was taken is the ledger before them plus what was given.

## Main definitions

* `Ledger` — the holdings.
* `Ledger.only` — the ledger with one entry.
* `Ledger.debit` — take out, if it is there.

## Main results

* `Ledger.debit_eq_some` — what was taken and what is left add up to what was there.
* `Ledger.only_add` — entries of one account add up.
-/

namespace Lib

/-- The amount of each asset each account holds. -/
abbrev Ledger (α ι : Type) : Type := α → ι → ℕ

namespace Ledger

variable {α ι : Type} [DecidableEq α] [DecidableEq ι]

/-- One entry. -/
def only (a : α) (i : ι) (n : ℕ) : Ledger α ι := fun b j => if b = a ∧ j = i then n else 0

/-- Take money out, if it is there. -/
def debit (l : Ledger α ι) (a : α) (i : ι) (n : ℕ) : Option (Ledger α ι) :=
  if n ≤ l a i then some (l - only a i n) else none

@[simp] lemma only_self (a : α) (i : ι) (n : ℕ) : only a i n a i = n :=
  if_pos ⟨rfl, rfl⟩

lemma only_of_account_ne {a b : α} {i j : ι} {n : ℕ} (h : j ≠ i) : only a i n b j = 0 :=
  if_neg fun h' => h h'.2

lemma only_of_asset_ne {a b : α} {i j : ι} {n : ℕ} (h : b ≠ a) : only a i n b j = 0 :=
  if_neg fun h' => h h'.1

@[simp] lemma only_zero (a : α) (i : ι) : only a i 0 = 0 := by
  funext b j
  exact ite_self 0

lemma only_add (a : α) (i : ι) (n m : ℕ) : only a i n + only a i m = only a i (n + m) := by
  funext b j
  simp only [only, Pi.add_apply]
  split <;> rfl

/-- **Taking out**: the part that was taken and the rest are the whole. -/
theorem debit_eq_some {l : Ledger α ι} {a : α} {i : ι} {n : ℕ} (h : n ≤ l a i) :
    ∃ l', l.debit a i n = some l' ∧ l' + only a i n = l := by
  refine ⟨_, if_pos h, ?_⟩
  funext b j
  simp only [Pi.add_apply, Pi.sub_apply, only]
  split
  · rename_i hb
    obtain ⟨rfl, rfl⟩ := hb
    omega
  · omega

end Ledger

end Lib
