import Mathlib.Tactic.NormNum

/-!
# Numbers in base 128

Numbers as byte strings of seven bits a byte, least significant first, with the high bit set on
every byte but the last. A number has one shortest form and longer ones with zeros at the end.

## Main definitions

* `IsLeb128` — a byte string is a form of a number.
* `leb128` — the shortest form.

## Main results

* `isLeb128_leb128` — the shortest form is a form.
* `IsLeb128.append_inj` — where a form ends is determined by the bytes.
* `length_leb128_le` — the length of the shortest form.
-/

namespace Lib

/-- The byte string is a form of the number. -/
inductive IsLeb128 : List UInt8 → ℕ → Prop where
  | last (b : UInt8) (h : b.toNat < 128) : IsLeb128 [b] b.toNat
  | more (b : UInt8) (h : 128 ≤ b.toNat) {bytes : List UInt8} {n : ℕ} (hrest : IsLeb128 bytes n) :
    IsLeb128 (b :: bytes) (b.toNat % 128 + 128 * n)

/-- The shortest form of a number. -/
def leb128 (n : ℕ) : List UInt8 :=
  if n < 128 then [UInt8.ofNat n] else UInt8.ofNat (n % 128 + 128) :: leb128 (n / 128)
termination_by n
decreasing_by omega

variable {a b r s : List UInt8} {n m : ℕ}

lemma leb128_of_lt (h : n < 128) : leb128 n = [UInt8.ofNat n] := by
  rw [leb128, if_pos h]

lemma leb128_of_le (h : 128 ≤ n) :
    leb128 n = UInt8.ofNat (n % 128 + 128) :: leb128 (n / 128) := by
  rw [leb128, if_neg (by omega)]

/-- The shortest form is a form. -/
lemma isLeb128_leb128 (n : ℕ) : IsLeb128 (leb128 n) n := by
  induction n using Nat.strong_induction_on with
  | _ n ih =>
    by_cases h : n < 128
    · have hb : (UInt8.ofNat n).toNat = n := by
        rw [UInt8.toNat_ofNat']
        omega
      have hlast := IsLeb128.last (UInt8.ofNat n) (by omega)
      rw [hb] at hlast
      rw [leb128_of_lt h]
      exact hlast
    · have hb : (UInt8.ofNat (n % 128 + 128)).toNat = n % 128 + 128 := by
        rw [UInt8.toNat_ofNat']
        omega
      have hmore := IsLeb128.more (UInt8.ofNat (n % 128 + 128)) (by omega) (ih (n / 128) (by omega))
      rw [hb, show (n % 128 + 128) % 128 + 128 * (n / 128) = n by omega] at hmore
      rw [leb128_of_le (by omega)]
      exact hmore

lemma IsLeb128.length_pos (h : IsLeb128 a n) : 0 < a.length := by
  cases h <;> simp

/-- **Forms are self-delimiting**: the bytes determine where a form ends, and its number. -/
theorem IsLeb128.append_inj (ha : IsLeb128 a n) (hb : IsLeb128 b m) (h : a ++ r = b ++ s) :
    a = b ∧ n = m := by
  induction ha generalizing b m with
  | last c hc =>
    cases hb with
    | last d hd =>
      simp only [List.cons_append, List.cons.injEq] at h
      exact ⟨by rw [h.1], by rw [h.1]⟩
    | more d hd hrest =>
      simp only [List.cons_append, List.cons.injEq] at h
      have := congrArg UInt8.toNat h.1
      omega
  | more c hc hrest ih =>
    cases hb with
    | last d hd =>
      simp only [List.cons_append, List.cons.injEq] at h
      have := congrArg UInt8.toNat h.1
      omega
    | more d hd hrest' =>
      simp only [List.cons_append, List.cons.injEq] at h
      obtain ⟨rfl, h⟩ := h
      obtain ⟨rfl, rfl⟩ := ih hrest' h
      exact ⟨rfl, rfl⟩

/-- A number of `k + 1` groups of seven bits has a form of at most `k + 1` bytes. -/
theorem length_leb128_le (k : ℕ) (h : n < 128 ^ (k + 1)) : (leb128 n).length ≤ k + 1 := by
  induction k generalizing n with
  | zero =>
    rw [leb128_of_lt (by simpa using h)]
    simp
  | succ k ih =>
    by_cases hn : n < 128
    · rw [leb128_of_lt hn]
      simp
    · have hdiv : n / 128 < 128 ^ (k + 1) := by
        rw [Nat.div_lt_iff_lt_mul (by norm_num), ← pow_succ]
        exact h
      have := ih hdiv
      rw [leb128_of_le (by omega), List.length_cons]
      omega

end Lib
