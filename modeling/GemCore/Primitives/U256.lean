import GemCore.Lib.Bytes
import Mathlib.Tactic.Linarith
import Mathlib.Tactic.Positivity

/-!
# 256-bit integers

Amounts on EVM chains are `U256` values, whose operators wrap. Where the source leaves that
range it goes through `BigInt` and the bytes of a number.

## Main definitions

* `U256` — 256-bit words with wrapping operators.
* `toBytesLe`, `toSignedBytesLe` — the bytes of a magnitude, and of a signed
  number in two's complement.
* `U256.fromLeSlice` — reading bytes; more than 32 do not fit.

## Main results

* `U256.toNat_fromLeSlice_signed` — a signed number survives exactly when it is not
  negative.
-/

namespace GemCore

open Lib

/-- `U256`. -/
abbrev U256 : Type := BitVec 256

/-- The bytes of `BigInt::to_bytes_le`: those of the magnitude. -/
def toBytesLe (v : ℕ) : List UInt8 := leBytes (byteLength v) v

/-- How many bytes the two's complement of a number takes. -/
def signedLength (v : ℤ) : ℕ :=
  if 0 ≤ v then byteLength (2 * v.toNat) else byteLength (2 * (-v - 1).toNat)

/-- `BigInt::to_signed_bytes_le`. -/
def toSignedBytesLe (v : ℤ) : List UInt8 :=
  leBytes (signedLength v) (v % 256 ^ signedLength v).toNat

/-- `U256::from_le_slice`; `none` where it panics. -/
def U256.fromLeSlice (bytes : List UInt8) : Option U256 :=
  if bytes.length ≤ 32 then some (BitVec.ofNat 256 (ofLe bytes)) else none

/-- Bytes of a number that are read as a word are read as that number. -/
lemma U256.toNat_fromLeSlice_leBytes {n v : ℕ} {word : U256} (hv : v < 256 ^ n)
    (h : U256.fromLeSlice (leBytes n v) = some word) : word.toNat = v := by
  rw [U256.fromLeSlice, length_leBytes] at h
  split at h
  · rename_i hn
    obtain rfl := Option.some.inj h
    rw [ofLe_leBytes_of_lt hv, BitVec.toNat_ofNat]
    apply Nat.mod_eq_of_lt
    calc v < 256 ^ n := hv
      _ ≤ 256 ^ 32 := Nat.pow_le_pow_right (by norm_num) hn
      _ = 2 ^ 256 := by norm_num
  · cases h

lemma U256.toNat_fromLeSlice_toBytesLe {v : ℕ} {word : U256}
    (h : U256.fromLeSlice (toBytesLe v) = some word) : word.toNat = v :=
  U256.toNat_fromLeSlice_leBytes (lt_pow_byteLength v) h

/-- The signed bytes of a number, read as a word, give the number back exactly when it is not
negative: a negative one comes out as its two's complement. -/
theorem U256.toNat_fromLeSlice_signed {v : ℤ} {word : U256}
    (h : U256.fromLeSlice (toSignedBytesLe v) = some word) : (word.toNat : ℤ) = v ↔ 0 ≤ v := by
  have hpos : (0 : ℤ) < 256 ^ signedLength v := by positivity
  have hnonneg := Int.emod_nonneg v hpos.ne'
  have hlt : (v % 256 ^ signedLength v).toNat < 256 ^ signedLength v := by
    zify
    rw [Int.toNat_of_nonneg hnonneg]
    exact Int.emod_lt_of_pos v hpos
  have hword : (word.toNat : ℤ) = v % 256 ^ signedLength v := by
    rw [U256.toNat_fromLeSlice_leBytes hlt h, Int.toNat_of_nonneg hnonneg]
  rw [hword]
  constructor
  · intro heq
    rw [← heq]
    exact hnonneg
  · intro hv
    apply Int.emod_eq_of_lt hv
    have hfits := lt_pow_byteLength (2 * v.toNat)
    rw [signedLength, if_pos hv]
    zify at hfits
    rw [Int.toNat_of_nonneg hv] at hfits
    linarith

end GemCore
