import Mathlib.Data.Nat.Digits.Lemmas
import GemCore.Lib.Bytes

/-!
# Base32

Byte strings as texts of letters of five bits, without padding: the bytes are one number, filled up
with zero bits to whole letters.

## Main definitions

* `encode` — the letters of a byte string.
* `decode` — the bytes of some letters. Bits that are left over have to be zero and to be less than
  a letter.

## Main results

* `encode_of_decode` — letters that are read are those of their bytes.
-/

namespace Lib.Base32

/-- The letters for 0 to 31. -/
def letter (d : ℕ) : UInt8 := if d < 26 then UInt8.ofNat (65 + d) else UInt8.ofNat (24 + d)

/-- The five bits of a letter. -/
def digit? (c : UInt8) : Option ℕ :=
  if 65 ≤ c.toNat ∧ c.toNat ≤ 90 then some (c.toNat - 65)
  else if 50 ≤ c.toNat ∧ c.toNat ≤ 55 then some (c.toNat - 24)
  else none

/-- The number of some digits, the highest first. -/
def value (digits : List ℕ) : ℕ := digits.foldl (fun acc d => acc * 32 + d) 0

/-- As many digits of a number as asked for, the highest first. -/
def digits : ℕ → ℕ → List ℕ
  | 0, _ => []
  | n + 1, v => digits n (v / 32) ++ [v % 32]

/-- The number of zero bits behind so many bytes. -/
def padBits (n : ℕ) : ℕ := (5 - 8 * n % 5) % 5

/-- The letters of a byte string. -/
def encode (bytes : List UInt8) : List UInt8 :=
  (digits ((8 * bytes.length + padBits bytes.length) / 5)
    (ofBe bytes * 2 ^ padBits bytes.length)).map letter

/-- The bytes of some letters. -/
def decode (text : List UInt8) : Option (List UInt8) := do
  let ds ← text.mapM digit?
  let spare := 5 * text.length % 8
  if 5 ≤ spare ∨ value ds % 2 ^ spare ≠ 0 then none
  else some (beBytes (5 * text.length / 8) (value ds / 2 ^ spare))

/-! ## Letters that are read -/

/-- A letter is that of its bits. -/
lemma letter_of_digit? {c : UInt8} {d : ℕ} (h : digit? c = some d) : letter d = c ∧ d < 32 := by
  rw [digit?] at h
  split at h
  case isTrue hupper =>
    obtain rfl := Option.some.inj h
    refine ⟨?_, by omega⟩
    rw [letter, if_pos (by omega), Nat.add_sub_cancel' hupper.1, UInt8.ofNat_toNat]
  case isFalse =>
    split at h
    case isTrue hnumber =>
      obtain rfl := Option.some.inj h
      refine ⟨?_, by omega⟩
      rw [letter, if_neg (by omega), Nat.add_sub_cancel' (by omega), UInt8.ofNat_toNat]
    case isFalse => cases h

lemma value_concat (ds : List ℕ) (d : ℕ) : value (ds ++ [d]) = value ds * 32 + d := by
  rw [value, value, List.foldl_append]
  rfl

lemma value_lt {ds : List ℕ} (h : ∀ d ∈ ds, d < 32) : value ds < 32 ^ ds.length := by
  induction ds using List.reverseRecOn with
  | nil => exact Nat.one_pos
  | append_singleton ds d ih =>
    have hlt := ih fun x hx => h x (List.mem_append_left _ hx)
    have hd := h d (List.mem_append_right _ List.mem_cons_self)
    rw [value_concat, List.length_append, List.length_singleton, pow_succ]
    omega

/-- The digits of a number are those it is made of. -/
lemma digits_value {ds : List ℕ} (h : ∀ d ∈ ds, d < 32) : digits ds.length (value ds) = ds := by
  induction ds using List.reverseRecOn with
  | nil => rfl
  | append_singleton ds d ih =>
    have hd := h d (List.mem_append_right _ List.mem_cons_self)
    have hdiv : (value ds * 32 + d) / 32 = value ds := by omega
    have hmod : (value ds * 32 + d) % 32 = d := by omega
    rw [value_concat, List.length_append, List.length_singleton, digits, hdiv, hmod,
      ih fun x hx => h x (List.mem_append_left _ hx)]

lemma map_letter_of_mapM {text : List UInt8} {ds : List ℕ} (h : text.mapM digit? = some ds) :
    ds.map letter = text ∧ ds.length = text.length ∧ ∀ d ∈ ds, d < 32 := by
  induction text generalizing ds with
  | nil =>
    obtain rfl : [] = ds := Option.some.inj h
    exact ⟨rfl, rfl, fun _ hd => nomatch hd⟩
  | cons c text ih =>
    rw [List.mapM_cons] at h
    obtain ⟨d, hd, h⟩ := Option.bind_eq_some_iff.mp h
    obtain ⟨rest, hrest, h⟩ := Option.bind_eq_some_iff.mp h
    obtain rfl : d :: rest = ds := Option.some.inj h
    obtain ⟨hletter, hlt⟩ := letter_of_digit? hd
    obtain ⟨htext, hlength, hrange⟩ := ih hrest
    exact ⟨by rw [List.map_cons, hletter, htext], by rw [List.length_cons, List.length_cons, hlength],
      List.forall_mem_cons.mpr ⟨hlt, hrange⟩⟩

/-- **Letters that are read are those of their bytes.**

**Proof sketch.** The bits that are left over are the zero bits `encode` adds, so that both have one
number, and a number has one list of digits of a length. -/
theorem encode_of_decode {text bytes : List UInt8} (h : decode text = some bytes) :
    encode bytes = text := by
  obtain ⟨ds, hds, h⟩ := Option.bind_eq_some_iff.mp h
  obtain ⟨htext, hlength, hrange⟩ := map_letter_of_mapM hds
  have hlt := value_lt hrange
  dsimp only at h
  generalize hspare : 5 * text.length % 8 = spare at h
  generalize hn : 5 * text.length / 8 = n at h
  split at h
  case isTrue => cases h
  case isFalse hzero =>
    obtain ⟨hless, hzero⟩ := not_or.mp hzero
    obtain rfl := Option.some.inj h
    have hbits : 5 * text.length = 8 * n + spare := by omega
    have hpad : padBits n = spare := by
      rw [padBits]
      omega
    have hletters : (8 * n + spare) / 5 = text.length := by omega
    have hbytes : value ds / 2 ^ spare < 256 ^ n := by
      rw [Nat.div_lt_iff_lt_mul (Nat.two_pow_pos _), show (256 : ℕ) = 2 ^ 8 from rfl, ← pow_mul,
        ← pow_add, ← hbits, pow_mul, ← hlength]
      exact hlt
    rw [encode, length_beBytes, hpad, hletters, ofBe_beBytes_of_lt hbytes,
      Nat.div_mul_cancel (Nat.dvd_of_mod_eq_zero (not_not.mp hzero)), ← hlength, digits_value hrange,
      htext]

end Lib.Base32
