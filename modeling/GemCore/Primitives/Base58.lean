import GemCore.Lib.Bytes
import GemCore.Lib.Lists
import GemCore.Lib.Result
import Mathlib.Data.List.TakeWhile
import Mathlib.Data.Nat.Digits.Lemmas

/-!
# Base58 text with a checksum

The decoder of the `bs58` crate with the Bitcoin alphabet, its variant that checks and drops the
four bytes of a double SHA-256 at the end, and the encoder. The digits are those of one big number;
a leading `1` stands for a zero byte.

## Main definitions

* `decode` — `bs58::decode(..).into_vec()`.
* `decodeCheck` — `bs58::decode(..).with_check(None).into_vec()`.
* `encode` — `bs58::encode(..).into_string()`.

## Main results

* `le_length_of_decodeCheck` — a text with a high first digit is not the text of a short payload.
* `decode_spec` — how many bytes a text has.
* `decode_encode` — the text of a byte string is read back.
-/

namespace GemCore.Base58

open Lib

/-- `Alphabet::BITCOIN`. -/
def alphabet : List Char := "123456789ABCDEFGHJKLMNPQRSTUVWXYZabcdefghijkmnopqrstuvwxyz".toList

/-- The value of a base58 digit. -/
def digit (c : Char) : Option ℕ := alphabet.idxOf? c

/-- The number some digits denote, the first one the highest. -/
def ofDigits (digits : List ℕ) : ℕ := digits.foldl (fun acc d => acc * 58 + d) 0

/-- A number in as many bytes as it needs. -/
def minimalBytes (v : ℕ) : List UInt8 := if v = 0 then [] else beBytes (byteLength v) v

/-- `bs58::decode(..).into_vec()`: nothing when a character is no digit. -/
def decode (text : String) : Option (List UInt8) := do
  let digits ← text.toList.mapM digit
  some (List.replicate (text.toList.takeWhile (· = '1')).length 0 ++ minimalBytes (ofDigits digits))

/-- The length of the checksum. -/
def checksumLength : ℕ := 4

/-- `bs58::decode(..).with_check(None).into_vec()`: the last four bytes are the first four of the
double hash of the others. -/
def decodeCheck (sha256 : List UInt8 → List UInt8) (text : String) : Option (List UInt8) := do
  let bytes ← decode text
  if bytes.length < checksumLength then none
  else
    let payload := bytes.take (bytes.length - checksumLength)
    if bytes.drop (bytes.length - checksumLength) = (sha256 (sha256 payload)).take checksumLength then
      some payload
    else none

/-- The character of a base58 digit. -/
def digitChar (d : ℕ) : Char := alphabet.getD d '1'

/-- `bs58::encode(..).into_string()`: a `1` for each zero byte in front, and the digits of the
number. -/
def encode (bytes : List UInt8) : String :=
  String.ofList (List.replicate (bytes.takeWhile (· = 0)).length '1' ++
    (Nat.digits 58 (ofBe bytes)).reverse.map digitChar)

/-! ## Lengths -/

lemma foldl_ofDigits (digits : List ℕ) (acc : ℕ) :
    acc * 58 ^ digits.length ≤ digits.foldl (fun acc d => acc * 58 + d) acc := by
  induction digits generalizing acc with
  | nil => simp
  | cons d digits ih =>
    calc acc * 58 ^ (d :: digits).length
        = acc * 58 * 58 ^ digits.length := by
          rw [List.length_cons, pow_succ]
          ring
      _ ≤ (acc * 58 + d) * 58 ^ digits.length := Nat.mul_le_mul_right _ (Nat.le_add_right _ _)
      _ ≤ (d :: digits).foldl (fun acc d => acc * 58 + d) acc := ih _

/-- The first digit counts as often as its place says. -/
lemma le_ofDigits (d : ℕ) (digits : List ℕ) : d * 58 ^ digits.length ≤ ofDigits (d :: digits) := by
  rw [ofDigits, List.foldl_cons, Nat.zero_mul, Nat.zero_add]
  exact foldl_ofDigits digits d

/-- A number of at least `256 ^ n` takes more than `n` bytes. -/
lemma lt_length_minimalBytes {n v : ℕ} (h : 256 ^ n ≤ v) : n < (minimalBytes v).length := by
  have hpos : v ≠ 0 := by
    have : 0 < 256 ^ n := Nat.pow_pos (by norm_num)
    omega
  rw [minimalBytes, if_neg hpos, length_beBytes]
  exact (Nat.pow_lt_pow_iff_right (by norm_num)).mp (h.trans_lt (lt_pow_byteLength v))

/-- **A high first digit makes a long payload**: its place value bounds the number of bytes. -/
theorem le_length_of_decodeCheck {sha256 : List UInt8 → List UInt8} {c : Char} {rest : List Char}
    {payload : List UInt8} {d n : ℕ} (hd : digit c = some d) (hn : 256 ^ n ≤ d * 58 ^ rest.length)
    (h : decodeCheck sha256 (String.ofList (c :: rest)) = some payload) :
    n < payload.length + checksumLength := by
  obtain ⟨bytes, hbytes, h⟩ := Option.bind_eq_some_iff.mp h
  obtain ⟨digits, hdigits, hbytes⟩ := Option.bind_eq_some_iff.mp hbytes
  rw [String.toList_ofList, List.mapM_cons, hd] at hdigits
  change List.mapM digit rest >>= (fun others => some (d :: others)) = some digits at hdigits
  obtain ⟨others, hothers, hdigits⟩ := Option.bind_eq_some_iff.mp hdigits
  cases hdigits
  have hlen := length_of_mapM_eq_some hothers
  have hlong : n < bytes.length := by
    cases hbytes
    rw [List.length_append]
    refine (lt_length_minimalBytes (hn.trans ?_)).trans_le (Nat.le_add_left _ _)
    rw [← hlen]
    exact le_ofDigits d others
  split at h
  · cases h
  · dsimp only at h
    split at h
    · cases h
      rw [List.length_take]
      omega
    · cases h

/-! ## Digits -/

lemma digit_digitChar {d : ℕ} (h : d < 58) : digit (digitChar d) = some d := by
  revert d
  decide

lemma digitChar_eq_one_iff {d : ℕ} (h : d < 58) : digitChar d = '1' ↔ d = 0 := by
  revert d
  decide

lemma digit_spec {c : Char} {d : ℕ} (h : digit c = some d) : d < 58 ∧ digitChar d = c := by
  obtain ⟨hd, hc, -⟩ := List.idxOf?_eq_some_iff.mp h
  refine ⟨hd, ?_⟩
  rw [digitChar, List.getD_eq_getElem?_getD, List.getElem?_eq_getElem hd, hc]
  rfl

/-- The characters of digits are read back. -/
lemma mapM_digit_map {digits : List ℕ} (h : ∀ d ∈ digits, d < 58) :
    (digits.map digitChar).mapM digit = some digits := by
  induction digits with
  | nil => rfl
  | cons d digits ih =>
    rw [List.map_cons, List.mapM_cons, digit_digitChar (h d List.mem_cons_self),
      ih fun x hx => h x (List.mem_cons_of_mem d hx)]
    rfl

/-- Characters that are digits are the characters of their digits. -/
lemma eq_map_of_mapM_digit {chars : List Char} {digits : List ℕ}
    (h : chars.mapM digit = some digits) :
    chars = digits.map digitChar ∧ ∀ d ∈ digits, d < 58 := by
  induction chars generalizing digits with
  | nil =>
    cases h
    exact ⟨rfl, List.forall_mem_nil _⟩
  | cons c chars ih =>
    rw [List.mapM_cons] at h
    obtain ⟨d, hd, h⟩ := Option.bind_eq_some_iff.mp h
    obtain ⟨others, hothers, h⟩ := Option.bind_eq_some_iff.mp h
    obtain ⟨hlt, hchar⟩ := digit_spec hd
    obtain ⟨heq, hall⟩ := ih hothers
    cases h
    exact ⟨by rw [List.map_cons, hchar, heq], List.forall_mem_cons.mpr ⟨hlt, hall⟩⟩

/-- **What a text of digits is**: a zero byte for each zero in front, and the bytes of the number. -/
theorem decode_map_digitChar {digits : List ℕ} (h : ∀ d ∈ digits, d < 58) :
    decode (String.ofList (digits.map digitChar)) =
      some (List.replicate (digits.takeWhile (· = 0)).length 0 ++ minimalBytes (ofDigits digits)) := by
  have hones : ((digits.map digitChar).takeWhile (· = '1')).length =
      (digits.takeWhile (· = 0)).length := by
    rw [List.takeWhile_map, List.length_map]
    induction digits with
    | nil => rfl
    | cons d digits ih =>
      have hd := digitChar_eq_one_iff (h d List.mem_cons_self)
      have ih := ih fun x hx => h x (List.mem_cons_of_mem d hx)
      simp only [List.takeWhile_cons, Function.comp_apply, hd]
      split
      · rw [List.length_cons, List.length_cons, ih]
      · rfl
  rw [decode, String.toList_ofList, mapM_digit_map h, hones]
  rfl

lemma ofDigits_replicate_append (n : ℕ) (digits : List ℕ) :
    ofDigits (List.replicate n 0 ++ digits) = ofDigits digits := by
  induction n with
  | zero => rfl
  | succ n ih => exact ih

lemma ofDigits_reverse (digits : List ℕ) :
    ofDigits digits.reverse = Nat.ofDigits 58 digits :=
  foldl_reverse_eq_ofDigits 58 digits

/-! ## Round trip -/

/-- The bytes of a number, from the byte string without a zero in front. -/
lemma minimalBytes_ofBe {b : UInt8} (hb : b ≠ 0) (bytes : List UInt8) :
    minimalBytes (ofBe (b :: bytes)) = b :: bytes := by
  have hpos : 1 ≤ b.toNat := Nat.one_le_iff_ne_zero.mpr fun h => hb (UInt8.toNat_inj.mp h)
  have hlow : 256 ^ bytes.length ≤ ofBe (b :: bytes) := by
    rw [ofBe_cons]
    exact (Nat.le_mul_of_pos_left _ hpos).trans (Nat.le_add_right _ _)
  have hhigh := ofBe_lt (b :: bytes)
  have hne : ofBe (b :: bytes) ≠ 0 := by
    have : 0 < 256 ^ bytes.length := Nat.pow_pos (by norm_num)
    omega
  have hlength : byteLength (ofBe (b :: bytes)) = (b :: bytes).length := by
    have hbase : ∀ n, 256 ^ n = 2 ^ (8 * n) := fun n => (pow_mul 2 8 n).symm
    rw [hbase] at hlow hhigh
    have hle := (Nat.le_log2 hne).mpr hlow
    have hlt := (Nat.log2_lt hne).mpr hhigh
    rw [List.length_cons] at hlt ⊢
    rw [byteLength]
    omega
  rw [minimalBytes, if_neg hne, hlength, beBytes_ofBe]

/-- The digits of a number have no zero in front. -/
lemma takeWhile_digits (v : ℕ) : (Nat.digits 58 v).reverse.takeWhile (· = 0) = [] := by
  by_cases hv : v = 0
  · rw [hv, Nat.digits_zero]
    rfl
  · have hne : Nat.digits 58 v ≠ [] := Nat.digits_ne_nil_iff_ne_zero.mpr hv
    have hlast : ¬(Nat.digits 58 v).getLast hne = 0 := Nat.getLast_digit_ne_zero 58 hv
    rw [← List.dropLast_append_getLast hne, List.reverse_concat, List.takeWhile_cons_of_neg]
    simpa using hlast

/-- A byte string is its zeros in front and the bytes of its number. -/
lemma eq_replicate_append_minimalBytes (bytes : List UInt8) :
    bytes = List.replicate (bytes.takeWhile (· = 0)).length 0 ++ minimalBytes (ofBe bytes) := by
  induction bytes with
  | nil => rfl
  | cons b bytes ih =>
    by_cases hb : b = 0
    · rw [hb, List.takeWhile_cons_of_pos (by simp), List.length_cons, List.replicate_succ,
        List.cons_append]
      exact congrArg (0 :: ·) ih
    · rw [List.takeWhile_cons_of_neg (by simpa using hb), minimalBytes_ofBe hb]
      rfl

/-- **The text of a byte string is read back.** -/
theorem decode_encode (bytes : List UInt8) : decode (encode bytes) = some bytes := by
  have hdigits : ∀ d ∈ List.replicate (bytes.takeWhile (· = 0)).length 0 ++
      (Nat.digits 58 (ofBe bytes)).reverse, d < 58 := by
    intro d hd
    rcases List.mem_append.mp hd with hd | hd
    · rw [List.eq_of_mem_replicate hd]
      decide
    · exact Nat.digits_lt_base (by norm_num) (List.mem_reverse.mp hd)
  have hdecode := decode_map_digitChar hdigits
  rw [List.map_append, List.map_replicate, ofDigits_replicate_append, ofDigits_reverse,
    Nat.ofDigits_digits, List.takeWhile_append_of_pos (by simp), takeWhile_digits,
    List.append_nil, List.length_replicate, ← eq_replicate_append_minimalBytes bytes] at hdecode
  exact hdecode

/-- **How many bytes a text has**: as many zero bytes as it has a `1` in front, and behind them as
many bytes as the other digits need.

**Proof sketch.** The digit behind the `1`s is not zero, so that `m` digits are a number from
`58 ^ (m - 1)` on and below `58 ^ m`. -/
theorem decode_spec {text : String} {decoded : List UInt8} (h : decode text = some decoded) :
    ∃ k m tail, k + m = text.toList.length ∧ decoded = List.replicate k 0 ++ tail ∧
      (m = 0 → tail = []) ∧
      (0 < m → 58 ^ (m - 1) < 256 ^ tail.length ∧ 256 ^ (tail.length - 1) < 58 ^ m) := by
  obtain ⟨digits, hmap, hdecoded⟩ := Option.bind_eq_some_iff.mp h
  obtain ⟨hchars, hlt⟩ := eq_map_of_mapM_digit hmap
  have htext : text = String.ofList (digits.map digitChar) := by
    rw [← hchars, String.ofList_toList]
  rw [htext, decode_map_digitChar hlt] at h
  have hzeros : digits.takeWhile (· = 0) = List.replicate (digits.takeWhile (· = 0)).length 0 :=
    List.eq_replicate_of_mem fun d hd => by simpa using List.mem_takeWhile_imp hd
  have hsplit := @List.takeWhile_append_dropWhile _ (· = 0) digits
  have hvalue : ofDigits digits = ofDigits (digits.dropWhile (· = 0)) := by
    conv_lhs => rw [← hsplit, hzeros]
    exact ofDigits_replicate_append _ _
  refine ⟨(digits.takeWhile (· = 0)).length, (digits.dropWhile (· = 0)).length,
    minimalBytes (ofDigits digits), ?_, (Option.some.inj h).symm, ?_, ?_⟩
  · rw [hchars, List.length_map, ← List.length_append, hsplit]
  · intro hm
    rw [hvalue, List.length_eq_zero_iff.mp hm]
    rfl
  · intro hm
    have hall : ∀ d ∈ digits.dropWhile (· = 0), d < 58 := fun d hd =>
      hlt d ((List.dropWhile_sublist _).subset hd)
    have hhead := @List.head?_dropWhile_not _ (· = 0) digits
    rw [hvalue]
    generalize digits.dropWhile (· = 0) = rest at hm hall hhead ⊢
    cases rest with
    | nil => cases hm
    | cons d rest =>
      have hd : d ≠ 0 := by simpa using hhead
      have hlow : 58 ^ rest.length ≤ ofDigits (d :: rest) :=
        (Nat.le_mul_of_pos_left _ (Nat.pos_of_ne_zero hd)).trans (le_ofDigits d rest)
      have hhigh : ofDigits (d :: rest) < 58 ^ (d :: rest).length := by
        rw [← List.reverse_reverse (d :: rest), ofDigits_reverse, List.length_reverse]
        exact Nat.ofDigits_lt_base_pow_length (by norm_num) fun x hx =>
          hall x (List.mem_reverse.mp hx)
      have hne : ofDigits (d :: rest) ≠ 0 := by
        have : 0 < 58 ^ rest.length := Nat.pow_pos (by norm_num)
        omega
      have hpow : 256 ^ (byteLength (ofDigits (d :: rest)) - 1) ≤ ofDigits (d :: rest) := by
        have hbase : ∀ n, 256 ^ n = 2 ^ (8 * n) := fun n => (pow_mul 2 8 n).symm
        rw [hbase, ← Nat.le_log2 hne, byteLength]
        omega
      rw [minimalBytes, if_neg hne, length_beBytes]
      exact ⟨hlow.trans_lt (lt_pow_byteLength _), hpow.trans_lt hhigh⟩

end GemCore.Base58
