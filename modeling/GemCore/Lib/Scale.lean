import Mathlib.Tactic.NormNum
import Mathlib.Tactic.Ring
import GemCore.Lib.Bytes

/-!
# The SCALE codec

Compact integers of the SCALE codec and the mortality of Substrate transactions, as a reader takes
them from the front of an input. The two low bits of the first byte of a compact integer tell its
form: one, two or four bytes with the value in the other bits, or a number of bytes that follow.

## Main definitions

* `Scale.readCompact` — a compact integer.
* `Scale.Era`, `Scale.readEra` — the mortality of a transaction.
* `Scale.Era.birth` — the first block of the era a block is in.

## Main results

* `Scale.readCompact_one`, `readCompact_word`, `readCompact_many` — the three kinds of forms.
* `Scale.readCompact_bound` — how large a value a form has room for.
* `Scale.readEra_mortal` — the two bytes of a mortal era.
* `Scale.birth_eq_iff` — when a block is the first of its era.
-/

namespace Lib

/-! ## Little-endian bytes -/

/-- The first byte of a little-endian number is its lowest. -/
lemma leBytes_succ (n v : ℕ) : leBytes (n + 1) v = UInt8.ofNat v :: leBytes n (v / 256) := by
  simp [leBytes, beBytes]

lemma ofLe_lt (bytes : List UInt8) : ofLe bytes < 256 ^ bytes.length := by
  rw [← List.length_reverse]
  exact ofBe_lt bytes.reverse

/-- The low bytes of a number in more bytes. -/
lemma take_leBytes {n m : ℕ} (h : n ≤ m) (v : ℕ) : (leBytes m v).take n = leBytes n v := by
  induction n generalizing m v with
  | zero => rfl
  | succ n ih =>
    obtain ⟨m, rfl⟩ : ∃ k, m = k + 1 := ⟨m - 1, by omega⟩
    rw [leBytes_succ, leBytes_succ, List.take_succ_cons, ih (by omega)]

lemma beBytes_zero_dropWhile (n : ℕ) : (beBytes n 0).dropWhile (· = 0) = [] := by
  induction n with
  | zero => rfl
  | succ n ih =>
    rw [beBytes, Nat.zero_div, List.dropWhile_append, ih]
    rfl

/-- The bytes of a number from its first that is not zero. -/
lemma length_dropWhile_beBytes {n v : ℕ} (hv : v ≠ 0) (h : v < 256 ^ n) :
    256 ^ (((beBytes n v).dropWhile (· = 0)).length - 1) ≤ v ∧
      v < 256 ^ ((beBytes n v).dropWhile (· = 0)).length ∧
      ((beBytes n v).dropWhile (· = 0)).length ≤ n := by
  induction n generalizing v with
  | zero => omega
  | succ n ih =>
    have hbyte : (UInt8.ofNat v).toNat = v % 256 := UInt8.toNat_ofNat'
    rw [beBytes, List.dropWhile_append]
    by_cases hsmall : v / 256 = 0
    · have hne : UInt8.ofNat v ≠ 0 := by
        intro hzero
        rw [hzero] at hbyte
        have : (0 : UInt8).toNat = 0 := rfl
        omega
      rw [hsmall, beBytes_zero_dropWhile]
      simp only [List.isEmpty_nil, if_true]
      rw [List.dropWhile_cons_of_neg (by simpa using hne)]
      simp only [List.length_singleton]
      omega
    · have hlt : v / 256 < 256 ^ n := by
        rw [pow_succ] at h
        omega
      obtain ⟨hlow, hhigh, hle⟩ := ih hsmall hlt
      have hpos : 0 < ((beBytes n (v / 256)).dropWhile (· = 0)).length := by
        rcases Nat.eq_zero_or_pos ((beBytes n (v / 256)).dropWhile (· = 0)).length with h0 | h0
        · rw [h0, pow_zero] at hhigh
          omega
        · exact h0
      have hne : ((beBytes n (v / 256)).dropWhile (· = 0)).isEmpty = false := by
        rw [List.isEmpty_eq_false_iff]
        exact List.length_pos_iff.mp hpos
      simp only [hne, Bool.false_eq_true, if_false, List.length_append, List.length_singleton]
      refine ⟨?_, ?_, by omega⟩
      · have hexp : ((beBytes n (v / 256)).dropWhile (· = 0)).length + 1 - 1 =
            ((beBytes n (v / 256)).dropWhile (· = 0)).length - 1 + 1 := by omega
        rw [hexp, pow_succ]
        omega
      · rw [pow_succ]
        omega

namespace Scale

/-! ## Compact integers -/

/-- A compact integer: the two low bits of the first byte tell its form. -/
def readCompact : List UInt8 → Option (ℕ × List UInt8)
  | [] => none
  | b :: rest =>
    if b.toNat % 4 = 0 then some (b.toNat / 4, rest)
    else if b.toNat % 4 = 1 then
      (takeBytes 1 rest).map fun (bytes, rest) => (ofLe (b :: bytes) / 4, rest)
    else if b.toNat % 4 = 2 then
      (takeBytes 3 rest).map fun (bytes, rest) => (ofLe (b :: bytes) / 4, rest)
    else (takeBytes (b.toNat / 4 + 4) rest).map fun (bytes, rest) => (ofLe bytes, rest)

/-- A value of six bits. -/
lemma readCompact_one {v : ℕ} (h : v < 64) (rest : List UInt8) :
    readCompact (UInt8.ofNat (v * 4) :: rest) = some (v, rest) := by
  have hbyte : (UInt8.ofNat (v * 4)).toNat = v * 4 := by
    rw [UInt8.toNat_ofNat']
    exact Nat.mod_eq_of_lt (by norm_num; omega)
  rw [readCompact, hbyte, if_pos (by omega)]
  congr 2
  omega

/-- A value in the upper bits of a word of two or four bytes. -/
lemma readCompact_word {n mode v : ℕ} (hform : n = 1 ∧ mode = 1 ∨ n = 3 ∧ mode = 2)
    (h : v * 4 + mode < 256 ^ (n + 1)) (rest : List UInt8) :
    readCompact (leBytes (n + 1) (v * 4 + mode) ++ rest) = some (v, rest) := by
  have hbyte : (UInt8.ofNat (v * 4 + mode)).toNat = (v * 4 + mode) % 256 := UInt8.toNat_ofNat'
  have hword : ofLe (UInt8.ofNat (v * 4 + mode) :: leBytes n ((v * 4 + mode) / 256)) =
      v * 4 + mode := by
    rw [← leBytes_succ, ofLe_leBytes_of_lt h]
  have htake : takeBytes n (leBytes n ((v * 4 + mode) / 256) ++ rest) =
      some (leBytes n ((v * 4 + mode) / 256), rest) := takeBytes_append rest (length_leBytes _ _)
  rw [leBytes_succ, List.cons_append, readCompact]
  rcases hform with ⟨rfl, rfl⟩ | ⟨rfl, rfl⟩
  · rw [hbyte, if_neg (by omega), if_pos (by omega), htake]
    simp only [Option.map_some, hword]
    congr 2
    omega
  · rw [hbyte, if_neg (by omega), if_neg (by omega), if_pos (by omega), htake]
    simp only [Option.map_some, hword]
    congr 2
    omega

/-- A value in `n` bytes of its own. -/
lemma readCompact_many {n v : ℕ} (hn : 4 ≤ n) (hn' : n < 68) (h : v < 256 ^ n)
    (rest : List UInt8) :
    readCompact (UInt8.ofNat ((n - 4) * 4 + 3) :: leBytes n v ++ rest) = some (v, rest) := by
  have hbyte : (UInt8.ofNat ((n - 4) * 4 + 3)).toNat = (n - 4) * 4 + 3 := by
    rw [UInt8.toNat_ofNat']
    exact Nat.mod_eq_of_lt (by norm_num; omega)
  rw [List.cons_append, readCompact, hbyte, if_neg (by omega), if_neg (by omega), if_neg (by omega),
    show ((n - 4) * 4 + 3) / 4 + 4 = n by omega, takeBytes_append rest (length_leBytes _ _)]
  simp only [Option.map_some, ofLe_leBytes_of_lt h]

/-- **How large a value a form has room for**: with one, two or four bytes 6, 14 or 30 bits, and
with more bytes all but the first. -/
theorem readCompact_bound {bytes rest : List UInt8} {v : ℕ}
    (h : readCompact bytes = some (v, rest)) :
    ∃ n, bytes.length = n + rest.length ∧
      (n = 1 ∧ v < 2 ^ 6 ∨ n = 2 ∧ v < 2 ^ 14 ∨ n = 4 ∧ v < 2 ^ 30 ∨ 5 ≤ n ∧ v < 256 ^ (n - 1)) := by
  cases bytes with
  | nil => cases h
  | cons b tail =>
    have hb := b.toNat_lt
    have htake : ∀ {k : ℕ} {part rest : List UInt8}, takeBytes k tail = some (part, rest) →
        part.length = k ∧ tail.length = k + rest.length := by
      intro k part rest htaken
      unfold takeBytes at htaken
      split_ifs at htaken with hle
      obtain ⟨rfl, rfl⟩ := Prod.mk.inj (Option.some.inj htaken)
      rw [List.length_take, List.length_drop]
      omega
    have hword : ∀ {k : ℕ} {part rest : List UInt8}, takeBytes k tail = some (part, rest) →
        ofLe (b :: part) < 256 ^ (k + 1) := by
      intro k part rest htaken
      have hlt := ofLe_lt (b :: part)
      rwa [List.length_cons, (htake htaken).1] at hlt
    rw [readCompact] at h
    split_ifs at h
    · obtain ⟨rfl, rfl⟩ := Prod.mk.inj (Option.some.inj h)
      exact ⟨1, by rw [List.length_cons, Nat.add_comm], .inl ⟨rfl, by omega⟩⟩
    · obtain ⟨⟨part, rest'⟩, htaken, heq⟩ := Option.map_eq_some_iff.mp h
      obtain ⟨rfl, rfl⟩ := Prod.mk.inj heq
      obtain ⟨-, hlength⟩ := htake htaken
      have hlt := hword htaken
      exact ⟨2, by rw [List.length_cons, hlength]; omega, .inr (.inl ⟨rfl, by omega⟩)⟩
    · obtain ⟨⟨part, rest'⟩, htaken, heq⟩ := Option.map_eq_some_iff.mp h
      obtain ⟨rfl, rfl⟩ := Prod.mk.inj heq
      obtain ⟨-, hlength⟩ := htake htaken
      have hlt := hword htaken
      exact ⟨4, by rw [List.length_cons, hlength]; omega, .inr (.inr (.inl ⟨rfl, by omega⟩))⟩
    · obtain ⟨⟨part, rest'⟩, htaken, heq⟩ := Option.map_eq_some_iff.mp h
      obtain ⟨rfl, rfl⟩ := Prod.mk.inj heq
      obtain ⟨hpart, hlength⟩ := htake htaken
      have hlt := ofLe_lt part
      rw [hpart] at hlt
      exact ⟨b.toNat / 4 + 5, by rw [List.length_cons, hlength]; omega,
        .inr (.inr (.inr ⟨by omega, hlt⟩))⟩

/-! ## Eras -/

/-- The mortality of a transaction. -/
inductive Era where
  | immortal
  | mortal (period phase : ℕ)
  deriving DecidableEq

/-- A phase is kept in 12 bits, so that the phases of longer periods are multiples of this. -/
def quantizeFactor (period : ℕ) : ℕ := max (period >>> 12) 1

/-- The mortality at the front of an input. -/
def readEra : List UInt8 → Option (Era × List UInt8)
  | [] => none
  | first :: rest =>
    if first = 0 then some (.immortal, rest)
    else
      match rest with
      | [] => none
      | second :: rest =>
        let encoded := first.toNat + second.toNat * 256
        let period := 2 <<< (encoded % 16)
        let phase := (encoded >>> 4) * quantizeFactor period
        if 4 ≤ period ∧ phase < period then some (.mortal period phase, rest) else none

/-- The two bytes of a mortal era: the logarithm of its period in the four low bits, its phase in
units of the factor in the others. -/
theorem readEra_mortal {k m : ℕ} (hk : 1 ≤ k) (hk' : k ≤ 15) (hm : m < 4096)
    (hphase : m * quantizeFactor (2 <<< k) < 2 <<< k) (rest : List UInt8) :
    readEra (leBytes 2 (k + m * 16) ++ rest) =
      some (.mortal (2 <<< k) (m * quantizeFactor (2 <<< k)), rest) := by
  have hfirst : (UInt8.ofNat (k + m * 16)).toNat = (k + m * 16) % 256 := UInt8.toNat_ofNat'
  have hsecond : (UInt8.ofNat ((k + m * 16) / 256)).toNat = (k + m * 16) / 256 := by
    rw [UInt8.toNat_ofNat']
    exact Nat.mod_eq_of_lt (by norm_num; omega)
  have hne : UInt8.ofNat (k + m * 16) ≠ 0 := by
    intro hzero
    rw [hzero] at hfirst
    have : (0 : UInt8).toNat = 0 := rfl
    omega
  have hencoded : (k + m * 16) % 256 + (k + m * 16) / 256 * 256 = k + m * 16 := by omega
  have hlow : (k + m * 16) % 16 = k := by omega
  have hhigh : (k + m * 16) >>> 4 = m := by
    rw [Nat.shiftRight_eq_div_pow]
    omega
  have hperiod : 4 ≤ 2 <<< k := by
    rw [Nat.shiftLeft_eq]
    have := Nat.pow_le_pow_right (show 0 < 2 by decide) hk
    omega
  rw [leBytes_succ, leBytes_succ, List.cons_append, List.cons_append, readEra, if_neg hne]
  simp only [hfirst, hsecond, hencoded, hlow, hhigh]
  rw [if_pos ⟨hperiod, hphase⟩]
  rfl

/-- The first block of the era that `current` is in, whose hash is signed. -/
def Era.birth (era : Era) (current : ℕ) : ℕ :=
  match era with
  | .immortal => 0
  | .mortal period phase => (max current phase - phase) / period * period + phase

/-- **When a block is the first of its era**: with its own phase, rounded down to a multiple of the
factor, it is exactly if it is such a multiple itself. -/
theorem birth_eq_iff {factor m block : ℕ} (hfactor : 0 < factor) (hm : 0 < m) :
    (Era.mortal (factor * m) (block % (factor * m) / factor * factor)).birth block = block ↔
      factor ∣ block := by
  have hperiod : 0 < factor * m := Nat.mul_pos hfactor hm
  have hblock := Nat.div_add_mod block (factor * m)
  have hphase := Nat.div_mul_le_self (block % (factor * m)) factor
  have hrest := Nat.div_add_mod' (block % (factor * m)) factor
  have hmod : block % (factor * m) % factor = block % factor := Nat.mod_mul_right_mod _ _ _
  have hsmall : block % factor < factor := Nat.mod_lt _ hfactor
  have hle : factor ≤ factor * m := Nat.le_mul_of_pos_right _ hm
  have hstart : block - block % (factor * m) / factor * factor =
      block % factor + factor * m * (block / (factor * m)) := by omega
  have hdiv : (block % factor + factor * m * (block / (factor * m))) / (factor * m) =
      block / (factor * m) := by
    rw [Nat.add_mul_div_left _ _ hperiod, Nat.div_eq_of_lt (by omega), Nat.zero_add]
  have hmax : max block (block % (factor * m) / factor * factor) = block :=
    Nat.max_eq_left (by omega)
  rw [Era.birth, hmax, hstart, hdiv, Nat.mul_comm (block / (factor * m)), Nat.dvd_iff_mod_eq_zero]
  omega

end Scale

end Lib
