import Mathlib.Algebra.Order.Ring.Nat
import Mathlib.Data.List.Induction

/-!
# Byte strings

Unsigned integers as big-endian byte strings of a fixed length, and the reader that takes a
fixed number of bytes from the front of an input.

## Main definitions

* `beBytes` — the `n` low bytes of a number, most significant first.
* `ofBe` — the number a big-endian byte string denotes.
* `leBytes`, `ofLe` — the same, least significant first.
* `byteLength` — how many bytes a number takes.
* `takeBytes` — split off the first `n` bytes, if there are as many.
* `FixedBytes` — byte strings of a given length.
* `PointerWidth` — the width of lengths and positions.

## Main results

* `ofBe_beBytes` — reading back what was written, modulo `256 ^ n`.
* `beBytes_ofBe` — writing again what was read.
* `takeBytes_append` — a reader of `n` bytes inverts writing `n` bytes.
* `fromUTF8?_eq_some_iff` — the bytes of a text.
-/

namespace Lib

/-- The `n` low bytes of `v`, most significant first. -/
def beBytes : ℕ → ℕ → List UInt8
  | 0, _ => []
  | n + 1, v => beBytes n (v / 256) ++ [UInt8.ofNat v]

/-- The number a big-endian byte string denotes. -/
def ofBe (bytes : List UInt8) : ℕ := bytes.foldl (fun acc b => acc * 256 + b.toNat) 0

@[simp] lemma length_beBytes (n v : ℕ) : (beBytes n v).length = n := by
  induction n generalizing v with
  | zero => rfl
  | succ n ih => simp [beBytes, ih]

/-- One more byte at the end multiplies by 256. -/
lemma ofBe_concat (bytes : List UInt8) (b : UInt8) :
    ofBe (bytes ++ [b]) = ofBe bytes * 256 + b.toNat := by
  simp [ofBe, List.foldl_append]

/-- One more byte in front adds its value at the top. -/
lemma ofBe_cons (b : UInt8) (bytes : List UInt8) :
    ofBe (b :: bytes) = b.toNat * 256 ^ bytes.length + ofBe bytes := by
  have hfold : ∀ (l : List UInt8) (acc : ℕ), l.foldl (fun acc b => acc * 256 + b.toNat) acc =
      acc * 256 ^ l.length + ofBe l := by
    intro l
    induction l with
    | nil => simp [ofBe]
    | cons x l ih =>
      intro acc
      have hzero : ofBe (x :: l) = x.toNat * 256 ^ l.length + ofBe l := by
        simpa [ofBe] using ih x.toNat
      rw [List.foldl_cons, ih, hzero, List.length_cons, pow_succ', add_mul, mul_assoc, add_assoc]
  simpa [ofBe] using hfold bytes b.toNat

/-- Writing a number in `n` bytes and reading it back keeps its value modulo `256 ^ n`. -/
theorem ofBe_beBytes (n v : ℕ) : ofBe (beBytes n v) = v % 256 ^ n := by
  induction n generalizing v with
  | zero => simp [beBytes, ofBe, Nat.mod_one]
  | succ n ih =>
    have hb : (UInt8.ofNat v).toNat = v % 256 := UInt8.toNat_ofNat'
    rw [beBytes, ofBe_concat, ih, hb, pow_succ', Nat.mod_mul]
    omega

/-- A number that fits `n` bytes is read back exactly. -/
lemma ofBe_beBytes_of_lt {n v : ℕ} (h : v < 256 ^ n) : ofBe (beBytes n v) = v := by
  rw [ofBe_beBytes, Nat.mod_eq_of_lt h]

lemma ofBe_lt (bytes : List UInt8) : ofBe bytes < 256 ^ bytes.length := by
  induction bytes with
  | nil => exact Nat.one_pos
  | cons b bytes ih =>
    have hb := b.toNat_lt
    rw [ofBe_cons, List.length_cons, pow_succ]
    calc b.toNat * 256 ^ bytes.length + ofBe bytes
        < b.toNat * 256 ^ bytes.length + 256 ^ bytes.length := Nat.add_lt_add_left ih _
      _ = (b.toNat + 1) * 256 ^ bytes.length := (Nat.succ_mul _ _).symm
      _ ≤ 256 * 256 ^ bytes.length := Nat.mul_le_mul_right _ (by omega)
      _ = 256 ^ bytes.length * 256 := Nat.mul_comm _ _

/-- A byte string is written again from the number it denotes. -/
lemma beBytes_ofBe (bytes : List UInt8) : beBytes bytes.length (ofBe bytes) = bytes := by
  induction bytes using List.reverseRecOn with
  | nil => rfl
  | append_singleton bytes b ih =>
    have hb := b.toNat_lt
    have hdiv : (ofBe bytes * 256 + b.toNat) / 256 = ofBe bytes := by omega
    have hbyte : UInt8.ofNat (ofBe bytes * 256 + b.toNat) = b := by
      apply UInt8.toNat_inj.mp
      rw [UInt8.toNat_ofNat']
      omega
    rw [List.length_append, List.length_singleton, ofBe_concat, beBytes, hdiv, ih, hbyte]

/-- The `n` low bytes of `v`, least significant first. -/
def leBytes (n v : ℕ) : List UInt8 := (beBytes n v).reverse

/-- The number a little-endian byte string denotes. -/
def ofLe (bytes : List UInt8) : ℕ := ofBe bytes.reverse

@[simp] lemma length_leBytes (n v : ℕ) : (leBytes n v).length = n := by
  simp [leBytes]

lemma ofLe_leBytes_of_lt {n v : ℕ} (h : v < 256 ^ n) : ofLe (leBytes n v) = v := by
  rw [ofLe, leBytes, List.reverse_reverse, ofBe_beBytes_of_lt h]

/-- The number of bytes it takes to write a number, at least one. -/
def byteLength (v : ℕ) : ℕ := v.log2 / 8 + 1

lemma lt_pow_byteLength (v : ℕ) : v < 256 ^ byteLength v := by
  have h : v < 2 ^ (v.log2 + 1) := Nat.lt_log2_self
  have hle : v.log2 + 1 ≤ 8 * byteLength v := by
    rw [byteLength]
    omega
  calc v < 2 ^ (v.log2 + 1) := h
    _ ≤ 2 ^ (8 * byteLength v) := Nat.pow_le_pow_right (by decide) hle
    _ = 256 ^ byteLength v := pow_mul 2 8 _

/-- Byte strings of length `n`: the arrays `[u8; n]`. -/
abbrev FixedBytes (n : ℕ) : Type := { bytes : List UInt8 // bytes.length = n }

/-- As many bytes, all of them zero. -/
def FixedBytes.zeros (n : ℕ) : FixedBytes n := ⟨List.replicate n 0, List.length_replicate⟩

@[simp] lemma FixedBytes.val_zeros (n : ℕ) : (zeros n).val = List.replicate n 0 := rfl

/-- Split off the first `n` bytes. -/
def takeBytes (n : ℕ) (bytes : List UInt8) : Option (List UInt8 × List UInt8) :=
  if n ≤ bytes.length then some (bytes.take n, bytes.drop n) else none

/-- A reader of `n` bytes returns the `n` bytes written in front and leaves the rest. -/
theorem takeBytes_append {n : ℕ} {bytes : List UInt8} (rest : List UInt8)
    (h : bytes.length = n) : takeBytes n (bytes ++ rest) = some (bytes, rest) := by
  subst h
  simp [takeBytes]

/-- A text is read from its own bytes and from no others. -/
lemma fromUTF8?_eq_some_iff {bytes : List UInt8} {s : String} :
    String.fromUTF8? ⟨bytes.toArray⟩ = some s ↔ s.toUTF8.data.toList = bytes := by
  constructor
  · intro h
    rw [String.fromUTF8?] at h
    split_ifs at h with hvalid
    rw [← Option.some.inj h]
    rfl
  · rintro rfl
    have hbytes : (⟨s.toUTF8.data.toList.toArray⟩ : ByteArray) = s.toUTF8 := by simp
    have hvalid : s.toUTF8.IsValidUTF8 := s.isValidUTF8
    rw [hbytes, String.fromUTF8?, dif_pos hvalid]
    rfl

/-- Text in ASCII has a byte for each character. -/
lemma toUTF8_ofList {chars : List Char} (h : ∀ c ∈ chars, c.toNat < 128) :
    (String.ofList chars).toUTF8.data.toList = chars.map fun c => UInt8.ofNat c.toNat := by
  have hdata : (String.ofList chars).toUTF8.data.toList = chars.flatMap String.utf8EncodeChar := by
    simp [String.toUTF8, String.ofList, List.utf8Encode]
  rw [hdata]
  clear hdata
  induction chars with
  | nil => rfl
  | cons c chars ih =>
    have hsize : c.utf8Size = 1 := Char.utf8Size_eq_one_iff.mpr <| UInt32.le_iff_toNat_le.mpr <|
      Nat.le_of_lt_succ (h c List.mem_cons_self)
    rw [List.flatMap_cons, List.map_cons, String.utf8EncodeChar_eq_singleton hsize,
      ih fun x hx => h x (List.mem_cons_of_mem c hx)]
    rfl

/-! ## Lengths -/

/-- The width of lengths and positions on a target. -/
inductive PointerWidth where
  | bits32
  | bits64

/-- The number of values of a `usize`. -/
def PointerWidth.usize : PointerWidth → ℕ
  | bits32 => 2 ^ 32
  | bits64 => 2 ^ 64

lemma PointerWidth.le_usize (width : PointerWidth) : 2 ^ 32 ≤ width.usize := by
  cases width <;> decide

lemma PointerWidth.usize_le (width : PointerWidth) : width.usize ≤ 2 ^ 64 := by
  cases width <;> decide

end Lib
