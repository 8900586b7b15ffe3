import GemCore.Signer.Decode

/-!
# The texts of a private key

The texts that denote a private key on a chain, by the encoders of their forms, and the import that
reads each of them as that key. The digits of hex and base58 overlap, but their lengths do not: the
hex text of 32 bytes has so many digits that it is base58 text of at least 46 bytes, and of 64 bytes
only if all but its last three digits are `1`. Such a text would be the keypair of the zero seed,
whose public key is another one.

## Main definitions

* `strKey` — the text of a Stellar secret seed.
* `Denotes` — the texts of a key on a chain.

## Main results

* `decodeBase58_eq_none_of_hex` — the hex text of a key is no base58 key.
* `decodeStellarStrkey_strKey` — the text of a secret seed is read back.
* `privateKey_round_trip` — every text of a key is read as that key.
-/

namespace GemCore.Signer

open Lib

open Keystore (encodeHex)

/-! ## Hex -/

/-- Hex digits come in pairs. -/
lemma decodeHexPairs_spec {digits : List Char} {bytes : List UInt8}
    (h : decodeHexPairs digits = some bytes) :
    digits.length = 2 * bytes.length ∧ ∀ c ∈ digits, (hexDigit c).isSome := by
  induction digits using decodeHexPairs.induct generalizing bytes with
  | case1 =>
    cases h
    exact ⟨rfl, List.forall_mem_nil _⟩
  | case2 c => cases h
  | case3 high low rest ih =>
    rw [decodeHexPairs] at h
    obtain ⟨hi, hhigh, h⟩ := Option.bind_eq_some_iff.mp h
    obtain ⟨lo, hlow, h⟩ := Option.bind_eq_some_iff.mp h
    obtain ⟨tail, htail, h⟩ := Option.bind_eq_some_iff.mp h
    obtain ⟨hlength, hall⟩ := ih htail
    cases h
    rw [List.length_cons, List.length_cons, List.length_cons, hlength]
    refine ⟨by omega, List.forall_mem_cons.mpr ⟨?_, List.forall_mem_cons.mpr ⟨?_, hall⟩⟩⟩
    · rw [hhigh]
      rfl
    · rw [hlow]
      rfl

/-- A hex digit is no white space and not the letter of the mark. -/
lemma hexDigit_spec {c : Char} (h : (hexDigit c).isSome) : isWhitespace c = false ∧ c ≠ 'x' := by
  have hrange : 48 ≤ c.toNat ∧ c.toNat ≤ 102 := by
    unfold hexDigit at h
    split_ifs at h with h1 h2 h3 <;>
      simp only [Char.le_def, UInt32.le_iff_toNat_le] at *
    · change 48 ≤ c.toNat ∧ c.toNat ≤ 57 at h1
      omega
    · change 97 ≤ c.toNat ∧ c.toNat ≤ 102 at h2
      omega
    · change 65 ≤ c.toNat ∧ c.toNat ≤ 70 at h3
      omega
    · cases h
  refine ⟨?_, ?_⟩
  · simp only [isWhitespace, Bool.or_eq_false_iff, Bool.and_eq_false_iff, decide_eq_false_iff_not,
      beq_eq_false_iff_ne]
    omega
  · rintro rfl
    exact absurd hrange.2 (by decide)

/-- The hex text of a byte string is read back, with the mark or without. -/
lemma decodeHex_ofList {digits : List Char} {bytes : List UInt8}
    (h : decodeHexPairs digits = some bytes) :
    decodeHex (String.ofList digits) = some bytes ∧
      decodeHex (String.ofList ('0' :: 'x' :: digits)) = some bytes := by
  obtain ⟨hlength, hall⟩ := decodeHexPairs_spec h
  have hstripped : (if digits = [] then some []
      else decodeHexPairs (if digits.length % 2 = 1 then '0' :: digits else digits)) =
        some bytes := by
    rw [if_neg (show ¬digits.length % 2 = 1 by omega)]
    split_ifs with hnil
    · rw [hnil] at h
      exact h
    · exact h
  have htrim : trim digits = digits := Serde.trim_of_forall fun c hc => (hexDigit_spec (hall c hc)).1
  have htrim' : trim ('0' :: 'x' :: digits) = '0' :: 'x' :: digits := by
    refine Serde.trim_of_forall fun c hc => ?_
    rcases List.mem_cons.mp hc with rfl | hc
    · decide
    · rcases List.mem_cons.mp hc with rfl | hc
      · decide
      · exact (hexDigit_spec (hall c hc)).1
  have hmark : dropHexMark digits = digits :=
    Serde.dropHexMark_of_forall fun c hc => (hexDigit_spec (hall c hc)).2
  refine ⟨?_, ?_⟩
  · rw [decodeHex, String.toList_ofList, htrim, hmark]
    exact hstripped
  · rw [decodeHex, String.toList_ofList, htrim']
    exact hstripped

/-- What `decode_hex` reads of a text. -/
lemma decodeHex_spec {text : String} {bytes : List UInt8} (h : decodeHex text = some bytes)
    (hne : bytes ≠ []) :
    ∀ c ∈ dropHexMark (trim text.toList), (hexDigit c).isSome := by
  rw [decodeHex] at h
  split_ifs at h with hnil hodd
  · exact absurd (Option.some.inj h).symm hne
  · exact fun c hc => (decodeHexPairs_spec h).2 c (List.mem_cons_of_mem '0' hc)
  · exact (decodeHexPairs_spec h).2

/-- Trimming drops white space only. -/
lemma mem_trim {text : List Char} {c : Char} (hc : c ∈ text) (hspace : isWhitespace c = false) :
    c ∈ trim text := by
  have hdrop : ∀ l : List Char, c ∈ l → c ∈ l.dropWhile isWhitespace := by
    intro l hl
    rw [← @List.takeWhile_append_dropWhile _ isWhitespace l] at hl
    rcases List.mem_append.mp hl with hl | hl
    · rw [List.mem_takeWhile_imp hl] at hspace
      cases hspace
    · exact hl
  rw [trim, List.mem_reverse]
  exact hdrop _ (List.mem_reverse.mpr (hdrop _ hc))

/-- A character that is neither a hex digit nor white space nor the letter of the mark is not in a
hex text. -/
theorem not_mem_of_decodeHex {text : String} {bytes : List UInt8} (h : decodeHex text = some bytes)
    (hne : bytes ≠ []) {c : Char} (hdigit : hexDigit c = none) (hspace : isWhitespace c = false)
    (hmark : c ≠ 'x') : c ∉ text.toList := by
  intro hc
  have htrim := mem_trim hc hspace
  have hall := decodeHex_spec h hne
  have hstripped : c ∈ dropHexMark (trim text.toList) := by
    generalize trim text.toList = chars at htrim
    unfold dropHexMark
    split
    · rcases List.mem_cons.mp htrim with rfl | htrim
      · exact absurd hdigit (by decide)
      · rcases List.mem_cons.mp htrim with rfl | htrim
        · exact absurd rfl hmark
        · exact htrim
    · exact htrim
  have := hall c hstripped
  rw [hdigit] at this
  cases this

/-! ## Hex and base58 -/

/-- A base58 text that is hex text of 32 bytes has 63 or 64 characters. -/
lemma length_of_hex_of_base58 {text : String} {key decoded : List UInt8}
    (hhex : decodeHex text = some key) (hlength : key.length = 32)
    (hbase : Base58.decode text = some decoded) :
    text.toList.length = 63 ∨ text.toList.length = 64 := by
  obtain ⟨digits, hmap, -⟩ := Option.bind_eq_some_iff.mp hbase
  obtain ⟨hchars, hlt⟩ := Base58.eq_map_of_mapM_digit hmap
  have hchar : ∀ d < 58, isWhitespace (Base58.digitChar d) = false ∧ Base58.digitChar d ≠ '0' := by
    decide +kernel
  have hall : ∀ c ∈ text.toList, isWhitespace c = false ∧ c ≠ '0' := by
    intro c hc
    rw [hchars] at hc
    obtain ⟨d, hd, rfl⟩ := List.mem_map.mp hc
    exact hchar d (hlt d hd)
  have htrim : trim text.toList = text.toList := Serde.trim_of_forall fun c hc => (hall c hc).1
  have hmark : dropHexMark text.toList = text.toList := by
    generalize text.toList = chars at hall
    unfold dropHexMark
    split
    · exact absurd rfl (hall '0' List.mem_cons_self).2
    · rfl
  rw [decodeHex, htrim, hmark] at hhex
  split_ifs at hhex with hnil hodd
  · rw [← Option.some.inj hhex] at hlength
    cases hlength
  · have := (decodeHexPairs_spec hhex).1
    rw [List.length_cons] at this
    omega
  · have := (decodeHexPairs_spec hhex).1
    omega

/-- **What base58 makes of the hex text of 32 bytes**: no 32 bytes, and 64 bytes only if the first 61
of them are zero.

**Proof sketch.** Behind `k` zero bytes the other `m` characters are a number from `58 ^ (m - 1)` on
and below `58 ^ m`. It takes `32 - k` bytes only if `58 ^ (m - 1) < 256 ^ (32 - k)`, which fails for
every `k + m` of 63 or 64; it takes `64 - k` bytes only if `256 ^ (63 - k) < 58 ^ m`, and then `m` is
at most 3. -/
theorem base58_of_hex {text : String} {key decoded : List UInt8}
    (hhex : decodeHex text = some key) (hlength : key.length = 32)
    (hbase : Base58.decode text = some decoded) :
    decoded.length ≠ 32 ∧
      (decoded.length = 64 → ∃ rest, decoded = List.replicate 61 0 ++ rest) := by
  have htext := length_of_hex_of_base58 hhex hlength hbase
  obtain ⟨k, m, tail, hkm, rfl, hnil, hbounds⟩ := Base58.decode_spec hbase
  rw [List.length_append, List.length_replicate]
  rw [← hkm] at htext
  have hbase58 : ∀ n, 2 ^ (5 * n) ≤ 58 ^ n ∧ 58 ^ n ≤ 2 ^ (6 * n) := by
    intro n
    rw [pow_mul, pow_mul]
    exact ⟨Nat.pow_le_pow_left (by decide) n, Nat.pow_le_pow_left (by decide) n⟩
  have hbase256 : ∀ n, 256 ^ n = 2 ^ (8 * n) := fun n => (pow_mul 2 8 n).symm
  rcases Nat.eq_zero_or_pos m with hm | hm
  · rw [hnil hm, List.length_nil]
    refine ⟨by omega, fun h64 => ⟨List.replicate 3 0, ?_⟩⟩
    rw [List.append_nil, List.replicate_append_replicate]
    congr 1
  · obtain ⟨hlow, hhigh⟩ := hbounds hm
    have hlow' := (hbase58 (m - 1)).1.trans_lt hlow
    have hhigh' := hhigh.trans_le (hbase58 m).2
    rw [hbase256, Nat.pow_lt_pow_iff_right (by decide)] at hlow' hhigh'
    refine ⟨by omega, fun h64 => ?_⟩
    have hk : 61 ≤ k := by omega
    refine ⟨List.replicate (k - 61) 0 ++ tail, ?_⟩
    rw [← List.append_assoc, List.replicate_append_replicate]
    congr 2
    omega

/-- The public key of the zero seed is the one that Ed25519 derives. -/
def ZeroSeed (lib : KeyLib) : Prop :=
  (lib.publicKey (.zeros 32)).val =
    [0x3b, 0x6a, 0x27, 0xbc, 0xce, 0xb6, 0xa4, 0x2d, 0x62, 0xa3, 0xa8, 0xd0, 0x2a, 0x6f, 0x0d, 0x73,
      0x65, 0x32, 0x15, 0x77, 0x1d, 0xe2, 0x43, 0xa6, 0x3a, 0xc0, 0x48, 0xa1, 0x8b, 0x59, 0xda, 0x29]

/-- **The hex text of a key is no base58 key.** -/
theorem decodeBase58_eq_none_of_hex {lib : KeyLib} (hzero : ZeroSeed lib) {text : String}
    {key : List UInt8} (hhex : decodeHex text = some key) (hlength : key.length = 32) :
    decodeBase58 lib text = none := by
  unfold decodeBase58
  cases hbase : Base58.decode text with
  | none => rfl
  | some decoded =>
    obtain ⟨hshort, hlong⟩ := base58_of_hex hhex hlength hbase
    simp only [if_neg hshort]
    split_ifs with h64 hpair
    · obtain ⟨rest, rfl⟩ := hlong h64
      have hseed : (List.replicate 61 (0 : UInt8) ++ rest).take 32 = List.replicate 32 0 := rfl
      have hpublic : (List.replicate 61 (0 : UInt8) ++ rest).drop 32 =
          List.replicate 29 0 ++ rest := rfl
      simp only [isKeypair, hseed, hpublic, decide_eq_true_eq] at hpair
      cases hzero.symm.trans hpair
    · rfl
    · rfl

/-! ## Base58 -/

/-- The text of a key is read back. -/
lemma decodeBase58_encode (lib : KeyLib) {key : List UInt8} (h : key.length = 32) :
    decodeBase58 lib (Base58.encode key) = some key := by
  rw [decodeBase58, Base58.decode_encode]
  exact if_pos h

/-- The text of a keypair is read as its key. -/
lemma decodeBase58_encode_keypair (lib : KeyLib) (key : FixedBytes 32) :
    decodeBase58 lib (Base58.encode (key.val ++ (lib.publicKey key).val)) = some key.val := by
  have hlength : (key.val ++ (lib.publicKey key).val).length = 64 := by
    rw [List.length_append, key.property, (lib.publicKey key).property]
  have htake : (key.val ++ (lib.publicKey key).val).take 32 = key.val :=
    List.take_left' key.property
  have hdrop : (key.val ++ (lib.publicKey key).val).drop 32 = (lib.publicKey key).val :=
    List.drop_left' key.property
  rw [decodeBase58, Base58.decode_encode]
  simp only [hlength, isKeypair, htake, hdrop]
  simp

lemma stripStart_append (start rest : List Char) :
    stripStart start (start ++ rest) = some rest := by
  have hstart : start.isPrefixOf (start ++ rest) = true := by simp
  rw [stripStart, if_pos hstart, List.drop_left]

/-- A text with the name of the scheme in front. -/
lemma decodePrefixedBase58_append (lib : KeyLib) (text : String) :
    decodePrefixedBase58 lib (String.ofList ("ed25519:".toList ++ text.toList)) .ed25519 =
      decodeBase58 lib text := by
  have hname : "ed25519:".toList = SignatureScheme.ed25519.asRef.toList ++ [':'] := by decide
  rw [decodePrefixedBase58, String.toList_ofList, hname, List.append_assoc, stripStart_append]
  simp only [Option.bind_eq_bind, Option.bind_some, stripStart_append, String.ofList_toList]

/-- Hex text has no name of a scheme in front. -/
lemma decodePrefixedBase58_of_hex (lib : KeyLib) {text : String} {key : List UInt8}
    (hhex : decodeHex text = some key) (hne : key ≠ []) (scheme : SignatureScheme) :
    decodePrefixedBase58 lib text scheme = none := by
  have hcolon : ':' ∉ text.toList :=
    not_mem_of_decodeHex hhex hne (by decide) (by decide) (by decide)
  have hmem : ∀ {start chars rest : List Char}, stripStart start chars = some rest →
      (∀ c ∈ start, c ∈ chars) ∧ ∀ c ∈ rest, c ∈ chars := by
    intro start chars rest h
    unfold stripStart at h
    split_ifs at h with hstart
    have hle := List.isPrefixOf_iff_prefix.mp hstart
    refine ⟨hle.subset, ?_⟩
    rw [← Option.some.inj h]
    exact fun c hc => List.mem_of_mem_drop hc
  rw [decodePrefixedBase58]
  cases hname : stripStart scheme.asRef.toList text.toList with
  | none => rfl
  | some rest =>
    cases hmark : stripStart [':'] rest with
    | none =>
      simp only [Option.bind_eq_bind, Option.bind_some, hmark]
      rfl
    | some rest' =>
      exact absurd ((hmem hname).2 _ ((hmem hmark).1 ':' List.mem_cons_self)) hcolon

/-! ## Stellar -/

/-- The character of a base32 digit. -/
def base32Char (d : ℕ) : Char := "ABCDEFGHIJKLMNOPQRSTUVWXYZ234567".toList.getD d 'A'

/-- The 35 bytes of a secret seed: the version byte, the key and its checksum. -/
def strKeyBytes (key : List UInt8) : List UInt8 :=
  0x90 :: key ++ leBytes 2 (crc16Xmodem (0x90 :: key)).toNat

/-- **The text of a Stellar secret seed**: its bytes are one number of 56 base32 digits. -/
def strKey (key : List UInt8) : String :=
  String.ofList ((Nat.digits 32 (ofBe (strKeyBytes key))).reverse.map base32Char)

lemma base32Char_spec {d : ℕ} (h : d < 32) :
    (base32Char d).toNat < 128 ∧ (UInt8.ofNat (base32Char d).toNat).toNat ≠ 61 ∧
      base32DecodeChar (UInt8.ofNat (base32Char d).toNat) = some d := by
  revert d
  decide +kernel

/-- **What the loop has read**: the bits of the digits so far are the bytes it has written and the
bits that wait.

**Proof sketch.** By induction on the digits. A digit adds five bits to those that wait, and where
these are eight or more the upper eight of them become a byte. -/
theorem base32Loop_spec {digits : List ℕ} (h : ∀ d ∈ digits, d < 32) {buffer bits : ℕ}
    {output : List UInt8} (hbits : bits < 8) (hbuffer : buffer < 2 ^ bits) :
    ∃ output' bits' buffer',
      base32Loop (digits.map fun d => UInt8.ofNat (base32Char d).toNat) buffer bits output =
        some output' ∧
      bits' < 8 ∧ buffer' < 2 ^ bits' ∧
      8 * output'.length + bits' = 8 * output.length + bits + 5 * digits.length ∧
      ofBe output' * 2 ^ bits' + buffer' =
        digits.foldl (fun acc d => acc * 32 + d) (ofBe output * 2 ^ bits + buffer) := by
  induction digits generalizing buffer bits output with
  | nil => exact ⟨output, bits, buffer, rfl, hbits, hbuffer, rfl, rfl⟩
  | cons d digits ih =>
    have hd := h d List.mem_cons_self
    obtain ⟨-, hpad, hdecode⟩ := base32Char_spec hd
    have hdigits : ∀ x ∈ digits, x < 32 := fun x hx => h x (List.mem_cons_of_mem d hx)
    have hvalue : buffer <<< 5 ||| d = buffer * 32 + d := by
      rw [← Nat.shiftLeft_add_eq_or_of_lt (show d < 2 ^ 5 from hd), Nat.shiftLeft_eq]
    have hwide : buffer * 32 + d < 2 ^ (bits + 5) := by
      rw [pow_add]
      omega
    rw [List.map_cons, base32Loop, if_neg hpad, hdecode, List.foldl_cons, List.length_cons]
    simp only [hvalue]
    split_ifs with hbyte
    · have hmask : (buffer * 32 + d) &&& (1 <<< (bits + 5 - 8) - 1) =
          (buffer * 32 + d) % 2 ^ (bits + 5 - 8) := by
        rw [Nat.one_shiftLeft, Nat.and_two_pow_sub_one_eq_mod]
      have hsplit : 2 ^ (bits + 5) = 256 * 2 ^ (bits + 5 - 8) := by
        rw [show (256 : ℕ) = 2 ^ 8 from rfl, ← pow_add]
        congr 1
        omega
      have hhigh : (buffer * 32 + d) / 2 ^ (bits + 5 - 8) < 256 := by
        rw [Nat.div_lt_iff_lt_mul (Nat.two_pow_pos _), ← hsplit]
        exact hwide
      obtain ⟨output', bits', buffer', hloop, hbits', hbuffer', hcount, hfold⟩ :=
        @ih hdigits ((buffer * 32 + d) % 2 ^ (bits + 5 - 8)) (bits + 5 - 8)
          (output ++ [UInt8.ofNat ((buffer * 32 + d) >>> (bits + 5 - 8))]) (by omega)
          (Nat.mod_lt _ (Nat.two_pow_pos _))
      refine ⟨output', bits', buffer', by rw [hmask]; exact hloop, hbits', hbuffer', ?_, ?_⟩
      · rw [hcount, List.length_append, List.length_singleton]
        omega
      · rw [hfold, ofBe_concat, UInt8.toNat_ofNat', Nat.shiftRight_eq_div_pow,
          Nat.mod_eq_of_lt hhigh]
        congr 1
        have hmod := Nat.div_add_mod (buffer * 32 + d) (2 ^ (bits + 5 - 8))
        have hpow : 2 ^ bits * 32 = 256 * 2 ^ (bits + 5 - 8) := by
          rw [← hsplit, pow_add]
          rfl
        calc (ofBe output * 256 + (buffer * 32 + d) / 2 ^ (bits + 5 - 8)) *
                2 ^ (bits + 5 - 8) + (buffer * 32 + d) % 2 ^ (bits + 5 - 8)
            = ofBe output * (256 * 2 ^ (bits + 5 - 8)) +
                (2 ^ (bits + 5 - 8) * ((buffer * 32 + d) / 2 ^ (bits + 5 - 8)) +
                  (buffer * 32 + d) % 2 ^ (bits + 5 - 8)) := by ring
          _ = ofBe output * (2 ^ bits * 32) + (buffer * 32 + d) := by rw [hmod, hpow]
          _ = (ofBe output * 2 ^ bits + buffer) * 32 + d := by ring
    · obtain ⟨output', bits', buffer', hloop, hbits', hbuffer', hcount, hfold⟩ :=
        @ih hdigits (buffer * 32 + d) (bits + 5) output (by omega) hwide
      refine ⟨output', bits', buffer', hloop, hbits', hbuffer', by omega, ?_⟩
      rw [hfold, pow_add]
      congr 1
      ring

lemma length_strKeyBytes {key : List UInt8} (h : key.length = 32) :
    (strKeyBytes key).length = 35 := by
  rw [strKeyBytes, List.length_append, List.length_cons, length_leBytes, h]

/-- A secret seed has 56 digits, the first of which is that of `S`. -/
lemma digits_strKeyBytes {key : List UInt8} (h : key.length = 32) :
    (Nat.digits 32 (ofBe (strKeyBytes key))).length = 56 ∧
      (Nat.digits 32 (ofBe (strKeyBytes key))).reverse.head? = some 18 := by
  have hrest : (key ++ leBytes 2 (crc16Xmodem (0x90 :: key)).toNat).length = 34 := by
    rw [List.length_append, length_leBytes, h]
  have hlt := ofBe_lt (key ++ leBytes 2 (crc16Xmodem (0x90 :: key)).toNat)
  have hvalue : ofBe (strKeyBytes key) = 144 * 256 ^ 34 +
      ofBe (key ++ leBytes 2 (crc16Xmodem (0x90 :: key)).toNat) := by
    rw [strKeyBytes, List.cons_append, ofBe_cons, hrest]
    rfl
  rw [hrest] at hlt
  rw [hvalue]
  generalize ofBe (key ++ leBytes 2 (crc16Xmodem (0x90 :: key)).toNat) = rest at hlt
  have hlength : (Nat.digits 32 (144 * 256 ^ 34 + rest)).length = 56 := by
    have hle := (@Nat.digits_length_le_iff 32 56 (by decide) (144 * 256 ^ 34 + rest)).mpr (by omega)
    have hge := (@Nat.lt_digits_length_iff 32 55 (by decide) (144 * 256 ^ 34 + rest)).mpr (by omega)
    omega
  refine ⟨hlength, ?_⟩
  have hdigit := Nat.getD_digits (144 * 256 ^ 34 + rest) 55 (show 2 ≤ 32 by decide)
  have htop : (144 * 256 ^ 34 + rest) / 32 ^ 55 % 32 = 18 := by omega
  rw [htop] at hdigit
  rw [List.head?_reverse, List.getLast?_eq_getElem?, hlength]
  rw [List.getD_eq_getElem?_getD] at hdigit
  rw [List.getElem?_eq_getElem (by omega)] at hdigit ⊢
  exact congrArg some hdigit

/-- **The text of a Stellar secret seed is read back.** -/
theorem decodeStellarStrkey_strKey {key : List UInt8} (h : key.length = 32) :
    decodeStellarStrkey (strKey key) = some key := by
  obtain ⟨hlength, hhead⟩ := digits_strKeyBytes h
  have hdigits : ∀ d ∈ (Nat.digits 32 (ofBe (strKeyBytes key))).reverse, d < 32 := fun d hd =>
    Nat.digits_lt_base (by decide) (List.mem_reverse.mp hd)
  have hbytes : (strKey key).toUTF8.data.toList =
      (Nat.digits 32 (ofBe (strKeyBytes key))).reverse.map fun d =>
        UInt8.ofNat (base32Char d).toNat := by
    rw [strKey, toUTF8_ofList, List.map_map]
    · rfl
    · intro c hc
      obtain ⟨d, hd, rfl⟩ := List.mem_map.mp hc
      exact (base32Char_spec (hdigits d hd)).1
  have hdecoded : base32Decode (strKey key).toUTF8.data.toList = some (strKeyBytes key) := by
    obtain ⟨output, bits, buffer, hloop, hbits, hbuffer, hcount, hfold⟩ :=
      @base32Loop_spec _ hdigits 0 0 [] (by decide) (by decide)
    rw [List.length_reverse, hlength, List.length_nil] at hcount
    have hlen : output.length = (strKeyBytes key).length := by
      rw [length_strKeyBytes h]
      omega
    obtain rfl : bits = 0 := by omega
    obtain rfl : buffer = 0 := by omega
    have hvalue : ofBe output = ofBe (strKeyBytes key) :=
      calc ofBe output = ofBe output * 2 ^ 0 + 0 := by rw [pow_zero, mul_one, add_zero]
        _ = Nat.ofDigits 32 (Nat.digits 32 (ofBe (strKeyBytes key))) := by
          rw [hfold, ← foldl_reverse_eq_ofDigits]
          rfl
        _ = ofBe (strKeyBytes key) := Nat.ofDigits_digits _ _
    have houtput : output = strKeyBytes key := by
      rw [← beBytes_ofBe output, ← beBytes_ofBe (strKeyBytes key), hlen, hvalue]
    rw [base32Decode, hbytes, hloop, houtput]
  have hfirst : (strKey key).toList.head? = some 'S' := by
    rw [strKey, String.toList_ofList, List.head?_map, hhead]
    decide
  have htake : (strKeyBytes key).take 33 = 0x90 :: key := by
    rw [strKeyBytes]
    exact List.take_left' (by rw [List.length_cons, h])
  have hdrop : (strKeyBytes key).drop 33 = leBytes 2 (crc16Xmodem (0x90 :: key)).toNat := by
    rw [strKeyBytes]
    exact List.drop_left' (by rw [List.length_cons, h])
  have hchecksum : ofLe (leBytes 2 (crc16Xmodem (0x90 :: key)).toNat) =
      (crc16Xmodem (0x90 :: key)).toNat := ofLe_leBytes_of_lt (UInt16.toNat_lt _)
  have hkey : ((strKeyBytes key).drop 1).take 32 = key := by
    rw [strKeyBytes, List.cons_append, List.drop_one, List.tail_cons]
    exact List.take_left' h
  have hcount : (strKey key).toUTF8.data.toList.length = 56 := by
    rw [hbytes, List.length_map, List.length_reverse, hlength]
  have hversion : ¬((strKeyBytes key).length ≠ 35 ∨ (strKeyBytes key).head? ≠ some 0x90) := by
    rw [length_strKeyBytes h]
    rintro (hne | hne) <;> exact hne rfl
  rw [decodeStellarStrkey, if_neg (by rw [hcount, hfirst]; decide), hdecoded]
  simp only [if_neg hversion, htake, hdrop, hchecksum, hkey, ne_eq, not_true, if_false]

/-- Hex text is no text of a secret seed. -/
lemma decodeStellarStrkey_of_hex {text : String} {key : List UInt8}
    (hhex : decodeHex text = some key) (hne : key ≠ []) : decodeStellarStrkey text = none := by
  have hfirst : text.toList.head? ≠ some 'S' := by
    intro hhead
    exact not_mem_of_decodeHex hhex hne (by decide) (by decide) (by decide)
      (List.mem_of_mem_head? hhead)
  rw [decodeStellarStrkey, if_pos (.inr hfirst)]

/-! ## Every text of a key -/

/-- **The texts that denote a key on a chain**: its hex digits in either case, with the mark or
without, or as `decode_hex` else takes them; on Solana the base58 text of the key or of the keypair,
on Near the same behind `ed25519:`, and on Stellar the text of the secret seed. -/
inductive Denotes (lib : KeyLib) (chain : Chain) (key : List UInt8) : String → Prop where
  | plainHex {digits : List Char} (h : decodeHexPairs digits = some key) :
    Denotes lib chain key (String.ofList digits)
  | markedHex {digits : List Char} (h : decodeHexPairs digits = some key) :
    Denotes lib chain key (String.ofList ('0' :: 'x' :: digits))
  | looseHex {text : String} (h : decodeHex text = some key) : Denotes lib chain key text
  | base58 (hchain : chain.chainType = .solana) : Denotes lib chain key (Base58.encode key)
  | keypair (hchain : chain.chainType = .solana) (h : key.length = 32) :
    Denotes lib chain key (Base58.encode (key ++ (lib.publicKey ⟨key, h⟩).val))
  | prefixed (hchain : chain.chainType = .near) :
    Denotes lib chain key (String.ofList ("ed25519:".toList ++ (Base58.encode key).toList))
  | prefixedKeypair (hchain : chain.chainType = .near) (h : key.length = 32) :
    Denotes lib chain key (String.ofList ("ed25519:".toList ++
      (Base58.encode (key ++ (lib.publicKey ⟨key, h⟩).val)).toList))
  | strKey (hchain : chain.chainType = .stellar) : Denotes lib chain key (strKey key)

section Forms

variable {lib : KeyLib} {chain : Chain} {key : List UInt8}

/-- The first encoding that reads a text decides, if it gives a key of the scheme. -/
theorem decodeKey_cons {encoding : KeyEncoding} {encodings : List KeyEncoding}
    {scheme : SignatureScheme} {text : String}
    (hread : decodeWith lib encoding text scheme = some key)
    (hvalid : validateKey lib key scheme = .ok ()) :
    decodeKey lib text scheme (encoding :: encodings) = .ok key := by
  rw [decodeKey, hread]
  simp only [hvalid]

/-- An encoding that does not read a text leaves it to the others. -/
lemma decodeKey_skip {encoding : KeyEncoding} {encodings : List KeyEncoding}
    {scheme : SignatureScheme} {text : String}
    (hread : decodeWith lib encoding text scheme = none) :
    decodeKey lib text scheme (encoding :: encodings) = decodeKey lib text scheme encodings := by
  rw [decodeKey, hread]

/-- A key of the Ed25519 scheme has 32 bytes. -/
lemma length_of_validateKey (h : validateKey lib key .ed25519 = .ok ()) : key.length = 32 := by
  rw [validateKey] at h
  split_ifs at h with hlength
  exact hlength

/-- **Hex text is read as its key on every chain**: the encodings tried before it do not read it. -/
theorem decodePrivateKey_of_hex (hzero : ZeroSeed lib) (hsupport : supportsPrivateKeyImport chain)
    (hvalid : validateKey lib key (schemeForChain chain) = .ok ()) {text : String}
    (hhex : decodeHex text = some key) : decodePrivateKey lib chain text = .ok key := by
  have hread : ∀ scheme, decodeWith lib .hex text scheme = some key := fun _ => hhex
  have hne : ∀ {bytes : List UInt8}, bytes.length = 32 → bytes ≠ [] := by
    rintro bytes hlength rfl
    cases hlength
  unfold decodePrivateKey
  unfold supportsPrivateKeyImport importEncodingsForChain at hsupport
  unfold importEncodingsForChain
  cases hchain : chain.chainType with
  | solana =>
    have hscheme : schemeForChain chain = .ed25519 := by rw [schemeForChain, hchain]
    rw [hscheme] at hvalid ⊢
    have hnone : decodeWith lib .base58 text .ed25519 = none :=
      decodeBase58_eq_none_of_hex hzero hhex (length_of_validateKey hvalid)
    rw [decodeKey_skip hnone]
    exact decodeKey_cons (hread _) hvalid
  | near =>
    have hscheme : schemeForChain chain = .ed25519 := by rw [schemeForChain, hchain]
    rw [hscheme] at hvalid ⊢
    have hnone : decodeWith lib (.prefixedBase58 .ed25519) text .ed25519 = none :=
      decodePrefixedBase58_of_hex lib hhex (hne (length_of_validateKey hvalid)) .ed25519
    rw [decodeKey_skip hnone]
    exact decodeKey_cons (hread _) hvalid
  | stellar =>
    have hscheme : schemeForChain chain = .ed25519 := by rw [schemeForChain, hchain]
    rw [hscheme] at hvalid ⊢
    have hnone : decodeWith lib .stellarStrKey text .ed25519 = none :=
      decodeStellarStrkey_of_hex hhex (hne (length_of_validateKey hvalid))
    rw [decodeKey_skip hnone]
    exact decodeKey_cons (hread _) hvalid
  | bitcoin | cardano =>
    rw [hchain] at hsupport
    cases hsupport
  | _ => exact decodeKey_cons (hread _) hvalid

/-- **Every text of a key is read as that key.** -/
theorem decodePrivateKey_of_denotes (hzero : ZeroSeed lib)
    (hsupport : supportsPrivateKeyImport chain)
    (hvalid : validateKey lib key (schemeForChain chain) = .ok ()) {text : String}
    (h : Denotes lib chain key text) : decodePrivateKey lib chain text = .ok key := by
  have hed25519 : chain.chainType = .solana ∨ chain.chainType = .near ∨
      chain.chainType = .stellar → schemeForChain chain = .ed25519 := by
    rintro (hchain | hchain | hchain) <;> rw [schemeForChain, hchain]
  cases h with
  | plainHex hpairs => exact decodePrivateKey_of_hex hzero hsupport hvalid (decodeHex_ofList hpairs).1
  | markedHex hpairs => exact decodePrivateKey_of_hex hzero hsupport hvalid (decodeHex_ofList hpairs).2
  | looseHex hhex => exact decodePrivateKey_of_hex hzero hsupport hvalid hhex
  | base58 hchain =>
    have hscheme := hed25519 (.inl hchain)
    rw [hscheme] at hvalid
    rw [decodePrivateKey, importEncodingsForChain, hchain, hscheme]
    exact decodeKey_cons (decodeBase58_encode lib (length_of_validateKey hvalid)) hvalid
  | keypair hchain hlength =>
    have hscheme := hed25519 (.inl hchain)
    rw [hscheme] at hvalid
    rw [decodePrivateKey, importEncodingsForChain, hchain, hscheme]
    exact decodeKey_cons (decodeBase58_encode_keypair lib ⟨key, hlength⟩) hvalid
  | prefixed hchain =>
    have hscheme := hed25519 (.inr (.inl hchain))
    rw [hscheme] at hvalid
    rw [decodePrivateKey, importEncodingsForChain, hchain, hscheme]
    exact decodeKey_cons ((decodePrefixedBase58_append lib _).trans
      (decodeBase58_encode lib (length_of_validateKey hvalid))) hvalid
  | prefixedKeypair hchain hlength =>
    have hscheme := hed25519 (.inr (.inl hchain))
    rw [hscheme] at hvalid
    rw [decodePrivateKey, importEncodingsForChain, hchain, hscheme]
    exact decodeKey_cons ((decodePrefixedBase58_append lib _).trans
      (decodeBase58_encode_keypair lib ⟨key, hlength⟩)) hvalid
  | strKey hchain =>
    have hscheme := hed25519 (.inr (.inr hchain))
    rw [hscheme] at hvalid
    rw [decodePrivateKey, importEncodingsForChain, hchain, hscheme]
    exact decodeKey_cons (decodeStellarStrkey_strKey (length_of_validateKey hvalid)) hvalid

/-- The exported text of a key denotes it, where keys are imported. -/
lemma encodePrivateKey_denotes (hsupport : supportsPrivateKeyImport chain) :
    ∃ text, encodePrivateKey chain key = .ok text ∧ Denotes lib chain key text := by
  have hhex : Denotes lib chain key (String.ofList ('0' :: 'x' :: (encodeHex key).toList)) :=
    .markedHex (Keystore.decodeHexPairs_encodeHex key)
  unfold supportsPrivateKeyImport importEncodingsForChain at hsupport
  unfold encodePrivateKey exportEncodingForChain
  cases hchain : chain.chainType with
  | solana => exact ⟨_, rfl, .base58 hchain⟩
  | bitcoin =>
    rw [hchain] at hsupport
    cases hsupport
  | _ => exact ⟨_, rfl, hhex⟩

/-- **Private keys as text.** On a chain that imports private keys, a valid key is read back from its
exported text, and every text that denotes it is read as this key; so no text is read by an encoding
that is tried early as another key than the one it denotes.

**Proof sketch.** The exported text denotes the key. A text of the form that is tried first is read
back by its own decoder. Hex text, which is tried last, is read by none before it: it has no `:` and
no `S`, and as base58 it is too long, or the keypair of the zero seed with a wrong public key. -/
theorem privateKey_round_trip (hzero : ZeroSeed lib) (hsupport : supportsPrivateKeyImport chain)
    (hvalid : validateKey lib key (schemeForChain chain) = .ok ()) :
    (∃ text, encodePrivateKey chain key = .ok text ∧
      decodePrivateKey lib chain text = .ok key) ∧
    ∀ text, Denotes lib chain key text → decodePrivateKey lib chain text = .ok key := by
  obtain ⟨text, hencode, hdenotes⟩ := @encodePrivateKey_denotes lib chain key hsupport
  exact ⟨⟨text, hencode, decodePrivateKey_of_denotes hzero hsupport hvalid hdenotes⟩,
    fun _ h => decodePrivateKey_of_denotes hzero hsupport hvalid h⟩

end Forms

/-- The public keys of the zero seed and of one other. -/
def sampleLib : KeyLib where
  publicKey := fun seed =>
    if seed.val = List.replicate 32 0 then
      ⟨[0x3b, 0x6a, 0x27, 0xbc, 0xce, 0xb6, 0xa4, 0x2d, 0x62, 0xa3, 0xa8, 0xd0, 0x2a, 0x6f, 0x0d, 0x73,
        0x65, 0x32, 0x15, 0x77, 0x1d, 0xe2, 0x43, 0xa6, 0x3a, 0xc0, 0x48, 0xa1, 0x8b, 0x59, 0xda, 0x29], rfl⟩
    else
      ⟨[0xea, 0x4a, 0x6c, 0x63, 0xe2, 0x9c, 0x52, 0x0a, 0xbe, 0xf5, 0x50, 0x7b, 0x13, 0x2e, 0xc5, 0xf9,
        0x95, 0x47, 0x76, 0xae, 0xbe, 0xbe, 0x7b, 0x92, 0x42, 0x1e, 0xea, 0x69, 0x14, 0x46, 0xd2, 0x2c], rfl⟩
  isSecp256k1Key := fun bytes =>
    bytes.length = 32 ∧ 0 < ofBe bytes ∧ ofBe bytes <
      0xfffffffffffffffffffffffffffffffebaaedce6af48a03bbfd25e8cd0364141

example : decodePrivateKey sampleLib .stellar
    "SA6XNHUKMW4QAKSHB2NOZ4SYP34ERYVAWSBTEDREYSJ2LEJ5LFHLTIRJ" =
      okOr (decodeHex "3d769e8a65b9002a470e9aecf2587ef848e2a0b483320e24c493a5913d594eb9")
        (.invalidInput "") := by decide +kernel

theorem privateKey_round_trip_seven :
    (∃ text, encodePrivateKey .solana (List.replicate 32 7) = .ok text ∧
      decodePrivateKey sampleLib .solana text = .ok (List.replicate 32 7)) ∧
    ∀ text, Denotes sampleLib .solana (List.replicate 32 7) text →
      decodePrivateKey sampleLib .solana text = .ok (List.replicate 32 7) :=
  privateKey_round_trip rfl rfl rfl

end GemCore.Signer
