import GemCore.Lib.Decimal
import GemCore.Primitives.Base64
import GemCore.Primitives.Hex
import GemCore.Ton.Builder

/-!
# TON addresses as text

How the text of an address is read (`gem_ton/src/address.rs`). The user-friendly form is base64, in
either alphabet, of a tag, the address and a checksum; the raw form is the number of the workchain
and the hex digits of the hash, with a colon between them.

## Main definitions

* `Address.tryParse` — `Address::try_parse`.
* `Address.TextOf` — the texts of an address.

## Main results

* `Address.tryParse_of_textOf` — every text of an address is read as this address.
-/

namespace GemCore.Ton

open Lib

deriving instance DecidableEq for Address

/-- `CRC_16_XMODEM` of the `crc` crate. -/
structure AddressLib where
  crc16 : List UInt8 → UInt16

namespace Address

/-! ## Reading -/

/-- `UserFriendlyAddressType::from_tag`, as whether the address is bounceable. -/
def isBounceable (tag : UInt8) : Option Bool :=
  if tag &&& 0x7f = 0x11 then some true
  else if tag &&& 0x7f = 0x51 then some false
  else none

/-- `Address::new`: the workchain is cut to a byte. -/
def new (workchain : ℤ) (hashPart : FixedBytes 32) : Address :=
  ⟨UInt8.ofNat (workchain % 256).toNat, hashPart⟩

/-- `USER_FRIENDLY_ADDRESS_LEN`. -/
def userFriendlyAddressLen : ℕ := 36

/-- `i32::from_str`. -/
def parseI32 (text : List Char) : Option ℤ :=
  let digits := match text with
    | '-' :: rest => rest
    | '+' :: rest => rest
    | rest => rest
  let value : ℤ :=
    if text.head? = some '-' then -Decimal.value digits else Decimal.value digits
  if digits ≠ [] ∧ digits.all Char.isDigit ∧ -2 ^ 31 ≤ value ∧ value < 2 ^ 31 then some value
  else none

/-- `Address::try_parse_hex`. -/
def tryParseHex (text : String) : Option Address := do
  let (workchain, hashPart) ← Lib.splitOnce (· = ':') text.toList
  let workchain ← parseI32 workchain
  let hashPart ← decodeHexPairs hashPart
  if h : hashPart.length = 32 then some (new workchain ⟨hashPart, h⟩) else none

variable (lib : AddressLib)

/-- `Address::parse_user_friendly`. -/
def parseUserFriendly (text : String) : Option (Address × Bool) := do
  let bytes ← (decodeBase64Url text).or (decodeBase64NoPad text)
  if h : bytes.length = userFriendlyAddressLen then
    if ofBe (bytes.drop 34) = (lib.crc16 (bytes.take 34)).toNat then do
      let bounceable ← isBounceable (bytes.headD 0)
      some (⟨(bytes.drop 1).headD 0, (bytes.drop 2).take 32, by
        rw [List.length_take, List.length_drop, h]
        rfl⟩, bounceable)
    else none
  else none

/-- `Address::try_parse_base64`. -/
def tryParseBase64 (text : String) : Option Address := (parseUserFriendly lib text).map Prod.fst

/-- `Address::try_parse`. -/
def tryParse (text : String) : Option Address := (tryParseBase64 lib text).or (tryParseHex text)

/-! ## Numerals -/

/-- A decimal number with or without a sign. -/
inductive Numeral : List Char → ℤ → Prop where
  | plain {digits : List Char} (hne : digits ≠ []) (h : Decimal.Digits digits) :
    Numeral digits (Decimal.value digits)
  | plus {digits : List Char} (hne : digits ≠ []) (h : Decimal.Digits digits) :
    Numeral ('+' :: digits) (Decimal.value digits)
  | minus {digits : List Char} (hne : digits ≠ []) (h : Decimal.Digits digits) :
    Numeral ('-' :: digits) (-Decimal.value digits)

/-- A numeral starts with a sign or a digit, and there is no colon in it. -/
lemma Numeral.ne_colon {text : List Char} {z : ℤ} (h : Numeral text z) :
    ∀ c ∈ text, c ≠ ':' := by
  have hdigit : ∀ {digits : List Char}, Decimal.Digits digits → ∀ c ∈ digits, c ≠ ':' :=
    fun hdigits c hc heq => absurd (hdigits c hc) (by rw [heq]; decide)
  cases h with
  | plain _ hdigits => exact hdigit hdigits
  | plus _ hdigits | minus _ hdigits => exact List.forall_mem_cons.mpr ⟨by decide, hdigit hdigits⟩

/-- A number within 32 bits, or nothing. -/
def within32 (digits : List Char) (z : ℤ) : Option ℤ :=
  if digits ≠ [] ∧ digits.all Char.isDigit ∧ -2 ^ 31 ≤ z ∧ z < 2 ^ 31 then some z else none

lemma within32_eq_some_iff {digits : List Char} {z z' : ℤ} :
    within32 digits z = some z' ↔
      z' = z ∧ digits ≠ [] ∧ Decimal.Digits digits ∧ -2 ^ 31 ≤ z ∧ z < 2 ^ 31 := by
  have hall : digits.all Char.isDigit = true ↔ Decimal.Digits digits := List.all_eq_true
  rw [within32, ← hall]
  split
  case isTrue h => exact ⟨fun heq => ⟨(Option.some.inj heq).symm, h⟩, fun heq => by rw [heq.1]⟩
  case isFalse h =>
    constructor
    · intro heq
      cases heq
    · exact fun heq => absurd heq.2 h

/-- `i32::from_str`, by the sign. -/
lemma parseI32_unsigned {text : List Char} (hminus : text.head? ≠ some '-')
    (hplus : text.head? ≠ some '+') : parseI32 text = within32 text (Decimal.value text) := by
  rw [parseI32]
  · simp only [hminus, if_false]
    rfl
  · exact fun rest hrest => hminus (by rw [hrest]; rfl)
  · exact fun rest hrest => hplus (by rw [hrest]; rfl)

/-- `i32::from_str` reads the numerals that are within 32 bits. -/
lemma parseI32_eq_some_iff {text : List Char} {z : ℤ} :
    parseI32 text = some z ↔ Numeral text z ∧ -2 ^ 31 ≤ z ∧ z < 2 ^ 31 := by
  constructor
  · intro h
    by_cases hminus : text.head? = some '-'
    · obtain ⟨digits, rfl⟩ := List.head?_eq_some_iff.mp hminus
      obtain ⟨rfl, hne, hdigits, hrange⟩ := within32_eq_some_iff.mp h
      exact ⟨.minus hne hdigits, hrange⟩
    · by_cases hplus : text.head? = some '+'
      · obtain ⟨digits, rfl⟩ := List.head?_eq_some_iff.mp hplus
        obtain ⟨rfl, hne, hdigits, hrange⟩ := within32_eq_some_iff.mp h
        exact ⟨.plus hne hdigits, hrange⟩
      · rw [parseI32_unsigned hminus hplus] at h
        obtain ⟨rfl, hne, hdigits, hrange⟩ := within32_eq_some_iff.mp h
        exact ⟨.plain hne hdigits, hrange⟩
  · rintro ⟨hnumeral, hrange⟩
    cases hnumeral with
    | plain hne hdigits =>
      have hhead : ∀ c, text.head? = some c → c.isDigit = true := fun c h =>
        hdigits c (List.mem_of_mem_head? h)
      rw [parseI32_unsigned (fun h => absurd (hhead _ h) (by decide))
        fun h => absurd (hhead _ h) (by decide)]
      exact within32_eq_some_iff.mpr ⟨rfl, hne, hdigits, hrange⟩
    | plus hne hdigits | minus hne hdigits =>
      exact within32_eq_some_iff.mpr ⟨rfl, hne, hdigits, hrange⟩

/-- A numeral is the numeral of one number. -/
lemma Numeral.unique {text : List Char} {z z' : ℤ} (h : Numeral text z) (h' : Numeral text z') :
    z = z' := by
  have hhead : ∀ {digits : List Char} {c : Char} {rest : List Char},
      Decimal.Digits digits → digits = c :: rest → c.isDigit = true :=
    fun hdigits heq => hdigits _ (by rw [heq]; exact List.mem_cons_self)
  cases h with
  | plain _ hdigits =>
    cases h' with
    | plain => rfl
    | plus | minus => exact absurd (hhead hdigits rfl) (by decide)
  | plus _ _ =>
    cases h' with
    | plain _ hdigits => exact absurd (hhead hdigits rfl) (by decide)
    | plus => rfl
  | minus _ _ =>
    cases h' with
    | plain _ hdigits => exact absurd (hhead hdigits rfl) (by decide)
    | minus => rfl

/-- The decimal text of a number is a numeral of it. -/
lemma numeral_toString (z : ℤ) : Numeral (toString z).toList z := by
  rw [Int.toString_eq_repr, Int.repr_eq_if]
  split_ifs with hpos
  · have hnumeral := Numeral.plain Nat.toDigits_ne_nil (Decimal.digits_toDigits z.toNat)
    rw [Decimal.value_toDigits, Int.toNat_of_nonneg hpos] at hnumeral
    rw [Nat.toList_repr]
    exact hnumeral
  · have hnumeral := Numeral.minus Nat.toDigits_ne_nil (Decimal.digits_toDigits (-z).toNat)
    rw [Decimal.value_toDigits, Int.toNat_of_nonneg (by omega), neg_neg] at hnumeral
    rw [String.toList_append, Nat.toList_repr]
    exact hnumeral

/-- The decimal text of a number is read back. -/
lemma parseI32_toString {z : ℤ} (hlow : -2 ^ 31 ≤ z) (hhigh : z < 2 ^ 31) :
    parseI32 (toString z).toList = some z :=
  parseI32_eq_some_iff.mpr ⟨numeral_toString z, hlow, hhigh⟩

/-! ## The texts of an address -/

/-- A byte in two's complement. -/
def signedByte (n : ℕ) : ℤ := if n < 128 then n else n - 256

/-- The workchain of an address. -/
def workchainOf (address : Address) : ℤ := signedByte address.workchain.toNat

/-- The bytes of the user-friendly form. -/
def userFriendlyBytes (address : Address) (tag : UInt8) : List UInt8 :=
  let bytes := tag :: address.workchain :: address.hashPart.val
  bytes ++ beBytes 2 (lib.crc16 bytes).toNat

/-- **The texts of an address**: the user-friendly form in either alphabet, with any tag, and the raw
form with hex digits in either case. -/
inductive TextOf (address : Address) : String → Prop where
  | urlSafe {tag : UInt8} (htag : (isBounceable tag).isSome) :
    TextOf address (String.ofList (encodeBase64Url (userFriendlyBytes lib address tag)))
  | standard {tag : UInt8} (htag : (isBounceable tag).isSome) :
    TextOf address
      (String.ofList ((encodeBase64Url (userFriendlyBytes lib address tag)).map toStandard))
  | raw {digits : List Char} (h : decodeHexPairs digits = some address.hashPart.val) :
    TextOf address
      (String.ofList ((toString (workchainOf address)).toList ++ ':' :: digits))

variable {lib} {address : Address}

/-- The bytes of the user-friendly form are read as the address and its flag. -/
theorem parseUserFriendly_of_bytes {text : String} {tag : UInt8} {bounceable : Bool}
    (htag : isBounceable tag = some bounceable)
    (h : (decodeBase64Url text).or (decodeBase64NoPad text) =
      some (userFriendlyBytes lib address tag)) :
    parseUserFriendly lib text = some (address, bounceable) := by
  have hhash := address.hashPart.property
  have hlength : (userFriendlyBytes lib address tag).length = userFriendlyAddressLen := by
    simp only [userFriendlyBytes, List.length_append, List.length_cons, length_beBytes, hhash]
    rfl
  have htake : (userFriendlyBytes lib address tag).take 34 =
      tag :: address.workchain :: address.hashPart.val :=
    List.take_left' (by rw [List.length_cons, List.length_cons, hhash])
  have hdrop : (userFriendlyBytes lib address tag).drop 34 =
      beBytes 2 (lib.crc16 (tag :: address.workchain :: address.hashPart.val)).toNat :=
    List.drop_left' (by rw [List.length_cons, List.length_cons, hhash])
  have hcrc : ofBe (beBytes 2
      (lib.crc16 (tag :: address.workchain :: address.hashPart.val)).toNat) =
        (lib.crc16 (tag :: address.workchain :: address.hashPart.val)).toNat :=
    ofBe_beBytes_of_lt (UInt16.toNat_lt _)
  have hkept : ((userFriendlyBytes lib address tag).drop 2).take 32 = address.hashPart.val :=
    List.take_left' hhash
  rw [parseUserFriendly, h]
  simp only [Option.bind_eq_bind, Option.bind_some, dif_pos hlength, htake, hdrop, hcrc, if_true,
    hkept]
  have hhead : (userFriendlyBytes lib address tag).headD 0 = tag := rfl
  rw [hhead, htag]
  rfl

lemma tryParseBase64_of_bytes {text : String} {tag : UInt8} (htag : (isBounceable tag).isSome)
    (h : (decodeBase64Url text).or (decodeBase64NoPad text) =
      some (userFriendlyBytes lib address tag)) :
    tryParseBase64 lib text = some address := by
  obtain ⟨bounceable, htag⟩ := Option.isSome_iff_exists.mp htag
  rw [tryParseBase64, parseUserFriendly_of_bytes htag h]
  rfl

/-- The decimal text of a workchain is read back. -/
lemma parseI32_workchainOf (address : Address) :
    parseI32 (toString (workchainOf address)).toList = some (workchainOf address) ∧
      (∀ c ∈ (toString (workchainOf address)).toList, (c = ':') = False) ∧
      UInt8.ofNat (workchainOf address % 256).toNat = address.workchain := by
  have hlt := address.workchain.toNat_lt
  have hbyte : (workchainOf address % 256).toNat = address.workchain.toNat := by
    rw [workchainOf, signedByte]
    split_ifs <;> omega
  refine ⟨parseI32_toString ?_ ?_, fun c hc => eq_false ((numeral_toString _).ne_colon c hc), ?_⟩
  · rw [workchainOf, signedByte]
    split_ifs <;> omega
  · rw [workchainOf, signedByte]
    split_ifs <;> omega
  · rw [hbyte, UInt8.ofNat_toNat]

/-- The raw form is no base64. -/
lemma tryParseBase64_of_colon {text : String} (h : ':' ∈ text.toList) :
    tryParseBase64 lib text = none := by
  have hurl : decodeBase64Url text = none := decodeBase64_eq_none (by decide) h
  have hstandard : decodeBase64NoPad text = none := decodeBase64_eq_none (by decide) h
  rw [tryParseBase64, parseUserFriendly, hurl, hstandard]
  rfl

/-- **Every text of an address is read as this address.** -/
theorem tryParse_of_textOf {text : String} (h : TextOf lib address text) :
    tryParse lib text = some address := by
  cases h with
  | urlSafe htag =>
    rw [tryParse, tryParseBase64_of_bytes htag]
    · rfl
    · rw [decodeBase64Url_encodeBase64Url]
      rfl
  | standard htag =>
    rw [tryParse, tryParseBase64_of_bytes htag]
    · rfl
    · rcases decodeBase64Url_toStandard (userFriendlyBytes lib address _) with hurl | hurl
      · rw [hurl]
        rfl
      · rw [hurl, decodeBase64NoPad_toStandard]
        rfl
  | @raw digits hdigits =>
    obtain ⟨hparse, hcolon, hbyte⟩ := parseI32_workchainOf address
    have htext : ':' ∈ (String.ofList
        ((toString (workchainOf address)).toList ++ ':' :: digits)).toList := by
      rw [String.toList_ofList]
      exact List.mem_append_right _ List.mem_cons_self
    have hsplit : Lib.splitOnce (fun c => decide (c = ':'))
        ((toString (workchainOf address)).toList ++ ':' :: digits) =
          some ((toString (workchainOf address)).toList, digits) :=
      Lib.splitOnce_append (fun c hc => by simp only [hcolon c hc, decide_false]) (by decide)
    rw [tryParse, tryParseBase64_of_colon htext, tryParseHex, String.toList_ofList, hsplit]
    simp only [Option.bind_eq_bind, Option.bind_some, hparse, hdigits,
      dif_pos address.hashPart.property, new, hbyte]
    rfl

end Address

end GemCore.Ton
