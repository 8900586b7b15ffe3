import GemCore.Keystore.Secret
import GemCore.Lib.Lists
import GemCore.Ton.Address
import GemCore.Ton.Bits

/-!
# The forms of a TON address

`gem_ton/src/address.rs`: an address is written in the user-friendly form, with or without the bounce
flag, in the raw form, or as a cell, and read back from each. A text of either form denotes a workchain
and a hash, whatever the reader makes of it.

## Main definitions

* `encodeBounceable`, `encodeNonBounceable`, `rawText`, `toCell` — the forms of an address.
* `Denotes` — the workchain and the hash of a text.
* `Faithful` — an address comes back from its forms, and texts are read as what they denote.

## Main results

* `fromCell_toCell` — the cell of an address is read back.
* `tryParse_cases` — the texts that are accepted, and what they are read as.
* `faithful_iff` — texts are read as what they denote exactly if no raw one names a workchain that
  does not fit into a byte.
-/

namespace GemCore.Ton.Address

open Lib

/-! ## Writing -/

/-- `TAG_BOUNCEABLE_MAINNET`. -/
def tagBounceableMainnet : UInt8 := 0x11

/-- `TAG_NON_BOUNCEABLE_MAINNET`. -/
def tagNonBounceableMainnet : UInt8 := tagBounceableMainnet ||| 0x40

/-- `UserFriendlyAddressType::tag`. -/
def tagOf (bounceable : Bool) : UInt8 :=
  if bounceable then tagBounceableMainnet else tagNonBounceableMainnet

/-- `encode_user_friendly`. -/
def encodeUserFriendly (lib : AddressLib) (address : Address) (bounceable : Bool) : String :=
  String.ofList (encodeBase64Url (userFriendlyBytes lib address (tagOf bounceable)))

/-- `encode_bounceable`. -/
def encodeBounceable (lib : AddressLib) (address : Address) : String :=
  encodeUserFriendly lib address true

/-- `encode_non_bounceable`. -/
def encodeNonBounceable (lib : AddressLib) (address : Address) : String :=
  encodeUserFriendly lib address false

/-- The raw form. -/
def rawText (address : Address) : String :=
  toString (workchainOf address) ++ ":" ++ Keystore.encodeHex address.hashPart.val

/-- `hex_to_base64_address`. -/
def hexToBase64Address (lib : AddressLib) (hexStr : String) : Option String :=
  (tryParseHex hexStr).map (encodeBounceable lib)

/-- `base64_to_hex_address`. -/
def base64ToHexAddress (lib : AddressLib) (base64Str : String) : Option String :=
  (tryParseBase64 lib base64Str).map rawText

/-- `to_cell`. -/
def toCell (lib : HashLib) (address : Address) : Except TvmError Cell :=
  match storeAddress address CellBuilder.new with
  | .ok () builder => builder.build lib
  | .error e _ => .error e

/-- `BitReader::from_bits`. -/
def fromBits (bytes : List UInt8) (bitLen : ℕ) : Except TvmError BitReader :=
  if bitLen > bytes.length * 8 then .error ⟨"bit length exceeds input bytes"⟩
  else .ok ⟨bytes, bitLen, 0⟩

/-- What `from_cell` reads. -/
def readAddress : Read Address := do
  let tag ← readUint 2
  if tag = 0 then throw ⟨"address cell contains null address"⟩
  else if tag ≠ 0b10 then throw ⟨"address cell must contain std address"⟩
  else do
    let anycast ← readBit
    if anycast then throw ⟨"anycast addresses are not supported"⟩
    else do
      let workchain ← readU8
      let hashPart ← readArray 32
      pure (new (signedByte workchain.toNat) hashPart)

/-- `from_cell`. -/
def fromCell (cell : Cell) : Except TvmError Address := do
  let reader ← fromBits cell.data cell.bitLen
  let (address, _) ← readAddress reader
  .ok address

/-! ## What a text denotes -/

/-- The text is a raw form: a number of any size, a colon and the hex digits of a hash. -/
def IsRaw (text : String) (workchain : ℤ) (hashPart : FixedBytes 32) : Prop :=
  ∃ numeral digits, text.toList = numeral ++ ':' :: digits ∧ Numeral numeral workchain ∧
    decodeHexPairs digits = some hashPart.val

/-- The text is base64, in either alphabet, of the user-friendly form of an address. -/
def IsUserFriendly (lib : AddressLib) (text : String) (tag : UInt8) (address : Address) : Prop :=
  (isBounceable tag).isSome ∧
    (decodeBase64Url text = some (userFriendlyBytes lib address tag) ∨
      decodeBase64NoPad text = some (userFriendlyBytes lib address tag))

/-- **The workchain and the hash of a text.** -/
inductive Denotes (lib : AddressLib) (text : String) : ℤ → FixedBytes 32 → Prop where
  | userFriendly {tag : UInt8} {address : Address} (h : IsUserFriendly lib text tag address) :
    Denotes lib text (workchainOf address) address.hashPart
  | raw {workchain : ℤ} {hashPart : FixedBytes 32} (h : IsRaw text workchain hashPart) :
    Denotes lib text workchain hashPart

/-- The address comes back from each of its forms; an accepted text is read as what it denotes; and
two accepted texts are read as one address exactly if they denote the same. -/
structure Faithful (lib : AddressLib) (hashLib : HashLib) (address : Address) (s t : String) :
    Prop where
  bounceable : parseUserFriendly lib (encodeBounceable lib address) = some (address, true)
  nonBounceable : parseUserFriendly lib (encodeNonBounceable lib address) = some (address, false)
  parsed : tryParse lib (encodeBounceable lib address) = some address ∧
    tryParse lib (encodeNonBounceable lib address) = some address
  raw : tryParse lib (rawText address) = some address
  cell : (toCell hashLib address).bind fromCell = .ok address
  denoted : ∀ text ∈ [s, t], ∀ a, tryParse lib text = some a →
    Denotes lib text (workchainOf a) a.hashPart
  same : ∀ a b, tryParse lib s = some a → tryParse lib t = some b →
    (a = b ↔ ∃ workchain hashPart, Denotes lib s workchain hashPart ∧
      Denotes lib t workchain hashPart)

/-- The workchain of a raw text that is within 32 bits is within a byte. -/
def FitsByte (text : String) : Prop :=
  ∀ workchain hashPart, IsRaw text workchain hashPart → -2 ^ 31 ≤ workchain → workchain < 2 ^ 31 →
    -128 ≤ workchain ∧ workchain ≤ 127

/-! ## Cells -/

/-- A byte is the workchain of an address again. -/
lemma new_signedByte (b : UInt8) (hashPart : FixedBytes 32) :
    new (signedByte b.toNat) hashPart = ⟨b, hashPart⟩ := by
  obtain ⟨-, -, hbyte⟩ := parseI32_workchainOf ⟨b, hashPart⟩
  exact congrArg (fun workchain => (⟨workchain, hashPart⟩ : Address)) hbyte

/-- The bits of an address: its tag, no anycast, the workchain and the hash. -/
def bits (address : Address) : List Bool :=
  lowBits 2 0b10 ++ ([false] ++ (lowBits 8 address.workchain.toNat ++
    address.hashPart.val.flatMap fun b => lowBits 8 b.toNat))

lemma emits_storeAddress (address : Address) : Emits (storeAddress address) (bits address) :=
  (emits_storeU8 (by decide) (by decide)).seq ((emits_writeBit false).seq
    ((emits_storeU8 (by decide) address.workchain.toNat_lt).seq (emits_storeSlice _)))

lemma takes_readAddress (address : Address) : Takes readAddress (bits address) address := by
  have hhash : Takes (readArray 32 >>= fun hashPart =>
      (pure (new (signedByte address.workchain.toNat) hashPart) : Read Address))
      (address.hashPart.val.flatMap fun b => lowBits 8 b.toNat) address := by
    have hpure := takes_pure (new (signedByte address.workchain.toNat) address.hashPart)
    rw [new_signedByte] at hpure
    rw [← List.append_nil (address.hashPart.val.flatMap _)]
    refine (takes_readArray address.hashPart).bind ?_
    rw [new_signedByte]
    exact hpure
  exact (takes_readUint (by decide) (by decide)).bind ((takes_readBit false).bind
    ((takes_readU8 address.workchain).bind hhash))

lemma length_bits (address : Address) : (bits address).length = 267 := by
  have hbytes : ∀ bytes : List UInt8,
      (bytes.flatMap fun b => lowBits 8 b.toNat).length = bytes.length * 8 := fun bytes => by
    rw [← bitsOf_bytes, length_bitsOf]
  rw [bits, List.length_append, List.length_append, List.length_append, length_lowBits,
    length_lowBits, hbytes, address.hashPart.property]
  rfl

/-- **The cell of an address is read back.** -/
theorem fromCell_toCell (lib : HashLib) (address : Address) :
    (toCell lib address).bind fromCell = .ok address := by
  obtain ⟨cell, b, hcall, hbuild, hbits, -, hlength⟩ :=
    (emits_storeAddress address).build lib (by rw [length_bits]; decide)
  have hroom : ¬ cell.bitLen > cell.data.length * 8 := by
    rw [hlength, bytesFor]
    omega
  obtain ⟨r, hread, -⟩ := takes_readAddress address ⟨cell.data, cell.bitLen, 0⟩ [] (by
    rw [List.append_nil, ← hbits]
    rfl)
  have hcell : toCell lib address = .ok cell := by
    rw [toCell, hcall]
    exact hbuild
  show (toCell lib address >>= fromCell) = _
  rw [hcell, ok_bind, fromCell, fromBits, if_neg hroom, ok_bind, hread, ok_bind]

/-! ## Texts -/

variable {lib : AddressLib} {text : String}

/-- A raw text is one of one workchain and one hash. -/
lemma IsRaw.unique {z z' : ℤ} {hash hash' : FixedBytes 32} (h : IsRaw text z hash)
    (h' : IsRaw text z' hash') : z = z' ∧ hash = hash' := by
  obtain ⟨numeral, digits, htext, hnumeral, hdigits⟩ := h
  obtain ⟨numeral', digits', htext', hnumeral', hdigits'⟩ := h'
  obtain ⟨rfl, rfl⟩ := (append_separator_inj (fun hmem => hnumeral.ne_colon _ hmem rfl)
    (fun hmem => hnumeral'.ne_colon _ hmem rfl)).mp (htext.symm.trans htext')
  exact ⟨hnumeral.unique hnumeral',
    Subtype.ext (Option.some.inj (hdigits.symm.trans hdigits'))⟩

/-- `try_parse_hex` accepts the raw texts whose workchain is within 32 bits. -/
theorem tryParseHex_eq_some_iff {a : Address} :
    tryParseHex text = some a ↔ ∃ z hash, IsRaw text z hash ∧ (-2 ^ 31 ≤ z ∧ z < 2 ^ 31) ∧
      a = new z hash := by
  constructor
  · intro h
    obtain ⟨⟨numeral, digits⟩, hsplit, h⟩ := Option.bind_eq_some_iff.mp h
    obtain ⟨z, hz, h⟩ := Option.bind_eq_some_iff.mp h
    obtain ⟨hash, hhash, h⟩ := Option.bind_eq_some_iff.mp h
    obtain ⟨hnumeral, hrange⟩ := parseI32_eq_some_iff.mp hz
    rcases splitOnce_cases (· = ':') text.toList with ⟨hnone, -⟩ |
      ⟨before, c, after, htext, hc, -, hsome⟩
    · rw [hnone] at hsplit
      cases hsplit
    · rw [hsome] at hsplit
      cases hsplit
      rw [of_decide_eq_true hc] at htext
      split at h
      case isTrue hlength =>
        exact ⟨z, ⟨hash, hlength⟩, ⟨numeral, digits, htext, hnumeral, hhash⟩, hrange,
          (Option.some.inj h).symm⟩
      case isFalse => cases h
  · rintro ⟨z, hash, ⟨numeral, digits, htext, hnumeral, hdigits⟩, hrange, rfl⟩
    have hsplit : Lib.splitOnce (fun c => decide (c = ':')) (numeral ++ ':' :: digits) =
        some (numeral, digits) :=
      Lib.splitOnce_append (fun c hc => decide_eq_false (hnumeral.ne_colon c hc)) (by decide)
    have hz : parseI32 numeral = some z := parseI32_eq_some_iff.mpr ⟨hnumeral, hrange⟩
    rw [tryParseHex, htext, hsplit]
    simp only [Option.bind_eq_bind, Option.bind_some, hz, hdigits, dif_pos hash.property]

/-- A text of one form is not of the other. -/
lemma IsUserFriendly.not_isRaw {tag : UInt8} {a : Address} (h : IsUserFriendly lib text tag a)
    {z : ℤ} {hash : FixedBytes 32} : ¬IsRaw text z hash := by
  rintro ⟨numeral, digits, htext, -, -⟩
  have hcolon : ':' ∈ text.toList := by
    rw [htext]
    exact List.mem_append_right _ List.mem_cons_self
  have hurl : decodeBase64Url text = none := decodeBase64_eq_none (by decide) hcolon
  have hstandard : decodeBase64NoPad text = none := decodeBase64_eq_none (by decide) hcolon
  rw [IsUserFriendly, hurl, hstandard] at h
  rcases h.2 with h | h
  · cases h
  · cases h

/-- The bytes of the user-friendly form are those of one address. -/
lemma userFriendlyBytes_inj {a b : Address} {tag tag' : UInt8}
    (h : userFriendlyBytes lib a tag = userFriendlyBytes lib b tag') : a = b := by
  obtain ⟨-, h⟩ := List.cons.inj h
  obtain ⟨hworkchain, h⟩ := List.cons.inj h
  obtain ⟨hhash, -⟩ := List.append_inj h (by rw [a.hashPart.property, b.hashPart.property])
  cases a
  cases b
  exact congr (congrArg Address.mk hworkchain) (Subtype.ext hhash)

/-- A user-friendly text is one of one address. -/
lemma IsUserFriendly.unique {tag tag' : UInt8} {a b : Address}
    (h : IsUserFriendly lib text tag a) (h' : IsUserFriendly lib text tag' b) : a = b := by
  refine @userFriendlyBytes_inj lib a b tag tag' ?_
  rcases h.2 with hread | hread
  · rcases h'.2 with hread' | hread'
    · exact Option.some.inj (hread.symm.trans hread')
    · exact decodeBase64Url_eq_noPad hread hread'
  · rcases h'.2 with hread' | hread'
    · exact (decodeBase64Url_eq_noPad hread' hread).symm
    · exact Option.some.inj (hread.symm.trans hread')

/-- **A text denotes one workchain and one hash.** -/
theorem Denotes.unique {z z' : ℤ} {hash hash' : FixedBytes 32} (h : Denotes lib text z hash)
    (h' : Denotes lib text z' hash') : z = z' ∧ hash = hash' := by
  cases h with
  | userFriendly hform =>
    cases h' with
    | userFriendly hform' =>
      rw [hform.unique hform']
      exact ⟨rfl, rfl⟩
    | raw hraw => exact absurd hraw hform.not_isRaw
  | raw hraw =>
    cases h' with
    | userFriendly hform => exact absurd hraw hform.not_isRaw
    | raw hraw' => exact hraw.unique hraw'

/-- A user-friendly text is read as its address, with its flag. -/
lemma IsUserFriendly.parsed {tag : UInt8} {a : Address} (h : IsUserFriendly lib text tag a)
    {bounceable : Bool} (htag : isBounceable tag = some bounceable) :
    parseUserFriendly lib text = some (a, bounceable) := by
  refine parseUserFriendly_of_bytes htag ?_
  rcases h.2 with hread | hread
  · rw [hread, Option.some_or]
  · cases hurl : decodeBase64Url text with
    | none => rw [hread, Option.none_or]
    | some bytes => rw [Option.some_or, decodeBase64Url_eq_noPad hurl hread]

/-- `parse_user_friendly` accepts the user-friendly texts. -/
lemma isUserFriendly_of_parsed {a : Address} {bounceable : Bool}
    (h : parseUserFriendly lib text = some (a, bounceable)) :
    ∃ tag, IsUserFriendly lib text tag a := by
  obtain ⟨bytes, hbytes, h⟩ := Option.bind_eq_some_iff.mp h
  split at h
  case isFalse => cases h
  case isTrue hlength =>
    split at h
    case isFalse => cases h
    case isTrue hcrc =>
      obtain ⟨flag, htag, h⟩ := Option.bind_eq_some_iff.mp h
      obtain ⟨rfl, rfl⟩ := Prod.mk.inj (Option.some.inj h)
      -- the bytes are a tag, a workchain, the hash and the checksum of all these
      obtain ⟨tag, rest, rfl⟩ : ∃ tag rest, bytes = tag :: rest :=
        List.exists_cons_of_length_eq_add_one hlength
      obtain ⟨workchain, rest, rfl⟩ : ∃ workchain rest', rest = workchain :: rest' :=
        List.exists_cons_of_length_eq_add_one (Nat.succ.inj hlength)
      have hrest : rest.length = 34 := by
        rw [List.length_cons, List.length_cons, userFriendlyAddressLen] at hlength
        omega
      have htake : (tag :: workchain :: rest).take 34 = tag :: workchain :: rest.take 32 := rfl
      have hdrop : (tag :: workchain :: rest).drop 34 = rest.drop 32 := rfl
      rw [htake, hdrop] at hcrc
      have hcheck : beBytes 2 (lib.crc16 (tag :: workchain :: rest.take 32)).toNat =
          rest.drop 32 := by
        have hlen : (rest.drop 32).length = 2 := by rw [List.length_drop, hrest]
        rw [← hcrc, ← hlen, beBytes_ofBe]
      have hform : userFriendlyBytes lib ⟨workchain, ⟨rest.take 32, by
          rw [List.length_take, hrest]
          rfl⟩⟩ tag = tag :: workchain :: rest := by
        rw [userFriendlyBytes]
        dsimp only
        rw [hcheck, List.cons_append, List.cons_append, List.take_append_drop]
      refine ⟨tag, Option.isSome_iff_exists.mpr ⟨_, htag⟩, ?_⟩
      rw [show (⟨((tag :: workchain :: rest).drop 1).headD 0,
        ⟨((tag :: workchain :: rest).drop 2).take 32, _⟩⟩ : Address) =
          ⟨workchain, ⟨rest.take 32, _⟩⟩ from rfl, hform]
      exact Option.or_eq_some_iff.mp hbytes |>.imp_right And.right

/-- **The texts that are accepted**, and what they are read as. -/
theorem tryParse_cases {a : Address} :
    tryParse lib text = some a ↔ (∃ tag, IsUserFriendly lib text tag a) ∨
      ∃ z hash, IsRaw text z hash ∧ (-2 ^ 31 ≤ z ∧ z < 2 ^ 31) ∧ a = new z hash := by
  have hbase64 : tryParseBase64 lib text = some a ↔ ∃ tag, IsUserFriendly lib text tag a := by
    constructor
    · intro h
      obtain ⟨⟨b, bounceable⟩, hparsed, rfl⟩ := Option.map_eq_some_iff.mp h
      exact isUserFriendly_of_parsed hparsed
    · rintro ⟨tag, h⟩
      obtain ⟨bounceable, htag⟩ := Option.isSome_iff_exists.mp h.1
      rw [tryParseBase64, h.parsed htag]
      rfl
  rw [tryParse, Option.or_eq_some_iff, hbase64, tryParseHex_eq_some_iff]
  refine or_congr_right (and_iff_right_of_imp ?_)
  rintro ⟨z, hash, ⟨numeral, digits, htext, -, -⟩, -⟩
  exact tryParseBase64_of_colon (by rw [htext]; exact List.mem_append_right _ List.mem_cons_self)

/-! ## Reading what was written -/

/-- The user-friendly form of an address. -/
lemma isUserFriendly_encode (lib : AddressLib) (address : Address) (bounceable : Bool) :
    IsUserFriendly lib (encodeUserFriendly lib address bounceable) (tagOf bounceable) address ∧
      isBounceable (tagOf bounceable) = some bounceable := by
  have htag : isBounceable (tagOf bounceable) = some bounceable := by
    cases bounceable with
    | false => rfl
    | true => rfl
  exact ⟨⟨Option.isSome_iff_exists.mpr ⟨_, htag⟩, .inl (decodeBase64Url_encodeBase64Url _)⟩, htag⟩

/-- The raw form of an address. -/
lemma isRaw_rawText (address : Address) :
    IsRaw (rawText address) (workchainOf address) address.hashPart := by
  refine ⟨_, _, ?_, numeral_toString _, Keystore.decodeHexPairs_encodeHex _⟩
  rw [rawText, String.toList_append, String.toList_append, List.append_assoc]
  rfl

/-- The workchain of an address is a byte. -/
lemma workchainOf_range (address : Address) :
    -128 ≤ workchainOf address ∧ workchainOf address ≤ 127 := by
  have hlt := address.workchain.toNat_lt
  rw [workchainOf, signedByte]
  split <;> omega

/-- A workchain that fits into a byte is kept. -/
lemma workchainOf_new {z : ℤ} (hlow : -128 ≤ z) (hhigh : z ≤ 127) (hash : FixedBytes 32) :
    workchainOf (new z hash) = z := by
  have hbyte : (UInt8.ofNat (z % 256).toNat).toNat = (z % 256).toNat := by
    rw [UInt8.toNat_ofNat']
    omega
  show signedByte (UInt8.ofNat (z % 256).toNat).toNat = z
  rw [hbyte, signedByte]
  split <;> omega

lemma new_workchainOf (address : Address) :
    address = new (workchainOf address) address.hashPart :=
  (new_signedByte address.workchain address.hashPart).symm

/-- The raw form of an address is read back. -/
lemma tryParse_rawText (lib : AddressLib) (address : Address) :
    tryParse lib (rawText address) = some address := by
  have hrange := workchainOf_range address
  exact tryParse_cases.mpr (.inr ⟨_, _, isRaw_rawText address, by omega, new_workchainOf address⟩)

/-- An accepted text whose workchain fits into a byte is read as what it denotes. -/
theorem denotes_of_tryParse (hfits : FitsByte text) {a : Address}
    (h : tryParse lib text = some a) : Denotes lib text (workchainOf a) a.hashPart := by
  rcases tryParse_cases.mp h with ⟨tag, hform⟩ | ⟨z, hash, hraw, hrange, rfl⟩
  · exact .userFriendly hform
  · obtain ⟨hlow, hhigh⟩ := hfits z hash hraw hrange.1 hrange.2
    rw [workchainOf_new hlow hhigh]
    exact .raw hraw

/-- A text that is read as what it denotes has a workchain that fits into a byte. -/
theorem fitsByte_of_denotes
    (h : ∀ a, tryParse lib text = some a → Denotes lib text (workchainOf a) a.hashPart) :
    FitsByte text := by
  intro z hash hraw hlow hhigh
  have hdenoted := h _ (tryParse_cases.mpr (.inr ⟨z, hash, hraw, ⟨hlow, hhigh⟩, rfl⟩))
  obtain ⟨heq, -⟩ := (Denotes.raw hraw).unique hdenoted
  rw [heq]
  exact workchainOf_range _

/-- **When the forms of addresses denote one account**: every address comes back from each of its
forms, and texts are read as what they denote exactly if no raw one names a workchain that does not
fit into a byte.

**Proof sketch.** The cell of an address is written and read bit by bit, and the texts by their
grammar. `Address::new` keeps the workchain of a raw text modulo 256, which is the workchain itself
exactly between -128 and 127. -/
theorem faithful_iff (lib : AddressLib) (hashLib : HashLib) (address : Address) (s t : String) :
    Faithful lib hashLib address s t ↔ FitsByte s ∧ FitsByte t := by
  constructor
  · intro h
    exact ⟨fitsByte_of_denotes (h.denoted s List.mem_cons_self),
      fitsByte_of_denotes (h.denoted t (List.mem_cons_of_mem _ List.mem_cons_self))⟩
  · rintro ⟨hs, ht⟩
    obtain ⟨hbounceable, htrue⟩ := isUserFriendly_encode lib address true
    obtain ⟨hnonBounceable, hfalse⟩ := isUserFriendly_encode lib address false
    refine ⟨hbounceable.parsed htrue, hnonBounceable.parsed hfalse,
      ⟨tryParse_cases.mpr (.inl ⟨_, hbounceable⟩), tryParse_cases.mpr (.inl ⟨_, hnonBounceable⟩)⟩,
      tryParse_rawText lib address, fromCell_toCell hashLib address, ?_, ?_⟩
    · intro text htext a ha
      rcases List.mem_pair.mp htext with rfl | rfl
      · exact denotes_of_tryParse hs ha
      · exact denotes_of_tryParse ht ha
    · intro a b ha hb
      have hdenoted := denotes_of_tryParse hs ha
      have hdenoted' := denotes_of_tryParse ht hb
      constructor
      · rintro rfl
        exact ⟨_, _, hdenoted, hdenoted'⟩
      · rintro ⟨z, hash, hz, hz'⟩
        obtain ⟨hworkchain, hhash⟩ := hdenoted.unique hz
        obtain ⟨hworkchain', hhash'⟩ := hdenoted'.unique hz'
        rw [new_workchainOf a, new_workchainOf b, hworkchain, hworkchain', hhash, hhash']

/-- The raw form of the workchain 256 and the zero hash. -/
def overflowText : String :=
  "256:0000000000000000000000000000000000000000000000000000000000000000"

lemma isRaw_overflowText : IsRaw overflowText 256 (.zeros 32) :=
  ⟨(toString (256 : ℤ)).toList, List.replicate 64 '0', by decide +kernel, numeral_toString 256,
    by decide +kernel⟩

/-- The workchain 256 is read as the workchain 0. -/
theorem not_faithful_overflow :
    tryParse ⟨fun _ => 0⟩ overflowText = some ⟨0, .zeros 32⟩ ∧
      ¬Faithful ⟨fun _ => 0⟩ ⟨fun _ => List.replicate 32 0, fun _ => 0, fun _ => rfl⟩
        ⟨0, .zeros 32⟩ overflowText overflowText := by
  refine ⟨tryParse_cases.mpr (.inr ⟨256, .zeros 32, isRaw_overflowText, by decide, rfl⟩),
    fun h => ?_⟩
  have hfits := fitsByte_of_denotes (h.denoted overflowText List.mem_cons_self) 256 (.zeros 32)
    isRaw_overflowText (by decide) (by decide)
  exact absurd hfits.2 (by decide)

end GemCore.Ton.Address
