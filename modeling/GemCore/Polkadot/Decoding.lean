import GemCore.Polkadot.Transfer

/-!
# Reading a Polkadot transfer back

A reference reader of the extrinsics of a runtime, and what it reads in the bytes of an accepted
transfer. The reader takes the fields in the order of the SCALE codec: a length, the version byte,
the signer, the signature, the signed extensions and the call, with nothing left.

An era holds its phase in 12 bits, so that the phase of a period above 4096 is rounded down to a
multiple of the factor. The block hash of the signing payload is still that of the requested block,
so that the era starts there only if the block number is such a multiple.

## Main definitions

* `readExtrinsic` — the reference reader.
* `CompactExact` — compact integers are read back and shortest.
* `DecodesExactly` — a transfer is read back, with an era that starts at the requested block.

## Main results

* `readCompact_encodeCompactInteger`, `length_encodeCompactInteger_le`.
* `readExtrinsic_encode` — an accepted transfer is read back.
* `transfer_faithful_iff` — when the era starts at the requested block.
-/

namespace GemCore.Polkadot

open Lib Scale

/-! ## Compact integers -/

/-- The bytes of a large value are those up to its highest. -/
lemma bytesNeeded_spec {v : ℕ} (hv : v ≠ 0) (h : v < 2 ^ 128) :
    256 ^ (bytesNeeded v - 1) ≤ v ∧ v < 256 ^ bytesNeeded v ∧ bytesNeeded v ≤ 16 := by
  have hspec := length_dropWhile_beBytes hv (show v < 256 ^ 16 by norm_num; omega)
  have hbytes : (leBytes 16 v).reverse = beBytes 16 v := by
    rw [leBytes, List.reverse_reverse]
  rw [bytesNeeded, hbytes]
  generalize ((beBytes 16 v).dropWhile (· = 0)).length = n at hspec ⊢
  cases n with
  | zero =>
    rw [pow_zero] at hspec
    omega
  | succ n => exact hspec

/-- A value above 30 bits takes at least four bytes. -/
lemma four_le_bytesNeeded {v : ℕ} (hv : 2 ^ 30 ≤ v) (h : v < 2 ^ 128) : 4 ≤ bytesNeeded v := by
  obtain ⟨-, hlt, -⟩ := bytesNeeded_spec (show v ≠ 0 by omega) h
  by_contra hsmall
  have hpow : 256 ^ bytesNeeded v ≤ 256 ^ 3 := Nat.pow_le_pow_right (by decide) (by omega)
  omega

/-- The form of a compact integer, by the size of the value. -/
lemma encodeCompactInteger_cases {v : ℕ} (h : v < 2 ^ 128) :
    v < 2 ^ 6 ∧ encodeCompactInteger v = [UInt8.ofNat (v * 4)] ∨
      2 ^ 6 ≤ v ∧ v < 2 ^ 14 ∧ encodeCompactInteger v = leBytes 2 (v * 4 + 1) ∨
      2 ^ 14 ≤ v ∧ v < 2 ^ 30 ∧ encodeCompactInteger v = leBytes 4 (v * 4 + 2) ∨
      2 ^ 30 ≤ v ∧ encodeCompactInteger v =
        UInt8.ofNat ((bytesNeeded v - 4) * 4 + 3) :: leBytes (bytesNeeded v) v := by
  have hmode : ∀ {w mode : ℕ}, mode < 4 → w <<< 2 ||| mode = w * 4 + mode := by
    intro w mode hlt
    rw [← Nat.shiftLeft_add_eq_or_of_lt (show mode < 2 ^ 2 from hlt), Nat.shiftLeft_eq]
  have hzero : v <<< 2 = v * 4 := Nat.shiftLeft_eq v 2
  unfold encodeCompactInteger
  split_ifs with h6 h14 h30
  · exact .inl ⟨by omega, by rw [hzero]⟩
  · exact .inr (.inl ⟨by omega, by omega, by rw [hmode (by decide)]⟩)
  · exact .inr (.inr (.inl ⟨by omega, by omega, by rw [hmode (by decide)]⟩))
  · have hlarge : 2 ^ 30 ≤ v := by omega
    obtain ⟨-, -, hle⟩ := bytesNeeded_spec (show v ≠ 0 by omega) h
    refine .inr (.inr (.inr ⟨hlarge, ?_⟩))
    rw [take_leBytes hle, Nat.or_comm, hmode (by decide)]

/-- **A compact integer is read back**, whatever follows it. -/
theorem readCompact_encodeCompactInteger {v : ℕ} (h : v < 2 ^ 128) (rest : List UInt8) :
    readCompact (encodeCompactInteger v ++ rest) = some (v, rest) := by
  rcases encodeCompactInteger_cases h with ⟨hv, heq⟩ | ⟨-, hv, heq⟩ | ⟨-, hv, heq⟩ | ⟨hv, heq⟩
  · rw [heq, List.singleton_append]
    exact readCompact_one (by omega) rest
  · rw [heq]
    exact readCompact_word (.inl ⟨rfl, rfl⟩) (by omega) rest
  · rw [heq]
    exact readCompact_word (.inr ⟨rfl, rfl⟩) (by omega) rest
  · obtain ⟨-, hlt, hle⟩ := bytesNeeded_spec (show v ≠ 0 by omega) h
    rw [heq]
    exact readCompact_many (four_le_bytesNeeded hv h) (by omega) hlt rest

/-- **No form of a value is shorter**: any bytes that are read as the value are as many. -/
theorem length_encodeCompactInteger_le {v : ℕ} (h : v < 2 ^ 128) {bytes rest : List UInt8}
    (hread : readCompact bytes = some (v, rest)) :
    (encodeCompactInteger v).length + rest.length ≤ bytes.length := by
  obtain ⟨n, hlength, hforms⟩ := readCompact_bound hread
  rw [hlength]
  rcases encodeCompactInteger_cases h with ⟨hv, heq⟩ | ⟨hv, -, heq⟩ | ⟨hv, -, heq⟩ | ⟨hv, heq⟩
  · rw [heq, List.length_singleton]
    omega
  · rw [heq, length_leBytes]
    omega
  · rw [heq, length_leBytes]
    omega
  · obtain ⟨hlow, -, -⟩ := bytesNeeded_spec (show v ≠ 0 by omega) h
    rw [heq, List.length_cons, length_leBytes]
    have hmany : 5 ≤ n ∧ v < 256 ^ (n - 1) := by omega
    have hlt : bytesNeeded v - 1 < n - 1 :=
      (Nat.pow_lt_pow_iff_right (show 1 < 256 by decide)).mp (hlow.trans_lt hmany.2)
    omega

/-- A compact integer takes 17 bytes at most. -/
lemma length_encodeCompactInteger_le_17 {v : ℕ} (h : v < 2 ^ 128) :
    (encodeCompactInteger v).length ≤ 17 := by
  rcases encodeCompactInteger_cases h with ⟨-, heq⟩ | ⟨-, -, heq⟩ | ⟨-, -, heq⟩ | ⟨hv, heq⟩
  · rw [heq, List.length_singleton]
    decide
  · rw [heq, length_leBytes]
    decide
  · rw [heq, length_leBytes]
    decide
  · obtain ⟨-, -, hle⟩ := bytesNeeded_spec (show v ≠ 0 by omega) h
    rw [heq, List.length_cons, length_leBytes]
    omega

/-- Every value of 128 bits is read back from its compact form, and no form of it is shorter. -/
def CompactExact : Prop :=
  ∀ v < 2 ^ 128,
    (∀ rest, readCompact (encodeCompactInteger v ++ rest) = some (v, rest)) ∧
      ∀ bytes rest, readCompact bytes = some (v, rest) →
        (encodeCompactInteger v).length + rest.length ≤ bytes.length

lemma compactExact : CompactExact := fun _ hv =>
  ⟨readCompact_encodeCompactInteger hv, fun _ _ hread => length_encodeCompactInteger_le hv hread⟩

/-! ## Eras -/

/-- The period of an era is a power of two from 4 to 65536. -/
lemma roundedPeriod_eq_pow (period : ℕ) : ∃ k, 2 ≤ k ∧ k ≤ 16 ∧ roundedPeriod period = 2 ^ k := by
  have hclamp : ∀ c : ℕ, ∃ k, 2 ≤ k ∧ k ≤ 16 ∧ min (max (2 ^ c) 4) (2 ^ 16) = 2 ^ k := by
    intro c
    by_cases hlow : c ≤ 2
    · have hpow : 2 ^ c ≤ 2 ^ 2 := Nat.pow_le_pow_right (by decide) hlow
      exact ⟨2, le_rfl, by decide, by omega⟩
    by_cases hhigh : c ≤ 16
    · have hpow : 2 ^ 2 ≤ 2 ^ c := Nat.pow_le_pow_right (by decide) (by omega)
      have hpow' : 2 ^ c ≤ 2 ^ 16 := Nat.pow_le_pow_right (by decide) hhigh
      exact ⟨c, by omega, hhigh, by omega⟩
    · have hpow : 2 ^ 16 ≤ 2 ^ c := Nat.pow_le_pow_right (by decide) (by omega)
      exact ⟨16, by decide, le_rfl, by omega⟩
  unfold roundedPeriod checkedNextPowerOfTwo
  split_ifs
  · exact hclamp (Nat.clog 2 period)
  · exact ⟨16, by decide, le_rfl, rfl⟩

lemma trailingZeros_two_pow {k : ℕ} (h : 2 ≤ k) (h' : k ≤ 16) : trailingZeros (2 ^ k) = k := by
  interval_cases k <;> decide

/-- A period of the codec is its factor times at most 4096. -/
lemma two_pow_eq_quantizeFactor_mul {k : ℕ} (h : k ≤ 16) :
    ∃ m, 0 < m ∧ m ≤ 4096 ∧ 2 ^ k = quantizeFactor (2 ^ k) * m := by
  by_cases hsmall : k ≤ 12
  · have hpow : 2 ^ k ≤ 2 ^ 12 := Nat.pow_le_pow_right (by decide) hsmall
    have hfactor : quantizeFactor (2 ^ k) = 1 := by
      rw [quantizeFactor, Nat.shiftRight_eq_div_pow]
      have : 2 ^ k / 2 ^ 12 ≤ 1 := by
        rw [Nat.div_le_iff_le_mul_add_pred (by decide)]
        omega
      omega
    exact ⟨2 ^ k, Nat.two_pow_pos k, hpow, by rw [hfactor, one_mul]⟩
  · have hfactor : quantizeFactor (2 ^ k) = 2 ^ (k - 12) := by
      rw [quantizeFactor, Nat.shiftRight_eq_div_pow, Nat.pow_div (by omega) (by decide)]
      exact Nat.max_eq_left (Nat.one_le_two_pow)
    refine ⟨2 ^ 12, by decide, by decide, ?_⟩
    rw [hfactor, ← pow_add]
    congr 1
    omega

/-- **The era that is read**: the two bytes of an accepted era give its own period and phase, the
period is a power of two from 4 to 65536, and its first block is the requested one exactly if that
is a multiple of the factor. -/
theorem MortalEra.new_spec {period blockNumber : ℕ} {era : MortalEra}
    (h : MortalEra.new period blockNumber = .ok era) :
    (∀ rest, readEra (era.encode ++ rest) = some (.mortal era.period era.phase, rest)) ∧
      (∃ k, era.period = 2 ^ k) ∧ 4 ≤ era.period ∧ era.period ≤ 65536 ∧
      ((Era.mortal era.period era.phase).birth blockNumber = blockNumber ↔
        quantizeFactor (roundedPeriod period) ∣ blockNumber) := by
  obtain ⟨-, hnew⟩ := guard_eq_ok_iff.mp h
  obtain ⟨k, hk, hk', hperiod⟩ := roundedPeriod_eq_pow period
  obtain ⟨m, hm, hm', hfactors⟩ := two_pow_eq_quantizeFactor_mul hk'
  rw [← Except.ok.inj hnew]
  simp only [hperiod]
  rw [← quantizeFactor]
  have hfactor : 0 < quantizeFactor (2 ^ k) := Nat.lt_of_lt_of_le Nat.one_pos (Nat.le_max_right _ _)
  have hpos : 0 < 2 ^ k := Nat.two_pow_pos k
  have hunits : blockNumber % 2 ^ k / quantizeFactor (2 ^ k) < m := by
    rw [Nat.div_lt_iff_lt_mul hfactor, Nat.mul_comm, ← hfactors]
    exact Nat.mod_lt _ hpos
  refine ⟨?_, ⟨k, rfl⟩, ?_, ?_, ?_⟩
  · intro rest
    have hshift : 2 <<< (k - 1) = 2 ^ k := by
      rw [Nat.shiftLeft_eq, Nat.mul_comm, ← pow_succ, Nat.sub_add_cancel (by omega)]
    have hcode : min (max (k - 1) 1) 15 ||| (blockNumber % 2 ^ k / quantizeFactor (2 ^ k)) <<< 4 =
        k - 1 + blockNumber % 2 ^ k / quantizeFactor (2 ^ k) * 16 := by
      rw [show min (max (k - 1) 1) 15 = k - 1 by omega, Nat.or_comm,
        ← Nat.shiftLeft_add_eq_or_of_lt (show k - 1 < 2 ^ 4 by omega), Nat.shiftLeft_eq,
        Nat.add_comm]
    have hread := @readEra_mortal (k - 1) (blockNumber % 2 ^ k / quantizeFactor (2 ^ k))
      (by omega) (by omega) (by omega)
    rw [hshift] at hread
    simp only [MortalEra.encode, trailingZeros_two_pow hk hk']
    rw [← quantizeFactor, Nat.mul_div_cancel _ hfactor, hcode]
    refine hread ?_ rest
    exact (Nat.div_mul_le_self _ _).trans_lt (Nat.mod_lt _ hpos)
  · exact Nat.pow_le_pow_right (show 0 < 2 by decide) hk
  · exact Nat.pow_le_pow_right (show 0 < 2 by decide) hk'
  · have hbirth := @birth_eq_iff (quantizeFactor (2 ^ k)) m blockNumber hfactor hm
    rwa [← hfactors] at hbirth

/-! ## Extrinsics -/

/-- What the layout of an extrinsic depends on: whether accounts are written as multi-addresses,
and whether the extensions hold the mode of the metadata hash. -/
structure Runtime where
  multiAddress : Bool
  metadataHash : Bool

/-- The runtime of a version of the specification. -/
def Runtime.ofSpec (specVersion : ℕ) : Runtime := ⟨28 ≤ specVersion, 1002005 ≤ specVersion⟩

/-- A signed extrinsic with a transfer call. -/
structure Extrinsic where
  version : ℕ
  signer : List UInt8
  signature : List UInt8
  era : Era
  nonce : ℕ
  tip : ℕ
  pallet : UInt8
  function : UInt8
  destination : List UInt8
  value : ℕ

/-- Read a byte that must be the given one. -/
def readTag (tag : UInt8) : List UInt8 → Option (List UInt8)
  | [] => none
  | b :: rest => if b = tag then some rest else none

/-- Read a byte. -/
def readByte : List UInt8 → Option (UInt8 × List UInt8)
  | [] => none
  | b :: rest => some (b, rest)

/-- Read a byte that must be the given one, where the runtime has it. -/
def readTagIf (flag : Bool) (tag : UInt8) (bytes : List UInt8) : Option (List UInt8) :=
  if flag then readTag tag bytes else some bytes

/-- Read an account, which in a multi-address has the tag 0. -/
def readAccount (runtime : Runtime) (bytes : List UInt8) : Option (List UInt8 × List UInt8) :=
  (readTagIf runtime.multiAddress 0x00 bytes).bind (takeBytes 32)

/-- Read the version byte, whose high bit is set in a signed extrinsic. -/
def readVersion (bytes : List UInt8) : Option (ℕ × List UInt8) := do
  let (first, bytes) ← readByte bytes
  if 128 ≤ first.toNat then some (first.toNat - 128, bytes) else none

/-- Read a signature, which has the tag 0 if it is one of Ed25519. -/
def readSignature (bytes : List UInt8) : Option (List UInt8 × List UInt8) :=
  (readTag 0x00 bytes).bind (takeBytes 64)

/-- Read the signed extensions: the era, the nonce and the tip. No asset is given for the fee, and
the mode of the metadata hash is off. -/
def readExtra (runtime : Runtime) (bytes : List UInt8) :
    Option ((Era × ℕ × ℕ) × List UInt8) := do
  let (era, bytes) ← readEra bytes
  let (nonce, bytes) ← readCompact bytes
  let (tip, bytes) ← readCompact bytes
  let bytes ← readTag 0x00 bytes
  let bytes ← readTagIf runtime.metadataHash 0x00 bytes
  some ((era, nonce, tip), bytes)

/-- Read a call of a transfer: the indices of its pallet and function, destination and value. -/
def readCall (runtime : Runtime) (bytes : List UInt8) :
    Option ((UInt8 × UInt8 × List UInt8 × ℕ) × List UInt8) := do
  let (pallet, bytes) ← readByte bytes
  let (function, bytes) ← readByte bytes
  let (destination, bytes) ← readAccount runtime bytes
  let (value, bytes) ← readCompact bytes
  some ((pallet, function, destination, value), bytes)

/-- Read the body of an extrinsic, with nothing left. -/
def readBody (runtime : Runtime) (bytes : List UInt8) : Option Extrinsic := do
  let (version, bytes) ← readVersion bytes
  let (signer, bytes) ← readAccount runtime bytes
  let (signature, bytes) ← readSignature bytes
  let ((era, nonce, tip), bytes) ← readExtra runtime bytes
  let ((pallet, function, destination, value), bytes) ← readCall runtime bytes
  if bytes = [] then
    some ⟨version, signer, signature, era, nonce, tip, pallet, function, destination, value⟩
  else none

/-- Read an extrinsic: its length, and exactly as many bytes. -/
def readExtrinsic (runtime : Runtime) (bytes : List UInt8) : Option Extrinsic := do
  let (length, body) ← readCompact bytes
  if length = body.length then readBody runtime body else none

lemma readTag_self (tag : UInt8) (rest : List UInt8) : readTag tag (tag :: rest) = some rest :=
  if_pos rfl

/-- What the mode of the metadata hash takes of the extensions. -/
lemma readTagIf_append (flag : Bool) (rest : List UInt8) :
    readTagIf flag 0x00 ((if flag then [0x00] else []) ++ rest) = some rest := by
  cases flag <;> rfl

lemma readAccount_append {runtime : Runtime} {account : FixedBytes 32}
    (rest : List UInt8) :
    readAccount runtime (encodeMultiAddress account.val runtime.multiAddress ++ rest) =
      some (account.val, rest) := by
  have htake := takeBytes_append rest account.property
  unfold readAccount encodeMultiAddress
  cases runtime.multiAddress with
  | false | true => exact htake

/-- The version byte of a signed extrinsic of version 4. -/
lemma readVersion_signed (rest : List UInt8) : readVersion (0x84 :: rest) = some (4, rest) := rfl

lemma readSignature_append (signature : FixedBytes 64) (rest : List UInt8) :
    readSignature (0x00 :: signature.val ++ rest) = some (signature.val, rest) := by
  rw [List.cons_append, readSignature, readTag_self]
  exact takeBytes_append rest signature.property

/-- The signed extensions are read back. -/
lemma readExtra_append {runtime : Runtime} {period blockNumber sequence : ℕ} {era : MortalEra}
    (hera : MortalEra.new period blockNumber = .ok era) (hsequence : sequence < 2 ^ 128)
    (rest : List UInt8) :
    readExtra runtime (era.encode ++ encodeCompactInteger sequence ++ encodeCompactInteger 0 ++
        [0x00] ++ (if runtime.metadataHash then [0x00] else []) ++ rest) =
      some ((.mortal era.period era.phase, sequence, 0), rest) := by
  have htip := @readCompact_encodeCompactInteger 0 (by decide)
  have hnonce := @readCompact_encodeCompactInteger sequence hsequence
  simp only [List.append_assoc, List.singleton_append]
  rw [readExtra, (MortalEra.new_spec hera).1]
  simp only [Option.bind_eq_bind, Option.bind_some, hnonce, htip, List.cons_append, readTag_self,
    readTagIf_append]

/-- The call of a transfer is read back. -/
lemma readCall_append {runtime : Runtime} {destination : FixedBytes 32} {value : ℕ}
    (hvalue : value < 2 ^ 128) (rest : List UInt8) :
    readCall runtime (encodeCall destination.val value runtime.multiAddress ++ rest) =
      some ((0x0a, 0x00, destination.val, value), rest) := by
  have hread := @readCompact_encodeCompactInteger value hvalue
  rw [encodeCall, List.append_assoc, List.append_assoc]
  simp only [List.cons_append, List.nil_append, readCall, readByte, Option.bind_eq_bind,
    Option.bind_some, readAccount_append, hread]

variable {lib : PolkadotLib}

/-- What an accepted transfer is built of. -/
lemma fromInput_spec {input : Input} {metadata : PolkadotMetadata}
    {signer : FixedBytes 32} {transaction : NativeTransferTransaction}
    (hmetadata : input.metadata = .polkadot metadata)
    (h : fromInput lib input signer = .ok transaction) :
    ∃ era destination, MortalEra.new metadata.period metadata.blockNumber = .ok era ∧
      parseAddress lib input.destinationAddress = .ok destination ∧ input.value < 2 ^ 128 ∧
      decodeHash lib metadata.blockHash = .ok transaction.signingPayload.blockHash ∧
      transaction.call = encodeCall destination.val input.value
        (Runtime.ofSpec metadata.specVersion).multiAddress ∧
      transaction.extra = era.encode ++ encodeCompactInteger metadata.sequence ++
        encodeCompactInteger 0 ++ [0x00] ++
        (if (Runtime.ofSpec metadata.specVersion).metadataHash then [0x00] else []) ∧
      transaction.signerAccountId = signer ∧
      transaction.usesMultiAddress = (Runtime.ofSpec metadata.specVersion).multiAddress := by
  obtain ⟨parameters, hparameters, h⟩ := bind_eq_ok_iff.mp h
  obtain ⟨destination, hdestination, h⟩ := bind_eq_ok_iff.mp h
  obtain ⟨hvalue, h⟩ := guard_eq_ok_iff.mp h
  rw [NativeTransferParameters.fromInput, hmetadata] at hparameters
  obtain ⟨specVersion, hspec, hparameters⟩ := bind_eq_ok_iff.mp hparameters
  obtain ⟨era, hera, hparameters⟩ := bind_eq_ok_iff.mp hparameters
  obtain ⟨payload, hpayload, hparameters⟩ := bind_eq_ok_iff.mp hparameters
  have hsame : metadata.specVersion = specVersion := by
    unfold tryU32 at hspec
    split_ifs at hspec
    exact Except.ok.inj hspec
  obtain ⟨version, -, hpayload⟩ := bind_eq_ok_iff.mp hpayload
  obtain ⟨genesis, -, hpayload⟩ := bind_eq_ok_iff.mp hpayload
  obtain ⟨block, hblock, hpayload⟩ := bind_eq_ok_iff.mp hpayload
  subst hsame
  rw [← Except.ok.inj h, ← Except.ok.inj hparameters, ← Except.ok.inj hpayload]
  exact ⟨era, destination, hera, hdestination, by omega, hblock, rfl, rfl, rfl, rfl⟩

lemma length_encodeMultiAddress_le (account : FixedBytes 32) (usesMultiAddress : Bool) :
    (encodeMultiAddress account.val usesMultiAddress).length ≤ 33 := by
  have haccount := account.property
  unfold encodeMultiAddress
  split_ifs
  · rw [List.length_cons]
    omega
  · omega

/-- **An accepted transfer is read back**: under any signature the extrinsic has its length, and its
fields are the signer, the signature, the era, the sequence, no tip, and the call with destination
and value. -/
theorem readExtrinsic_encode {runtime : Runtime} {transaction : NativeTransferTransaction}
    {period blockNumber sequence value : ℕ} {era : MortalEra} {destination : FixedBytes 32}
    (hera : MortalEra.new period blockNumber = .ok era) (hsequence : sequence < 2 ^ 128)
    (hvalue : value < 2 ^ 128)
    (hcall : transaction.call = encodeCall destination.val value runtime.multiAddress)
    (hextra : transaction.extra = era.encode ++ encodeCompactInteger sequence ++
      encodeCompactInteger 0 ++ [0x00] ++ (if runtime.metadataHash then [0x00] else []))
    (haddress : transaction.usesMultiAddress = runtime.multiAddress)
    (signature : FixedBytes 64) :
    readExtrinsic runtime (transaction.encode signature) =
      some ⟨4, transaction.signerAccountId.val, signature.val, .mortal era.period era.phase,
        sequence, 0, 0x0a, 0x00, destination.val, value⟩ := by
  have hbody : transaction.body signature = 0x84 ::
      (encodeMultiAddress transaction.signerAccountId.val runtime.multiAddress ++
        (0x00 :: signature.val ++ (transaction.extra ++ (transaction.call ++ [])))) := by
    simp only [NativeTransferTransaction.body, haddress, List.append_assoc, List.cons_append,
      List.nil_append, List.append_nil]
  have hlength : (transaction.body signature).length < 2 ^ 128 := by
    have hsigner := length_encodeMultiAddress_le transaction.signerAccountId runtime.multiAddress
    have hdestination := length_encodeMultiAddress_le destination runtime.multiAddress
    have hnonce := length_encodeCompactInteger_le_17 hsequence
    have hamount := length_encodeCompactInteger_le_17 hvalue
    have htip := length_encodeCompactInteger_le_17 (show 0 < 2 ^ 128 by decide)
    have htwo : era.encode.length = 2 := length_leBytes _ _
    have hmode : (if runtime.metadataHash then [(0x00 : UInt8)] else []).length ≤ 1 := by
      split <;> decide
    have hsignature := signature.property
    rw [hbody, hcall, hextra, encodeCall]
    simp only [List.length_cons, List.length_append, List.length_nil]
    omega
  rw [readExtrinsic, NativeTransferTransaction.encode, readCompact_encodeCompactInteger hlength]
  simp only [Option.bind_eq_bind, Option.bind_some, if_true]
  rw [hbody, readBody, readVersion_signed]
  simp only [Option.bind_eq_bind, Option.bind_some, readAccount_append, readSignature_append]
  rw [hextra, readExtra_append hera hsequence, hcall]
  simp only [Option.bind_some, readCall_append hvalue, if_true]

/-- The transfer is read back exactly, and its era is a mortal one of the codec that starts at the
requested block, whose hash is in the payload that is signed. -/
def DecodesExactly (lib : PolkadotLib) (input : Input) (metadata : PolkadotMetadata)
    (signer : FixedBytes 32) (transaction : NativeTransferTransaction)
    (signature : FixedBytes 64) : Prop :=
  ∃ destination period phase,
    parseAddress lib input.destinationAddress = .ok destination ∧
    readExtrinsic (Runtime.ofSpec metadata.specVersion) (transaction.encode signature) =
      some ⟨4, signer.val, signature.val, .mortal period phase, metadata.sequence, 0, 0x0a, 0x00,
        destination.val, input.value⟩ ∧
    (∃ k, period = 2 ^ k) ∧ 4 ≤ period ∧ period ≤ 65536 ∧
    decodeHash lib metadata.blockHash = .ok transaction.signingPayload.blockHash ∧
    (Era.mortal period phase).birth metadata.blockNumber = metadata.blockNumber

/-- An accepted transfer is read back exactly, with an era that starts at the requested block, if the
block number is a multiple of the factor of the period, and only then.

**Proof sketch.** The extrinsic is read back by `readExtrinsic_encode`, so that the era of
`DecodesExactly` can only be the one `MortalEra.new` made; `MortalEra.new_spec` tells its period and
when it starts at the requested block. -/
theorem decodesExactly_iff {input : Input} {metadata : PolkadotMetadata}
    {signer : FixedBytes 32} {transaction : NativeTransferTransaction}
    (hmetadata : input.metadata = .polkadot metadata) (hsequence : metadata.sequence < 2 ^ 64)
    (h : fromInput lib input signer = .ok transaction) (signature : FixedBytes 64) :
    DecodesExactly lib input metadata signer transaction signature ↔
      max (roundedPeriod metadata.period >>> 12) 1 ∣ metadata.blockNumber := by
  obtain ⟨era, destination, hera, hdestination, hvalue, hhash, hcall, hextra, rfl, haddress⟩ :=
    fromInput_spec hmetadata h
  obtain ⟨-, hpow, hmin, hmax, hbirth⟩ := MortalEra.new_spec hera
  have hread := readExtrinsic_encode hera (show metadata.sequence < 2 ^ 128 by omega) hvalue hcall
    hextra haddress signature
  constructor
  · rintro ⟨destination', period, phase, -, hread', -, -, -, -, hstart⟩
    rw [hread, Option.some.injEq, Extrinsic.mk.injEq, Era.mortal.injEq] at hread'
    obtain ⟨-, -, -, ⟨rfl, rfl⟩, -⟩ := hread'
    exact hbirth.mp hstart
  · intro hdvd
    exact ⟨destination, era.period, era.phase, hdestination, hread, hpow, hmin, hmax, hhash,
      hbirth.mpr hdvd⟩

/-- **When an accepted transfer is exact**: compact integers always are, and so is the extrinsic; the
era starts at the requested block exactly if the block number is a multiple of the factor of its
period. -/
theorem transfer_faithful_iff {input : Input} {metadata : PolkadotMetadata}
    {signer : FixedBytes 32} {transaction : NativeTransferTransaction}
    (hmetadata : input.metadata = .polkadot metadata) (hsequence : metadata.sequence < 2 ^ 64)
    (h : fromInput lib input signer = .ok transaction) (signature : FixedBytes 64) :
    (CompactExact ∧ DecodesExactly lib input metadata signer transaction signature) ↔
      max (roundedPeriod metadata.period >>> 12) 1 ∣ metadata.blockNumber := by
  rw [decodesExactly_iff hmetadata hsequence h signature]
  exact and_iff_right compactExact

/-- The account of the sample. -/
def sampleAccount : FixedBytes 32 :=
  ⟨[0xcd, 0x3c, 0xfb, 0xba, 0xa8, 0xf2, 0x17, 0xc2, 0xa2, 0x9c, 0xea, 0xe4, 0xb4, 0x06, 0x3b, 0x59,
    0x7b, 0x62, 0x98, 0x61, 0x91, 0x6b, 0xad, 0x98, 0xf9, 0x82, 0x6e, 0x03, 0xd1, 0xab, 0x12, 0x0e], rfl⟩

/-- The hash of the checksum of the sample's address. -/
def sampleLib : PolkadotLib where
  blake2b256 := fun _ => .zeros 32
  blake2b512 := fun data =>
    if data = "SS58PRE".toUTF8.data.toList ++ 0 :: sampleAccount.val then
      ⟨[0x62, 0x02, 0x52, 0x36, 0x7b, 0xb2, 0x64, 0xd1, 0x04, 0xc3, 0x7d, 0x44, 0xcf, 0x6b, 0x38, 0xbd,
        0xcb, 0x23, 0xd0, 0x5b, 0xfc, 0x2b, 0x02, 0xad, 0xc0, 0x6b, 0x94, 0x2d, 0x71, 0xfb, 0x2b, 0x5f,
        0x04, 0x6e, 0xeb, 0x80, 0x1f, 0x9c, 0x62, 0x75, 0xf0, 0x67, 0x94, 0xbc, 0x37, 0xd2, 0xea, 0x3f,
        0xf8, 0xa2, 0xcd, 0x52, 0xa9, 0xe0, 0x6c, 0xc7, 0xe2, 0x9c, 0xa8, 0x2c, 0x2a, 0x98, 0x49, 0x1e], rfl⟩
    else .zeros 64
  hexError := fun _ => "Invalid hex string"

/-- The metadata of the sample, with a period. -/
def sampleMetadata (period : ℕ) : PolkadotMetadata where
  sequence := 0
  genesisHash := "0x91b171bb158e2d3848fa23a9f1c25182fb8e20313b2c1eb49219da7a70ce90c3"
  blockHash := "0x6e3ffeaa3be9d19bd110e5b6e7cbbc92cceed0d2ec557276c296bf7970ace2e5"
  blockNumber := 24666537
  specVersion := 1003004
  transactionVersion := 26
  period := period

/-- A transfer of the sample's account to itself. -/
def sampleInput (period : ℕ) : Input where
  destinationAddress := "15e6w4u9nH4Tb9HdJco2Zua4y5DpHb1hHXBKBGkUrLMTpuXo"
  value := 10000
  metadata := .polkadot (sampleMetadata period)

/-- The transaction of the sample, with an era. -/
def sampleTransaction (era : MortalEra) : NativeTransferTransaction where
  call := encodeCall sampleAccount.val 10000 true
  extra := era.encode ++ [0, 0, 0, 0]
  signerAccountId := sampleAccount
  usesMultiAddress := true
  signingPayload := ⟨1003004, 26,
    ⟨[0x91, 0xb1, 0x71, 0xbb, 0x15, 0x8e, 0x2d, 0x38, 0x48, 0xfa, 0x23, 0xa9, 0xf1, 0xc2, 0x51, 0x82,
      0xfb, 0x8e, 0x20, 0x31, 0x3b, 0x2c, 0x1e, 0xb4, 0x92, 0x19, 0xda, 0x7a, 0x70, 0xce, 0x90, 0xc3], rfl⟩,
    ⟨[0x6e, 0x3f, 0xfe, 0xaa, 0x3b, 0xe9, 0xd1, 0x9b, 0xd1, 0x10, 0xe5, 0xb6, 0xe7, 0xcb, 0xbc, 0x92,
      0xcc, 0xee, 0xd0, 0xd2, 0xec, 0x55, 0x72, 0x76, 0xc2, 0x96, 0xbf, 0x79, 0x70, 0xac, 0xe2, 0xe5], rfl⟩⟩

/-- A signature of the sample. -/
def sampleSignature : FixedBytes 64 := ⟨List.replicate 64 0xab, rfl⟩

example : (sampleTransaction ⟨64, 41⟩).extra = [0x95, 0x02, 0x00, 0x00, 0x00, 0x00] := by decide

theorem transfer_faithful_iff_sample :
    fromInput sampleLib (sampleInput 64) sampleAccount = .ok (sampleTransaction ⟨64, 41⟩) ∧
      ((CompactExact ∧ DecodesExactly sampleLib (sampleInput 64) (sampleMetadata 64) sampleAccount
          (sampleTransaction ⟨64, 41⟩) sampleSignature) ↔
        max (roundedPeriod 64 >>> 12) 1 ∣ 24666537) := by
  have h : fromInput sampleLib (sampleInput 64) sampleAccount =
      .ok (sampleTransaction ⟨64, 41⟩) := by decide +kernel
  exact ⟨h, transfer_faithful_iff rfl (by decide) h sampleSignature⟩

/-- With a period of 8192 the phase is rounded down to an even number: the era of an odd block starts
one block before the one whose hash is signed. -/
theorem transfer_not_faithful :
    fromInput sampleLib (sampleInput 8192) sampleAccount = .ok (sampleTransaction ⟨8192, 424⟩) ∧
      (readExtrinsic (Runtime.ofSpec 1003004)
        ((sampleTransaction ⟨8192, 424⟩).encode sampleSignature)).map Extrinsic.era =
          some (.mortal 8192 424) ∧
      (Era.mortal 8192 424).birth 24666537 = 24666536 ∧
      ¬DecodesExactly sampleLib (sampleInput 8192) (sampleMetadata 8192) sampleAccount
        (sampleTransaction ⟨8192, 424⟩) sampleSignature := by
  have h : fromInput sampleLib (sampleInput 8192) sampleAccount =
      .ok (sampleTransaction ⟨8192, 424⟩) := by decide +kernel
  refine ⟨h, by decide +kernel, by decide, ?_⟩
  rw [decodesExactly_iff rfl (by decide) h sampleSignature]
  decide +kernel

end GemCore.Polkadot
