import GemCore.Lib.Result
import GemCore.Primitives.SignerError

/-!
# Addresses and scripts of the Bitcoin-family chains

From an address text to the script that pays it, for each of the five chains
(`gem_bitcoin/src/signer/address`). The text decoders (base58check, bech32, cashaddr and the
mainnet address parser) and the script primitives are third-party code; they are the fields
of `ScriptLib`.

## Main definitions

* `ScriptLib` — the third-party functions the signer calls.
* `scriptForAddress` — the script an address stands for.
* `opReturnData` — the data a script of the form `OP_RETURN <push>` carries.
-/

namespace GemCore.Bitcoin

/-- A script, as its bytes (`ScriptBuf`). -/
abbrev Script := List UInt8

/-- `BitcoinChain`: the chains this crate signs for. -/
inductive BitcoinChain where
  | bitcoin
  | bitcoinCash
  | litecoin
  | doge
  | zcash
  deriving DecidableEq

/-- The text `BitcoinChain::get_chain` is displayed as. -/
def BitcoinChain.name : BitcoinChain → String
  | bitcoin => "bitcoin"
  | bitcoinCash => "bitcoincash"
  | litecoin => "litecoin"
  | doge => "doge"
  | zcash => "zcash"

/-- `BitcoinChain::minimum_byte_fee`. -/
def BitcoinChain.minimumByteFee : BitcoinChain → ℕ
  | bitcoin => 1
  | bitcoinCash => 5
  | litecoin => 5
  | doge => 1000
  | zcash => 1

/-- `LockingScript`: the output types the signer recognises. -/
inductive LockingScript where
  | p2pkh
  | p2sh
  | p2wpkh
  | p2wsh
  | p2tr

/-- `UnlockingScript`: the output types the signer can spend. -/
inductive UnlockingScript where
  | p2pkh
  | p2wpkh
  deriving DecidableEq

/-- The types of a segwit address that the mainnet parser distinguishes and the signer
accepts. -/
inductive SegwitType where
  | p2wpkh
  | p2wsh
  | p2tr

/-- `AddressData` of the mainnet parser, with the type it finds for a segwit address. -/
inductive AddressData where
  | p2pkh
  | p2sh
  | segwit (type : Option SegwitType)
  | other

/-- The hash type of a decoded Bitcoin Cash address. -/
inductive CashHashType where
  | key
  | script

/-- A decoded Bitcoin Cash address. -/
structure CashAddress where
  isMain : Bool
  body : List UInt8
  hashType : CashHashType

/-- The third-party functions of the signer: text decoders and script primitives.

`push_short` and `push_pushdata1` are the documented layout of a data push in a script: up to
75 bytes behind their own length, up to 255 bytes behind `OP_PUSHDATA1` and the length. -/
structure ScriptLib where
  /-- `Address::from_str` and `require_network(Network::Bitcoin)`. -/
  decodeMainnet : String → Except String (Script × AddressData)
  /-- `bs58::decode(_).with_check(None)`. -/
  decodeBase58Check : String → Except String (List UInt8)
  /-- `bech32::segwit::decode`: human-readable part, witness version and program. -/
  decodeSegwit : String → Option (String × ℕ × List UInt8)
  /-- `CashAddress::decode`: on failure the cashaddr and the base58 error. -/
  decodeCash : String → Except (String × String) CashAddress
  /-- `Txid::from_str`. -/
  decodeTxid : String → Option (List UInt8)
  /-- `Builder::push_slice`: the bytes it appends. -/
  pushSlice : List UInt8 → List UInt8
  /-- `Script::minimal_non_dust`, in satoshi. -/
  minimalNonDust : Script → ℕ
  /-- `Script::is_op_return`. -/
  isOpReturn : Script → Bool
  /-- `Script::is_p2pkh`. -/
  isP2pkh : Script → Bool
  /-- `Script::is_p2wpkh`. -/
  isP2wpkh : Script → Bool
  push_short : ∀ data : List UInt8, data.length ≤ 75 →
    pushSlice data = UInt8.ofNat data.length :: data
  push_pushdata1 : ∀ data : List UInt8, 75 < data.length → data.length < 256 →
    pushSlice data = 0x4c :: UInt8.ofNat data.length :: data

variable (lib : ScriptLib)

/-! ## Script templates -/

/-- The opcode `OP_RETURN`. -/
def opReturn : UInt8 := 0x6a

/-- `p2pkh_script`. -/
def p2pkhScript (hash : List UInt8) : Script :=
  [0x76, 0xa9] ++ lib.pushSlice hash ++ [0x88, 0xac]

/-- `p2sh_script`. -/
def p2shScript (hash : List UInt8) : Script :=
  [0xa9] ++ lib.pushSlice hash ++ [0x87]

/-- `p2wpkh_script` and `p2wsh_script`, which differ in the length of the program only. -/
def witnessV0Script (program : List UInt8) : Script :=
  [0x00] ++ lib.pushSlice program

/-- `p2tr_script`. -/
def p2trScript (outputKey : List UInt8) : Script :=
  [0x51] ++ lib.pushSlice outputKey

/-- The data of a script `OP_RETURN <push>`: what a scanner of the chain reads back. The
push is read as the script format lays it out, direct up to 75 bytes and behind
`OP_PUSHDATA1` above. -/
def opReturnData : Script → Option (List UInt8)
  | 0x6a :: 0x4c :: n :: data => if data.length = n.toNat then some data else none
  | 0x6a :: n :: data =>
    if n.toNat ≤ 75 ∧ data.length = n.toNat then some data else none
  | _ => none

/-- The scanner reads back exactly the data that was pushed behind `OP_RETURN`, for data of
up to 255 bytes. -/
theorem opReturnData_push (data : List UInt8) (h : data.length < 256) :
    opReturnData (opReturn :: lib.pushSlice data) = some data := by
  have hn : (UInt8.ofNat data.length).toNat = data.length := by
    rw [UInt8.toNat_ofNat']
    exact Nat.mod_eq_of_lt h
  by_cases hs : data.length ≤ 75
  · rw [lib.push_short data hs]
    have hne : UInt8.ofNat data.length ≠ 0x4c := by
      intro he
      have := congrArg UInt8.toNat he
      rw [hn] at this
      simp at this
      omega
    have hread : opReturnData (opReturn :: UInt8.ofNat data.length :: data) =
        if (UInt8.ofNat data.length).toNat ≤ 75 ∧
          data.length = (UInt8.ofNat data.length).toNat then some data else none := by
      unfold opReturnData opReturn
      split
      · rename_i heq
        simp only [List.cons.injEq, true_and] at heq
        exact absurd heq.1 hne
      · rename_i heq
        simp only [List.cons.injEq, true_and] at heq
        obtain ⟨rfl, rfl⟩ := heq
        rfl
      · rename_i hno
        exact absurd rfl (hno _ _)
    rw [hread, hn, if_pos ⟨hs, rfl⟩]
  · rw [lib.push_pushdata1 data (by omega) h]
    simp only [opReturn, opReturnData]
    rw [hn, if_pos rfl]

/-! ## Address decoding -/

/-- `AddressScript`: the script of an address and its type. -/
structure AddressScript where
  scriptPubkey : Script
  lockingScript : LockingScript

/-- `AddressScript::public_key_hash`: the 20 bytes a spendable script commits to. -/
def AddressScript.publicKeyHash (address : AddressScript) : Option (List UInt8) :=
  let slice (offset : ℕ) : Option (List UInt8) :=
    if offset + 20 ≤ address.scriptPubkey.length then
      some ((address.scriptPubkey.drop offset).take 20)
    else none
  match address.lockingScript with
  | .p2pkh => if lib.isP2pkh address.scriptPubkey then slice 3 else none
  | .p2wpkh => if lib.isP2wpkh address.scriptPubkey then slice 2 else none
  | .p2sh | .p2wsh | .p2tr => none

/-- `AddressScript::unlocking_script`. -/
def AddressScript.unlockingScript (address : AddressScript) : Option UnlockingScript :=
  match address.lockingScript, address.publicKeyHash lib with
  | .p2pkh, some _ => some .p2pkh
  | .p2wpkh, some _ => some .p2wpkh
  | _, _ => none

/-- `SignerError::from_display`. -/
def fromDisplay {α : Type} : Except String α → Except SignerError α
  | .ok a => .ok a
  | .error message => .error (.invalidInput message)

/-- `hash20`, and the same conversion at 32 bytes. -/
def hashOfLength (length : ℕ) (bytes : List UInt8) : Except SignerError (List UInt8) :=
  if bytes.length = length then .ok bytes
  else .error (.invalidInput "could not convert slice to array")

/-- `AddressScript::from_segwit`. -/
def fromSegwit (version : ℕ) (program : List UInt8) : Except SignerError AddressScript :=
  if version = 0 ∧ program.length = 20 then .ok ⟨witnessV0Script lib program, .p2wpkh⟩
  else if version = 0 ∧ program.length = 32 then .ok ⟨witnessV0Script lib program, .p2wsh⟩
  else if version = 1 ∧ program.length = 32 then .ok ⟨p2trScript lib program, .p2tr⟩
  else .error (.invalidInput "unsupported segwit address type")

/-- The base58 half of `AddressScript::from_prefixed_address`. -/
def fromBase58 (address : String) (p2pkhVersions p2shVersions : List UInt8) :
    Except SignerError AddressScript := do
  let payload ← fromDisplay (lib.decodeBase58Check address)
  match payload with
  | [] => .error (.invalidInput "invalid base58 address")
  | version :: rest =>
    let hash ← hashOfLength 20 rest
    if version ∈ p2pkhVersions then .ok ⟨p2pkhScript lib hash, .p2pkh⟩
    else if version ∈ p2shVersions then .ok ⟨p2shScript lib hash, .p2sh⟩
    else .error (.invalidInput "unsupported address version")

/-- `AddressScript::from_prefixed_address`: bech32 when the chain has a human-readable part
and the address carries it, base58check otherwise. -/
def fromPrefixedAddress (address : String) (p2pkhVersions p2shVersions : List UInt8)
    (hrp : Option String) : Except SignerError AddressScript :=
  match hrp, lib.decodeSegwit address with
  | some expected, some (found, version, program) =>
    if found = expected then fromSegwit lib version program
    else fromBase58 lib address p2pkhVersions p2shVersions
  | _, _ => fromBase58 lib address p2pkhVersions p2shVersions

/-- `bitcoin::script`. -/
def bitcoinScript (address : String) : Except SignerError AddressScript := do
  let (scriptPubkey, data) ← fromDisplay (lib.decodeMainnet address)
  match data with
  | .p2pkh => .ok ⟨scriptPubkey, .p2pkh⟩
  | .p2sh => .ok ⟨scriptPubkey, .p2sh⟩
  | .segwit (some .p2wpkh) => .ok ⟨scriptPubkey, .p2wpkh⟩
  | .segwit (some .p2wsh) => .ok ⟨scriptPubkey, .p2wsh⟩
  | .segwit (some .p2tr) => .ok ⟨scriptPubkey, .p2tr⟩
  | .segwit none => .error (.invalidInput "unsupported Bitcoin address type")
  | .other => .error (.invalidInput "unsupported Bitcoin address type")

/-- `bitcoin_cash::decode_address`: an address without prefix is tried again behind
`bitcoincash:`; the first error is the one reported. -/
def decodeCashAddress (address : String) : Except SignerError CashAddress :=
  let report (error : String × String) : SignerError :=
    .invalidInput s!"invalid Bitcoin Cash address: cashaddr: {error.1}; base58: {error.2}"
  match lib.decodeCash address with
  | .ok decoded => .ok decoded
  | .error error =>
    if address.contains ':' then .error (report error)
    else
      match lib.decodeCash ("bitcoincash:" ++ address) with
      | .ok decoded => .ok decoded
      | .error _ => .error (report error)

/-- `bitcoin_cash::script`. -/
def bitcoinCashScript (address : String) : Except SignerError AddressScript := do
  let decoded ← decodeCashAddress lib address
  if !decoded.isMain then .error (.invalidInput "unsupported Bitcoin Cash address network")
  else do
    let hash ← hashOfLength 20 decoded.body
    match decoded.hashType with
    | .key => .ok ⟨p2pkhScript lib hash, .p2pkh⟩
    | .script => .ok ⟨p2shScript lib hash, .p2sh⟩

/-- `zcash::script`: transparent addresses, two version bytes. -/
def zcashScript (address : String) : Except SignerError AddressScript := do
  let payload ← fromDisplay (lib.decodeBase58Check address)
  if payload.length ≠ 22 then .error (.invalidInput "invalid Zcash address")
  else do
    let hash ← hashOfLength 20 (payload.drop 2)
    if payload.take 2 = [0x1c, 0xb8] then .ok ⟨p2pkhScript lib hash, .p2pkh⟩
    else if payload.take 2 = [0x1c, 0xbd] then .ok ⟨p2shScript lib hash, .p2sh⟩
    else .error (.invalidInput "unsupported Zcash address version")

/-- `script_for_address`. -/
def scriptForAddress (chain : BitcoinChain) (address : String) :
    Except SignerError AddressScript :=
  match chain with
  | .bitcoin => bitcoinScript lib address
  | .litecoin => fromPrefixedAddress lib address [48] [50] (some "ltc")
  | .doge => fromPrefixedAddress lib address [30] [22] none
  | .bitcoinCash => bitcoinCashScript lib address
  | .zcash => zcashScript lib address

end GemCore.Bitcoin
