import GemCore.Ton.Cell

/-!
# The cell builder

`CellBuilder` (`gem_ton/src/tvm/builder.rs`, `gem_ton/src/tvm/writer.rs`) appends bits and
references and makes a cell of them. A failed call leaves in the builder what it had written
before it failed, so a call is a function on the builder that keeps the state on error.

## Main definitions

* `CellBuilder` and its operations, from `storeBit` to `storeCell`.
* `BuilderCall` — the calls of the public interface.
* `Built` — the trees whose cells were all made by a builder.

## Main results

* `BuilderCall.keeps_inv` — every call keeps the builder's padding zero.
* `Built.wellFormed` — what a builder makes is well formed.
-/

namespace GemCore.Ton

/-! ## Bits -/

/-- `BitWriter`. -/
structure BitWriter where
  bytes : List UInt8
  bitLen : ℕ

/-- `CellBuilder`. -/
structure CellBuilder where
  writer : BitWriter
  references : List Cell

/-- `CellBuilder::new`. -/
def CellBuilder.new : CellBuilder := ⟨⟨[], 0⟩, []⟩

/-- A call on a builder. -/
abbrev Build := EStateM TvmError CellBuilder

/-- A bit is set in the last byte, which is appended when the previous one is full. -/
def BitWriter.push (w : BitWriter) (value : Bool) : BitWriter :=
  let bytes := if w.bitLen % 8 = 0 then w.bytes ++ [0] else w.bytes
  let bytes := if value then bytes.modify (w.bitLen / 8) (· ||| bitMask (7 - w.bitLen % 8))
    else bytes
  ⟨bytes, w.bitLen + 1⟩

/-- `BitWriter::write_bit`. -/
def writeBit (value : Bool) : Build Unit := fun b =>
  if b.writer.bitLen = maxCellBits then .error ⟨s!"cell exceeds {maxCellBits} bits"⟩ b
  else .ok () { b with writer := b.writer.push value }

/-- Bits one after the other, until one fails. -/
def writeAll : List Bool → Build Unit
  | [] => pure ()
  | bit :: bits => do
    writeBit bit
    writeAll bits

/-- The bits `bitLen - 1, ..., 0` of a number. -/
def lowBits (bitLen value : ℕ) : List Bool := (List.range bitLen).reverse.map value.testBit

/-- `BitWriter::write_uint`. -/
def writeUint (bitLen value : ℕ) : Build Unit :=
  if bitLen > 64 then throw ⟨"fixed-size integers above 64 bits are not supported"⟩
  else if bitLen < 64 ∧ value >>> bitLen ≠ 0 then
    throw ⟨"integer does not fit requested bit length"⟩
  else writeAll (lowBits bitLen value)

/-- `BitWriter::write_bits`. -/
def writeBits (bytes : List UInt8) (bitLen : ℕ) : Build Unit :=
  if bitLen > bytes.length * 8 then throw ⟨"bit length exceeds input bytes"⟩
  else writeAll ((List.range bitLen).map fun i =>
    (bytes.getD (i / 8) 0).toNat.testBit (7 - i % 8))

/-- `BitWriter::write_bytes`. -/
def writeBytes (bytes : List UInt8) : Build Unit := writeBits bytes (bytes.length * 8)

/-! ## The builder -/

/-- `CellBuilder::store_bit`. -/
def storeBit (value : Bool) : Build Unit := writeBit value

/-- `CellBuilder::store_u8`. -/
def storeU8 (bitLen : ℕ) (value : UInt8) : Build Unit := writeUint bitLen value.toNat

/-- `CellBuilder::store_u32`. -/
def storeU32 (bitLen : ℕ) (value : UInt32) : Build Unit := writeUint bitLen value.toNat

/-- `CellBuilder::store_i32`: the value is reinterpreted as unsigned. -/
def storeI32 (bitLen : ℕ) (value : Int32) : Build Unit := writeUint bitLen value.toUInt32.toNat

/-- `CellBuilder::store_u64`. -/
def storeU64 (bitLen : ℕ) (value : UInt64) : Build Unit := writeUint bitLen value.toNat

/-- `CellBuilder::store_slice`. -/
def storeSlice (slice : List UInt8) : Build Unit := writeBytes slice

/-- `BigUint::to_bytes_be`: no leading zeros, and one byte for zero. -/
def toBytesBe (value : ℕ) : List UInt8 := Lib.beBytes (Lib.byteLength value) value

/-- The bits of `CellBuilder::store_uint`: leading zeros, the high byte without its own leading
zeros, and the other bytes. -/
def uintCalls (bitLen value : ℕ) : List (Build Unit) :=
  let usedBits := value.size
  let leadingZeroBits := bitLen - usedBits
  let highBits := if usedBits = 0 then 0 else if usedBits % 8 = 0 then 8 else usedBits % 8
  List.replicate (leadingZeroBits / 8) (storeU8 8 0) ++
    List.replicate (leadingZeroBits % 8) (storeBit false) ++
    match toBytesBe value with
    | [] => []
    | highByte :: rest =>
      (lowBits highBits highByte.toNat).map storeBit ++ rest.map (storeU8 8)

/-- Calls one after the other, until one fails. -/
def runAll : List (Build Unit) → Build Unit
  | [] => pure ()
  | call :: calls => do
    call
    runAll calls

/-- `CellBuilder::store_uint`. -/
def storeUint (bitLen value : ℕ) : Build Unit :=
  if value.size > bitLen then throw ⟨s!"value does not fit in {bitLen} bits"⟩
  else runAll (uintCalls bitLen value)

/-- `CellBuilder::store_coins`: the number of bytes is cut to a `u8`. -/
def storeCoins (value : ℕ) : Build Unit :=
  if value = 0 then storeU8 4 0
  else do
    storeU8 4 (UInt8.ofNat (toBytesBe value).length)
    storeUint ((toBytesBe value).length * 8) value

/-- `Address`: what the builder reads of it, the workchain as the byte it is written in. -/
structure Address where
  workchain : UInt8
  hashPart : Lib.FixedBytes 32

/-- `CellBuilder::store_null_address`. -/
def storeNullAddress : Build Unit := storeU8 2 0

/-- `CellBuilder::store_address`. -/
def storeAddress (address : Address) : Build Unit := do
  storeU8 2 0b10
  storeBit false
  storeU8 8 address.workchain
  storeSlice address.hashPart.val

/-- `CellBuilder::store_maybe_address`. -/
def storeMaybeAddress : Option Address → Build Unit
  | some address => storeAddress address
  | none => storeNullAddress

/-- `CellBuilder::store_reference`. -/
def storeReference (cell : Cell) : Build Unit := fun b =>
  if b.references.length + 1 > maxCellReferences then
    .error ⟨s!"cell exceeds {maxCellReferences} references"⟩ b
  else .ok () { b with references := b.references ++ [cell] }

/-- `CellBuilder::store_maybe_reference`. -/
def storeMaybeReference : Option Cell → Build Unit
  | some cell => do
    storeBit true
    storeReference cell
  | none => storeBit false

/-- `CellBuilder::store_child`. -/
def storeChild (cell : Cell) : Build Unit := storeReference cell

/-- `CellBuilder::store_cell_data`. -/
def storeCellData (cell : Cell) : Build Unit := writeBits cell.data cell.bitLen

/-- `CellBuilder::store_cell`. -/
def storeCell (cell : Cell) : Build Unit := do
  storeCellData cell
  runAll (cell.references.map storeReference)

/-- `CellBuilder::remaining_bits`. -/
def CellBuilder.remainingBits (b : CellBuilder) : ℕ := maxCellBits - b.writer.bitLen

variable (lib : HashLib)

/-- `CellBuilder::build`. -/
def CellBuilder.build (b : CellBuilder) : Except TvmError Cell :=
  Cell.new lib b.writer.bytes b.writer.bitLen b.references

/-- `CellBuilder::store_slice_snake`: what does not fit goes to a child, and so on. A fresh
builder takes 127 bytes, so the recursion ends. -/
def storeSliceSnake (slice : List UInt8) (b : CellBuilder) :
    EStateM.Result TvmError CellBuilder Unit :=
  if _hfit : slice.length ≤ b.remainingBits / 8 then storeSlice slice b
  else
    match storeSlice (slice.take (b.remainingBits / 8)) b with
    | .error e b' => .error e b'
    | .ok () b' =>
      match storeSliceSnake (slice.drop (b.remainingBits / 8)) CellBuilder.new with
      | .error e _ => .error e b'
      | .ok () child =>
        match child.build lib with
        | .error e => .error e b'
        | .ok cell => storeChild cell b'
termination_by 2 * slice.length + if b.remainingBits / 8 = 0 then 1 else 0
decreasing_by
  have hnew : (if CellBuilder.new.remainingBits / 8 = 0 then 1 else 0) = 0 := by decide
  rw [hnew, List.length_drop]
  split_ifs <;> omega

/-- `CellBuilder::store_string_snake`. -/
def storeStringSnake (value : String) : Build Unit :=
  storeSliceSnake lib value.toUTF8.toList

/-! ## What calls keep -/

/-- The state of the builder after a call, failed or not. -/
def Build.after {α : Type} (call : Build α) (b : CellBuilder) : CellBuilder :=
  match call b with
  | .ok _ b' => b'
  | .error _ b' => b'

/-- A property of the builder that a call keeps, also when it fails. -/
def Keeps {α : Type} (P : CellBuilder → Prop) (call : Build α) : Prop :=
  ∀ b, P b → P (call.after b)

variable {P : CellBuilder → Prop}

lemma Keeps.of_ok {α : Type} {call : Build α} {a : α} {b b' : CellBuilder}
    (h : Keeps P call) (hb : P b) (hcall : call b = .ok a b') : P b' := by
  have hafter := h b hb
  rwa [Build.after, hcall] at hafter

lemma Keeps.of_error {α : Type} {call : Build α} {e : TvmError} {b b' : CellBuilder}
    (h : Keeps P call) (hb : P b) (hcall : call b = .error e b') : P b' := by
  have hafter := h b hb
  rwa [Build.after, hcall] at hafter

lemma Keeps.pure {α : Type} (a : α) : Keeps P (pure a : Build α) := fun _ h => h

lemma Keeps.throw {α : Type} (e : TvmError) : Keeps P (throw e : Build α) := fun _ h => h

lemma Keeps.seq {α : Type} {call : Build Unit} {next : Unit → Build α} (h : Keeps P call)
    (h' : Keeps P (next ())) : Keeps P (call >>= next) := by
  intro b hb
  have hafter := h b hb
  unfold Build.after at hafter ⊢
  change P (match EStateM.bind call next b with | .ok _ b' => b' | .error _ b' => b')
  unfold EStateM.bind
  split at hafter
  · rename_i b' heq
    simp only [heq]
    exact h' b' hafter
  · rename_i b' heq
    simpa only [heq] using hafter

lemma Keeps.ite {α : Type} {p : Prop} [Decidable p] {call call' : Build α}
    (h : Keeps P call) (h' : Keeps P call') : Keeps P (if p then call else call') := by
  split_ifs
  · exact h
  · exact h'

lemma Keeps.runAll {calls : List (Build Unit)} (h : ∀ call ∈ calls, Keeps P call) :
    Keeps P (runAll calls) := by
  induction calls with
  | nil => exact Keeps.pure ()
  | cons call calls ih =>
    exact (h call List.mem_cons_self).seq (ih fun c hc => h c (List.mem_cons_of_mem _ hc))

/-! ## Zero padding and well-formed references -/

/-- The builder's invariant: its bytes hold its bits and nothing behind them, and it refers to
well-formed trees. -/
structure CellBuilder.Inv (b : CellBuilder) : Prop where
  length_bytes : b.writer.bytes.length = bytesFor b.writer.bitLen
  zeroPadded : ZeroPadded b.writer.bytes b.writer.bitLen
  references : ∀ r ∈ b.references, WellFormed lib r

lemma CellBuilder.new_inv : CellBuilder.new.Inv lib :=
  ⟨rfl, by simp [CellBuilder.new, ZeroPadded], by simp [CellBuilder.new]⟩

/-- Setting the next bit of a byte leaves the bits behind it zero. -/
lemma or_bitMask_mod (b : UInt8) (k : ℕ) (hk : k < 8) (h : b.toNat % 2 ^ (k + 1) = 0) :
    (b ||| bitMask k).toNat % 2 ^ k = 0 := by
  have hlt : 2 ^ k < 2 ^ 8 := Nat.pow_lt_pow_right (by decide) hk
  have hmask : (bitMask k).toNat = 2 ^ k := by
    rw [bitMask, UInt8.toNat_ofNat']
    exact Nat.mod_eq_of_lt hlt
  have hb : b.toNat % 2 ^ k = 0 :=
    Nat.mod_eq_zero_of_dvd ((pow_dvd_pow 2 (by omega)).trans (Nat.dvd_of_mod_eq_zero h))
  rw [UInt8.toNat_or, Nat.or_mod_two_pow, hmask, hb, Nat.mod_self]
  rfl

/-- A pushed bit keeps the bytes in step with the bits and the padding zero. -/
theorem BitWriter.push_padded {w : BitWriter} (value : Bool)
    (hlen : w.bytes.length = bytesFor w.bitLen) (hpad : ZeroPadded w.bytes w.bitLen) :
    (w.push value).bytes.length = bytesFor (w.push value).bitLen ∧
      ZeroPadded (w.push value).bytes (w.push value).bitLen := by
  -- the byte that receives the bit, after those that stay as they are
  obtain ⟨init, x, hbytes, hinit, hx⟩ : ∃ init x,
      (if w.bitLen % 8 = 0 then w.bytes ++ [0] else w.bytes) = init ++ [x] ∧
      init.length = w.bitLen / 8 ∧ x.toNat % 2 ^ (7 - w.bitLen % 8 + 1) = 0 := by
    unfold bytesFor at hlen
    split_ifs with hfull
    · refine ⟨w.bytes, 0, rfl, by omega, by simp⟩
    · have hne : w.bytes ≠ [] := by
        intro hnil
        rw [hnil, List.length_nil] at hlen
        omega
      refine ⟨w.bytes.dropLast, w.bytes.getLast hne,
        (List.dropLast_append_getLast hne).symm, by rw [List.length_dropLast]; omega, ?_⟩
      have hlast := hpad (w.bytes.getLast hne) (by simp [List.getLast?_eq_getLast_of_ne_nil hne])
      have hexp : 8 * w.bytes.length - w.bitLen = 7 - w.bitLen % 8 + 1 := by omega
      rwa [hexp] at hlast
  have hpush : w.push value =
      ⟨init ++ [if value then x ||| bitMask (7 - w.bitLen % 8) else x], w.bitLen + 1⟩ := by
    unfold BitWriter.push
    dsimp only
    rw [hbytes, ← hinit, modify_concat]
    split_ifs <;> rfl
  rw [hpush]
  refine ⟨by simp only [List.length_append, List.length_singleton, bytesFor]; omega, ?_⟩
  intro b hb
  have hexp : 8 * (init.length + 1) - (w.bitLen + 1) = 7 - w.bitLen % 8 := by omega
  simp only [List.getLast?_append, List.getLast?_singleton, Option.some_or, Option.mem_def,
    Option.some.injEq] at hb
  simp only [List.length_append, List.length_singleton, hexp]
  subst hb
  split_ifs
  · exact or_bitMask_mod x _ (by omega) hx
  · exact Nat.mod_eq_zero_of_dvd
      ((pow_dvd_pow 2 (by omega)).trans (Nat.dvd_of_mod_eq_zero hx))

variable {lib}

lemma keeps_writeBit (value : Bool) : Keeps (CellBuilder.Inv lib) (writeBit value) := by
  intro b hb
  unfold Build.after writeBit
  split_ifs
  · exact hb
  · obtain ⟨hlen, hpad⟩ := BitWriter.push_padded value hb.length_bytes hb.zeroPadded
    exact ⟨hlen, hpad, hb.references⟩

lemma keeps_writeAll (bits : List Bool) : Keeps (CellBuilder.Inv lib) (writeAll bits) := by
  induction bits with
  | nil => exact Keeps.pure ()
  | cons bit bits ih => exact (keeps_writeBit bit).seq ih

lemma keeps_writeUint (bitLen value : ℕ) :
    Keeps (CellBuilder.Inv lib) (writeUint bitLen value) :=
  Keeps.ite (Keeps.throw _) (Keeps.ite (Keeps.throw _) (keeps_writeAll _))

lemma keeps_writeBits (bytes : List UInt8) (bitLen : ℕ) :
    Keeps (CellBuilder.Inv lib) (writeBits bytes bitLen) :=
  Keeps.ite (Keeps.throw _) (keeps_writeAll _)

lemma keeps_storeUint (bitLen value : ℕ) :
    Keeps (CellBuilder.Inv lib) (storeUint bitLen value) := by
  refine Keeps.ite (Keeps.throw _) (Keeps.runAll ?_)
  intro call hcall
  unfold uintCalls at hcall
  dsimp only at hcall
  rw [List.mem_append, List.mem_append] at hcall
  rcases hcall with (hcall | hcall) | hcall
  · obtain rfl := List.eq_of_mem_replicate hcall
    exact keeps_writeUint _ _
  · obtain rfl := List.eq_of_mem_replicate hcall
    exact keeps_writeBit _
  · split at hcall
    · cases hcall
    · rw [List.mem_append, List.mem_map, List.mem_map] at hcall
      rcases hcall with ⟨bit, -, rfl⟩ | ⟨byte, -, rfl⟩
      · exact keeps_writeBit _
      · exact keeps_writeUint _ _

lemma keeps_storeNullAddress : Keeps (CellBuilder.Inv lib) storeNullAddress :=
  keeps_writeUint 2 (0 : UInt8).toNat

lemma keeps_storeAddress (address : Address) :
    Keeps (CellBuilder.Inv lib) (storeAddress address) :=
  (keeps_writeUint _ _).seq ((keeps_writeBit _).seq ((keeps_writeUint _ _).seq
    (keeps_writeBits _ _)))

lemma keeps_storeReference {cell : Cell} (h : WellFormed lib cell) :
    Keeps (CellBuilder.Inv lib) (storeReference cell) := by
  intro b hb
  unfold Build.after storeReference
  split_ifs
  · exact hb
  · refine ⟨hb.length_bytes, hb.zeroPadded, ?_⟩
    intro r hr
    rcases List.mem_append.mp hr with hr | hr
    · exact hb.references r hr
    · rw [List.mem_singleton.mp hr]
      exact h

/-- **What a builder makes** is well formed, if the builder satisfies its invariant. -/
theorem CellBuilder.Inv.build {b : CellBuilder} (hb : b.Inv lib) {c : Cell}
    (h : b.build lib = .ok c) : WellFormed lib c := by
  unfold CellBuilder.build Cell.new at h
  rw [Lib.okOr_eq_ok_iff] at h
  obtain ⟨-, -, -, -, hdata, hlen, hrefs, -⟩ := Cell.tryNew_eq_some lib h
  refine .mk c ?_ ?_ ?_
  · rw [hrefs]
    exact hb.references
  · rw [hdata, hlen]
    exact hb.zeroPadded
  · rw [hdata, hlen, hrefs]
    exact h

lemma keeps_storeSlice (slice : List UInt8) :
    Keeps (CellBuilder.Inv lib) (storeSlice slice) :=
  keeps_writeBits _ _

/-- The children of a snake are built by builders of their own. -/
lemma keeps_storeSliceSnake (slice : List UInt8) :
    Keeps (CellBuilder.Inv lib) (storeSliceSnake lib slice) := by
  intro b hb
  unfold Build.after
  induction slice, b using storeSliceSnake.induct lib with
  | case1 slice b hfit =>
    rw [storeSliceSnake, dif_pos hfit]
    exact keeps_storeSlice slice b hb
  | case2 slice b hlong e b' heq =>
    rw [storeSliceSnake, dif_neg hlong, heq]
    exact (keeps_storeSlice _).of_error hb heq
  | case3 slice b hlong b' heq e b'' heq' ih =>
    rw [storeSliceSnake, dif_neg hlong, heq]
    simp only [heq']
    exact (keeps_storeSlice _).of_ok hb heq
  | case4 slice b hlong b' heq child heq' e heq'' ih =>
    rw [storeSliceSnake, dif_neg hlong, heq]
    simp only [heq', heq'']
    exact (keeps_storeSlice _).of_ok hb heq
  | case5 slice b hlong b' heq child heq' cell heq'' ih =>
    have hchild := ih (CellBuilder.new_inv lib)
    simp only [heq'] at hchild
    rw [storeSliceSnake, dif_neg hlong, heq]
    simp only [heq', heq'']
    exact keeps_storeReference (hchild.build heq'') b' ((keeps_storeSlice _).of_ok hb heq)

/-! ## Trees made by builders -/

/-- A call of the builder's public interface. -/
inductive BuilderCall where
  | bit (value : Bool)
  | u8 (bitLen : ℕ) (value : UInt8)
  | u32 (bitLen : ℕ) (value : UInt32)
  | i32 (bitLen : ℕ) (value : Int32)
  | u64 (bitLen : ℕ) (value : UInt64)
  | slice (slice : List UInt8)
  | sliceSnake (slice : List UInt8)
  | stringSnake (value : String)
  | uint (bitLen value : ℕ)
  | coins (value : ℕ)
  | nullAddress
  | address (address : Address)
  | maybeAddress (address : Option Address)
  | reference (cell : Cell)
  | maybeReference (cell : Option Cell)
  | child (cell : Cell)
  | cellData (cell : Cell)
  | cell (cell : Cell)

namespace BuilderCall

variable (lib) in
/-- What a call does to the builder. -/
def run : BuilderCall → Build Unit
  | bit value => storeBit value
  | u8 bitLen value => storeU8 bitLen value
  | u32 bitLen value => storeU32 bitLen value
  | i32 bitLen value => storeI32 bitLen value
  | u64 bitLen value => storeU64 bitLen value
  | slice bytes => storeSlice bytes
  | sliceSnake bytes => storeSliceSnake lib bytes
  | stringSnake value => storeStringSnake lib value
  | uint bitLen value => storeUint bitLen value
  | coins value => storeCoins value
  | nullAddress => storeNullAddress
  | address a => storeAddress a
  | maybeAddress a => storeMaybeAddress a
  | reference c => storeReference c
  | maybeReference c => storeMaybeReference c
  | child c => storeChild c
  | cellData c => storeCellData c
  | cell c => storeCell c

/-- The cells a call is given. -/
def cells : BuilderCall → List Cell
  | reference c | child c | cellData c | cell c => [c]
  | maybeReference c => c.toList
  | _ => []

/-- **Every call keeps the builder's invariant**, also when it fails, if it is given well-formed
cells only. -/
theorem keeps_inv (call : BuilderCall) (h : ∀ c ∈ call.cells, WellFormed lib c) :
    Keeps (CellBuilder.Inv lib) (call.run lib) := by
  cases call with
  | bit value => exact keeps_writeBit value
  | u8 bitLen value | u32 bitLen value | i32 bitLen value | u64 bitLen value =>
    exact keeps_writeUint _ _
  | slice bytes => exact keeps_storeSlice bytes
  | sliceSnake bytes => exact keeps_storeSliceSnake bytes
  | stringSnake value => exact keeps_storeSliceSnake _
  | uint bitLen value => exact keeps_storeUint bitLen value
  | coins value =>
    exact Keeps.ite (keeps_writeUint _ _) ((keeps_writeUint _ _).seq (keeps_storeUint _ _))
  | nullAddress => exact keeps_storeNullAddress
  | address a => exact keeps_storeAddress a
  | maybeAddress a =>
    cases a with
    | none => exact keeps_storeNullAddress
    | some a => exact keeps_storeAddress a
  | reference c => exact keeps_storeReference (h c (by simp [cells]))
  | maybeReference c =>
    cases c with
    | none => exact keeps_writeBit false
    | some c => exact (keeps_writeBit true).seq (keeps_storeReference (h c (by simp [cells])))
  | child c => exact keeps_storeReference (h c (by simp [cells]))
  | cellData c => exact keeps_writeBits _ _
  | cell c =>
    refine (keeps_writeBits _ _).seq (Keeps.runAll ?_)
    intro call hcall
    obtain ⟨r, hr, rfl⟩ := List.mem_map.mp hcall
    exact keeps_storeReference ((h c (by simp [cells])).references r hr)

end BuilderCall

variable (lib)

/-- A builder after a sequence of calls, failed ones included. -/
def afterCalls (calls : List BuilderCall) : CellBuilder :=
  calls.foldl (fun b call => (call.run lib).after b) CellBuilder.new

/-- The trees whose cells were all made by a builder. -/
inductive Built : Cell → Prop
  | build (calls : List BuilderCall) (c : Cell) :
      (∀ call ∈ calls, ∀ r ∈ call.cells, Built r) → (afterCalls lib calls).build lib = .ok c →
      Built c

/-- **Trees made by builders** are well formed. -/
theorem Built.wellFormed {c : Cell} (h : Built lib c) : WellFormed lib c := by
  induction h with
  | build calls c _ hbuild ih =>
    have hinv : ∀ (rest : List BuilderCall) (b : CellBuilder), (∀ call ∈ rest, call ∈ calls) →
        b.Inv lib → (rest.foldl (fun b call => (call.run lib).after b) b).Inv lib := by
      intro rest
      induction rest with
      | nil => exact fun b _ hb => hb
      | cons call rest ihrest =>
        intro b hsub hb
        exact ihrest _ (fun c hc => hsub c (List.mem_cons_of_mem _ hc))
          (call.keeps_inv (ih call (hsub call List.mem_cons_self)) b hb)
    exact (hinv calls _ (fun _ h => h) (CellBuilder.new_inv lib)).build hbuild

end GemCore.Ton
