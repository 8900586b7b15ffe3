import GemCore.Lib.ConstantProduct
import GemCore.Signer.Decode
import GemCore.Swapper.Types
import GemCore.Ton.Address

/-!
# STON.fi quotes

The output of a constant-product pool after its fees, and the minimum of the second hop of a route
(`swapper/src/stonfi/quote.rs`). The side of the pool is chosen by the addresses that the texts of
the wallets denote. A division by zero panics, so that a quotient is an outcome of its own.

## Main definitions

* `PoolData`, `SwapSimulation` — a pool, and a quoted hop.
* `computeAmountOut` — `compute_amount_out`.
* `scaledNextMinAskAmount` — `scaled_next_min_ask_amount`.

## Main results

* `computeAmountOut_eq` — the output, by the side of the pool.
* `quote_safe` — what the two computations promise.
-/

namespace GemCore.Stonfi

open Lib

open Ton (AddressLib)
open Ton.Address (tryParse TextOf)

/-! ## Quotes -/

/-- `BPS_DENOMINATOR`. -/
def bpsDenominator : ℕ := 10000

/-- `PoolData`, with the fields of a quote. -/
structure PoolData where
  reserve0 : ℕ
  reserve1 : ℕ
  token0Wallet : String
  token1Wallet : String
  lpFee : UInt32
  protocolFee : UInt32

/-- `SwapSimulation`, with the fields of the minimum. -/
structure SwapSimulation where
  askUnits : String
  minAskUnits : String

/-- The third-party functions of the quotes. -/
structure QuoteLib where
  address : AddressLib
  /-- `BigUint::from_str`. -/
  parse : String → Option ℕ
  /-- The text of its error. -/
  parseError : String → String

/-- `u32::checked_add`. -/
def checkedAddU32 (a b : UInt32) : Option ℕ :=
  if a.toNat + b.toNat < 2 ^ 32 then some (a.toNat + b.toNat) else none

/-- `BigUint::div`, which panics on zero. -/
def divide (a b : ℕ) : Except Failure ℕ := if b = 0 then .error .panic else .ok (a / b)

variable (lib : QuoteLib)

/-- `Address::parse`, with the error of a quote. -/
def parseWallet (text : String) : Except Failure Ton.Address :=
  okOrErr (tryParse lib.address text)
    (.computeQuoteError (invalidAddress ++ ": invalid TON address"))

/-- The reserves of the two sides, that of the offer first. -/
def reserves (pool : PoolData) (offer token0 token1 : Ton.Address) : Except Failure (ℕ × ℕ) :=
  if offer = token0 then .ok (pool.reserve0, pool.reserve1)
  else if offer = token1 then .ok (pool.reserve1, pool.reserve0)
  else .error (.err .invalidRoute)

/-- `compute_amount_out`. -/
def computeAmountOut (pool : PoolData) (offerWallet : String) (amount : ℕ) : Except Failure ℕ := do
  let offer ← parseWallet lib offerWallet
  let token0 ← parseWallet lib pool.token0Wallet
  let token1 ← parseWallet lib pool.token1Wallet
  let (reserveIn, reserveOut) ← reserves pool offer token0 token1
  let totalFee ← okOrErr (checkedAddU32 pool.lpFee pool.protocolFee)
    (.computeQuoteError "STON.fi fee overflow")
  if bpsDenominator ≤ totalFee then .error (.err (.computeQuoteError "STON.fi fee exceeds 100%"))
  else do
    let amountAfterFee ← divide (amount * (bpsDenominator - totalFee)) bpsDenominator
    if amountAfterFee = 0 then .ok 0
    else divide (reserveOut * amountAfterFee) (reserveIn + amountAfterFee)

/-- `BigUint::from_str`, with the error of a quote. -/
def parseAmount (text : String) : Except Failure ℕ :=
  okOrErr (lib.parse text)
    (.computeQuoteError (invalidAmount ++ ": " ++ lib.parseError text))

/-- `scaled_next_min_ask_amount`. -/
def scaledNextMinAskAmount (first next : SwapSimulation) : Except Failure ℕ := do
  let firstAsk ← parseAmount lib first.askUnits
  if firstAsk = 0 then .error (.err .invalidRoute)
  else do
    let firstMin ← parseAmount lib first.minAskUnits
    let nextMin ← parseAmount lib next.minAskUnits
    divide (nextMin * firstMin) firstAsk

/-! ## The output -/

/-- An amount after a fee in basis points. -/
def afterFee (pool : PoolData) (amount : ℕ) : ℕ :=
  amount * (bpsDenominator - (pool.lpFee.toNat + pool.protocolFee.toNat)) / bpsDenominator

lemma afterFee_le (pool : PoolData) (amount : ℕ) : afterFee pool amount ≤ amount := by
  rw [afterFee, Nat.div_le_iff_le_mul_add_pred (by decide), Nat.mul_comm bpsDenominator]
  exact (Nat.mul_le_mul_left _ (Nat.sub_le _ _)).trans (Nat.le_add_right _ _)

lemma afterFee_mono (pool : PoolData) {amount amount' : ℕ} (h : amount ≤ amount') :
    afterFee pool amount ≤ afterFee pool amount' :=
  Nat.div_le_div_right (Nat.mul_le_mul_right _ h)

/-- A pool whose fees are below 100%, with the addresses of its wallets. -/
structure Side (pool : PoolData) (token0 token1 : Ton.Address) : Prop where
  wallet0 : tryParse lib.address pool.token0Wallet = some token0
  wallet1 : tryParse lib.address pool.token1Wallet = some token1
  fee : pool.lpFee.toNat + pool.protocolFee.toNat < bpsDenominator

variable {lib}

lemma parseWallet_of_tryParse {address : Ton.Address} {text : String}
    (h : tryParse lib.address text = some address) : parseWallet lib text = .ok address := by
  rw [parseWallet, okOrErr, h]
  rfl

/-- **The output of a pool**: what a constant-product pool pays for the amount after the fees. -/
theorem computeAmountOut_eq {pool : PoolData} {token0 token1 offer : Ton.Address}
    (hpool : Side lib pool token0 token1) {offerWallet : String}
    (hoffer : tryParse lib.address offerWallet = some offer) {reserveIn reserveOut : ℕ}
    (hside : reserves pool offer token0 token1 = .ok (reserveIn, reserveOut)) (amount : ℕ) :
    computeAmountOut lib pool offerWallet amount =
      .ok (payout reserveIn reserveOut (afterFee pool amount)) := by
  have hfee := hpool.fee
  have hsum : checkedAddU32 pool.lpFee pool.protocolFee =
      some (pool.lpFee.toNat + pool.protocolFee.toNat) := by
    rw [checkedAddU32, if_pos]
    have : bpsDenominator = 10000 := rfl
    omega
  have hafter : divide (amount * (bpsDenominator -
      (pool.lpFee.toNat + pool.protocolFee.toNat))) bpsDenominator =
        .ok (afterFee pool amount) := if_neg (by decide)
  rw [computeAmountOut, parseWallet_of_tryParse hoffer, parseWallet_of_tryParse hpool.wallet0,
    parseWallet_of_tryParse hpool.wallet1]
  simp only [ok_bind, hside, hsum, okOrErr, okOr_some, if_neg (Nat.not_le.mpr hfee), hafter]
  split_ifs with hzero
  · rw [hzero, payout_zero]
  · rw [divide, if_neg (by omega)]
    rfl

/-- The offered token is one of the two. -/
lemma exists_reserves {pool : PoolData} {offer token0 token1 : Ton.Address}
    (hoffer : offer = token0 ∨ offer = token1) :
    ∃ reserveIn reserveOut, reserves pool offer token0 token1 = .ok (reserveIn, reserveOut) := by
  rw [reserves]
  split_ifs with h0 h1
  · exact ⟨_, _, rfl⟩
  · exact ⟨_, _, rfl⟩
  · exact absurd hoffer (not_or.mpr ⟨h0, h1⟩)

/-! ## The minimum of the second hop -/

lemma parseAmount_eq_ok_iff {text : String} {amount : ℕ} :
    parseAmount lib text = .ok amount ↔ lib.parse text = some amount :=
  okOr_eq_ok_iff

/-- **The scaled minimum is at most the minimum** where the first hop may lose, and there is none
where the first hop pays nothing. -/
theorem scaledNextMinAskAmount_le {first next : SwapSimulation} {firstAsk firstMin nextMin : ℕ}
    (hask : lib.parse first.askUnits = some firstAsk)
    (hmin : lib.parse first.minAskUnits = some firstMin)
    (hnext : lib.parse next.minAskUnits = some nextMin) (hle : firstMin ≤ firstAsk) :
    scaledNextMinAskAmount lib first next = .error (.err .invalidRoute) ∧ firstAsk = 0 ∨
      ∃ scaled, scaledNextMinAskAmount lib first next = .ok scaled ∧ scaled ≤ nextMin := by
  rw [scaledNextMinAskAmount, parseAmount_eq_ok_iff.mpr hask, parseAmount_eq_ok_iff.mpr hmin,
    parseAmount_eq_ok_iff.mpr hnext]
  simp only [ok_bind]
  split_ifs with hzero
  · exact Or.inl ⟨rfl, hzero⟩
  · refine Or.inr ⟨nextMin * firstMin / firstAsk, if_neg hzero, ?_⟩
    calc nextMin * firstMin / firstAsk ≤ nextMin * firstAsk / firstAsk :=
          Nat.div_le_div_right (Nat.mul_le_mul_left _ hle)
      _ = nextMin := Nat.mul_div_cancel _ (Nat.pos_of_ne_zero hzero)

lemma divide_ne_panic {a b : ℕ} (h : b ≠ 0) : divide a b ≠ .error .panic := by
  rw [divide, if_neg h]
  exact nofun

lemma okOrErr_ne_panic {α : Type} {x : Option α} {error : SwapperError} :
    okOrErr x error ≠ .error .panic := by
  cases x <;> exact nofun

/-- **A minimum is never divided by zero.** -/
theorem scaledNextMinAskAmount_ne_panic (first next : SwapSimulation) :
    scaledNextMinAskAmount lib first next ≠ .error .panic := by
  refine bind_ne_error okOrErr_ne_panic fun firstAsk _ => ?_
  split_ifs with hzero
  · exact nofun
  · exact bind_ne_error okOrErr_ne_panic fun firstMin _ =>
      bind_ne_error okOrErr_ne_panic fun nextMin _ => divide_ne_panic hzero

/-- **An output is never divided by zero**, whatever the pool and the texts are. -/
theorem computeAmountOut_ne_panic (pool : PoolData) (offerWallet : String) (amount : ℕ) :
    computeAmountOut lib pool offerWallet amount ≠ .error .panic := by
  refine bind_ne_error okOrErr_ne_panic fun offer _ =>
    bind_ne_error okOrErr_ne_panic fun token0 _ =>
    bind_ne_error okOrErr_ne_panic fun token1 _ => bind_ne_error ?_ fun sides _ =>
    bind_ne_error okOrErr_ne_panic fun totalFee _ => ?_
  · rw [reserves]
    split_ifs <;> exact nofun
  · split_ifs with hfee
    · exact nofun
    · refine bind_ne_error (divide_ne_panic (by decide)) fun amountAfterFee _ => ?_
      split_ifs with hzero
      · exact nofun
      · exact divide_ne_panic (by omega)

/-! ## Safety -/

/-- **The output of a pool**: the product of the reserves does not shrink, the pool pays at most what
it has and is not emptied, more is paid for more and of more, the texts of the wallets do not matter,
and nothing is divided by zero. The minimum of the second hop is at most what this hop asks for.

**Proof sketch.** The output is that of a constant-product pool for the amount after the fees, which
is at most the amount; the rest holds of every such pool. -/
theorem quote_safe {pool : PoolData} {token0 token1 offer : Ton.Address}
    (hpool : Side lib pool token0 token1) {offerWallet : String}
    (hoffer : tryParse lib.address offerWallet = some offer)
    (htoken : offer = token0 ∨ offer = token1) :
    (∃ reserveIn reserveOut,
      reserves pool offer token0 token1 = .ok (reserveIn, reserveOut) ∧
      ∀ amount, ∃ out, computeAmountOut lib pool offerWallet amount = .ok out ∧
        out ≤ reserveOut ∧
        reserveIn * reserveOut ≤ (reserveIn + amount) * (reserveOut - out) ∧
        (0 < reserveIn → 0 < reserveOut → out < reserveOut) ∧
        (∀ amount' out', amount ≤ amount' →
          computeAmountOut lib pool offerWallet amount' = .ok out' → out ≤ out') ∧
        (∀ reserve0 reserve1 reserveOut' out', reserveOut ≤ reserveOut' →
          reserves { pool with reserve0, reserve1 } offer token0 token1 =
            .ok (reserveIn, reserveOut') →
          computeAmountOut lib { pool with reserve0, reserve1 } offerWallet amount = .ok out' →
          out ≤ out') ∧
        ∀ token0Wallet token1Wallet offerWallet',
          TextOf lib.address token0 token0Wallet → TextOf lib.address token1 token1Wallet →
          TextOf lib.address offer offerWallet' →
          computeAmountOut lib { pool with token0Wallet, token1Wallet } offerWallet' amount =
            .ok out) ∧
      (∀ amount, computeAmountOut lib pool offerWallet amount ≠ .error .panic) ∧
      (∀ first next, scaledNextMinAskAmount lib first next ≠ .error .panic) ∧
      ∀ first next firstAsk firstMin nextMin scaled, lib.parse first.askUnits = some firstAsk →
        lib.parse first.minAskUnits = some firstMin → lib.parse next.minAskUnits = some nextMin →
        firstMin ≤ firstAsk → scaledNextMinAskAmount lib first next = .ok scaled →
        scaled ≤ nextMin := by
  obtain ⟨reserveIn, reserveOut, hside⟩ := @exists_reserves pool _ _ _ htoken
  refine ⟨⟨reserveIn, reserveOut, hside, fun amount => ⟨_, computeAmountOut_eq hpool hoffer hside
    amount, payout_le, mul_le_mul_payout (afterFee_le pool amount), payout_lt,
    ?_, ?_, ?_⟩⟩, computeAmountOut_ne_panic pool offerWallet, scaledNextMinAskAmount_ne_panic, ?_⟩
  · intro amount' out' hamount hout'
    rw [computeAmountOut_eq hpool hoffer hside, Except.ok.injEq] at hout'
    rw [← hout']
    exact payout_mono le_rfl (afterFee_mono pool hamount)
  · intro reserve0 reserve1 reserveOut' out' hreserve hside' hout'
    have hpool' : Side lib { pool with reserve0, reserve1 } token0 token1 :=
      ⟨hpool.wallet0, hpool.wallet1, hpool.fee⟩
    rw [computeAmountOut_eq hpool' hoffer hside', Except.ok.injEq] at hout'
    rw [← hout']
    exact payout_mono hreserve le_rfl
  · intro token0Wallet token1Wallet offerWallet' h0 h1 hoffer'
    have hpool' : Side lib { pool with token0Wallet, token1Wallet } token0 token1 :=
      ⟨Ton.Address.tryParse_of_textOf h0, Ton.Address.tryParse_of_textOf h1, hpool.fee⟩
    exact computeAmountOut_eq hpool' (Ton.Address.tryParse_of_textOf hoffer') hside amount
  · intro first next firstAsk firstMin nextMin scaled hask hmin hnext hle hscaled
    rcases scaledNextMinAskAmount_le hask hmin hnext hle with ⟨h, -⟩ | ⟨scaled', h, hle⟩
    · rw [hscaled] at h
      cases h
    · rw [hscaled, Except.ok.injEq] at h
      exact h ▸ hle

/-! ## An example -/

/-- A library for the examples: the checksum, and the numbers whose texts are decimal digits. -/
def exampleLib : QuoteLib where
  address := ⟨Signer.crc16Xmodem⟩
  parse text := if text.toList.all Char.isDigit then some (Decimal.value text.toList) else none
  parseError _ := "invalid digit found in string"

/-- The wallets of the example, that of the dollar and that of the native token. -/
def exampleToken0 : String := "EQCSLWJ9fY7b0A5OI72wxUp27l4fRlc6GvRBeFf6PiPpH4p3"

@[inherit_doc exampleToken0]
def exampleToken1 : String := "EQCSIMGBps_qzRG3uPYhON8bucyCtu0mYdL1-u4gSz77IBa3"

/-- A pool of the two tokens. -/
def examplePool : PoolData :=
  ⟨3809436784065, 1784561670122756, exampleToken0, exampleToken1, 7, 3⟩

example : computeAmountOut exampleLib examplePool exampleToken1 1000000000 = .ok 2132526 := by
  decide +kernel

/-- The address of a text of the example. -/
def exampleAddress (text : String) : Ton.Address :=
  (tryParse exampleLib.address text).getD ⟨0, (.zeros 32)⟩

theorem quote_safe_example :
    (∀ amount, computeAmountOut exampleLib examplePool exampleToken1 amount ≠ .error .panic) ∧
      computeAmountOut exampleLib examplePool exampleToken1 1000000000 = .ok 2132526 :=
  have hpool : Side exampleLib examplePool (exampleAddress exampleToken0)
      (exampleAddress exampleToken1) :=
    ⟨by decide +kernel, by decide +kernel, by decide⟩
  ⟨(@quote_safe _ _ _ _ (exampleAddress exampleToken1) hpool _ (by decide +kernel)
    (Or.inr rfl)).2.1, by decide +kernel⟩

/-- **An empty side is not left with less**: the output of a pool with nothing to pay is zero, which
is what it has. -/
theorem not_output_lt_reserve : ¬ ∀ (lib : QuoteLib) (pool : PoolData)
    (token0 token1 offer : Ton.Address) (offerWallet : String)
    (reserveIn reserveOut amount out : ℕ),
    Side lib pool token0 token1 → tryParse lib.address offerWallet = some offer →
    reserves pool offer token0 token1 = .ok (reserveIn, reserveOut) → 0 < reserveIn →
    computeAmountOut lib pool offerWallet amount = .ok out → out < reserveOut := by
  intro h
  exact absurd (h exampleLib { examplePool with reserve1 := 0 } (exampleAddress exampleToken0)
    (exampleAddress exampleToken1) (exampleAddress exampleToken0) exampleToken0 3809436784065 0
    1000000000 0 ⟨by decide +kernel, by decide +kernel, by decide⟩ (by decide +kernel)
    (by decide +kernel) (by decide) (by decide +kernel)) (by decide)

example : scaledNextMinAskAmount exampleLib ⟨"260238", "257635"⟩ ⟨"709", "702"⟩ = .ok 694 := by
  decide +kernel

end GemCore.Stonfi
