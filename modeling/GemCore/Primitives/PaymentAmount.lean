import GemCore.Lib.Decimal
import GemCore.Primitives.TransactionLoad

/-!
# Amounts in payment links

The amounts of payment links (`primitives/src/payment_decoder/amount.rs`): a text of digits with a
point, or of atomic units with an exponent, is read and written back as a decimal without trailing
zeros. The width of a padded text is a 16-bit number of the formatter, which panics above it.

## Main definitions

* `PaymentDecoder.Amount` — digits and the number of decimals among them.
* `PaymentDecoder.decimal`, `exact`, `exactFromAtomic`, `atomic` — the four readers.
* `PaymentDecoder.Preserves` — what the readers owe a text.
* `PaymentDecoder.FitsFormatter` — the condition on a text.

## Main results

* `PaymentDecoder.Amount.parse_eq_some_iff` — what is read is the text's decimal.
* `PaymentDecoder.Amount.toText_spec` — what is written denotes the amount and is written
  back as it is.
* `PaymentDecoder.preserves_iff` — amounts are preserved iff the text fits the formatter.
-/

namespace GemCore

/-- `Asset::from_chain(chain).decimals`. -/
def Chain.decimals : Chain → ℤ
  | .ethereum | .smartChain | .polygon | .avalancheC | .arbitrum | .optimism | .base | .opBNB
  | .fantom | .gnosis | .injective | .seiEvm | .manta | .blast | .zkSync | .linea | .mantle | .celo
  | .world | .sonic | .plasma | .abstract | .berachain | .ink | .unichain | .hyperliquid | .monad
  | .xLayer | .robinhood | .stable => 18
  | .bitcoin | .bitcoinCash | .litecoin | .thorchain | .doge | .zcash | .aptos | .hyperCore => 8
  | .solana | .ton | .sui => 9
  | .mayachain | .polkadot => 10
  | .cosmos | .osmosis | .celestia | .tron | .xrp | .sei | .noble | .algorand | .cardano
  | .tempo => 6
  | .stellar => 7
  | .near => 24

end GemCore

namespace GemCore.PaymentDecoder

open Lib (splitOnce)
open Lib.Decimal

/-! ## Amounts -/

/-- A panic of the formatter: "Formatting argument out of range". -/
inductive Panic where
  | formattingArgument

/-- `MAX_EXPONENT`. -/
def maxExponent : ℕ := 78

/-- `u32::try_from`. -/
def tryU32 (n : ℤ) : Option ℕ := if 0 ≤ n ∧ n < 2 ^ 32 then some n.toNat else none

/-- `str::parse::<u32>`: digits, with an optional plus sign. -/
def parseU32 (text : List Char) : Option ℕ :=
  let digits := stripPlus text
  if digits = [] ∨ ¬digits.all Char.isDigit then none
  else if value digits < 2 ^ 32 then some (value digits) else none

/-- `Amount`. -/
structure Amount where
  units : List Char
  decimals : ℕ

/-- `Amount::parse`. -/
def Amount.parse (text : List Char) : Option Amount :=
  let text := stripPlus text
  let (integer, fraction) := (splitOnce (· = '.') text).getD (text, [])
  let units := integer ++ fraction
  if units = [] ∨ ¬units.all Char.isDigit then none
  else (tryU32 fraction.length).map fun decimals => ⟨units, decimals⟩

/-- `Amount::parse_atomic`. -/
def Amount.parseAtomic (text : List Char) : Option Amount := do
  let (mantissa, exponent) :=
    (splitOnce (fun c => decide (c = 'e' ∨ c = 'E')) text).getD (text, ['0'])
  let exponent ← (parseU32 exponent).filter (· ≤ maxExponent)
  let amount ← Amount.parse mantissa
  if amount.decimals ≤ exponent then
    some ⟨amount.units ++ List.replicate (exponent - amount.decimals) '0', 0⟩
  else none

/-- `Amount::significant_decimals`: the count of zeros is cut to 32 bits. -/
def Amount.significantDecimals (amount : Amount) : ℕ :=
  amount.decimals - trailingZeros amount.units % 2 ^ 32

/-- `Display for Amount`: the units are padded to one digit more than there are decimals. -/
def Amount.toText (amount : Amount) : Except Panic (List Char) :=
  if 2 ^ 16 ≤ amount.decimals + 1 then .error .formattingArgument
  else
    let units := amount.units.leftpad (amount.decimals + 1) '0'
    let integer := units.take (units.length - amount.decimals)
    let fraction := units.drop (units.length - amount.decimals)
    match stripZeros fraction with
    | [] => .ok integer
    | c :: rest => .ok (integer ++ '.' :: (c :: rest))

/-- `decimal`. -/
def decimal (text : String) : Except Panic (Option String) :=
  match Amount.parse text.toList with
  | none => .ok none
  | some amount => amount.toText.map fun text => some (String.ofList text)

/-- `exact`. -/
def exact (text : String) (chain : Chain) : Except Panic (Option String) :=
  match tryU32 chain.decimals, Amount.parse text.toList with
  | some decimals, some amount =>
    if amount.significantDecimals ≤ decimals then
      amount.toText.map fun text => some (String.ofList text)
    else .ok none
  | _, _ => .ok none

/-- `exact_from_atomic`. -/
def exactFromAtomic (text : String) (chain : Chain) : Except Panic (Option String) :=
  match tryU32 chain.decimals, Amount.parseAtomic text.toList with
  | some decimals, some atomic =>
    (Amount.toText { atomic with decimals := decimals }).map fun text => some (String.ofList text)
  | _, _ => .ok none

/-- `atomic`: the units are digits, so that they are read as their number. -/
def atomic (text : String) : Option ℕ :=
  (Amount.parseAtomic text.toList).map fun amount => value amount.units

/-! ## Reading -/

lemma all_isDigit_iff {text : List Char} : text.all Char.isDigit = true ↔ Digits text :=
  List.all_eq_true

lemma tryU32_natCast (n : ℕ) : tryU32 n = if n < 2 ^ 32 then some n else none := by
  unfold tryU32
  by_cases h : n < 2 ^ 32
  · rw [if_pos h, if_pos ⟨by omega, by exact_mod_cast h⟩, Int.toNat_natCast]
  · rw [if_neg h, if_neg]
    rintro ⟨-, hlt⟩
    exact h (by exact_mod_cast hlt)

/-- **What is read** is a text's integer part and fraction, if the fraction has fewer than `2^32`
digits. -/
theorem Amount.parse_eq_some_iff {text : List Char} {amount : Amount} :
    Amount.parse text = some amount ↔ ∃ int frac, Plain text int frac ∧ frac.length < 2 ^ 32 ∧
      amount = ⟨int ++ frac, frac.length⟩ := by
  have hparse : Amount.parse text =
      if (split text).1 ++ (split text).2 = [] ∨ ¬((split text).1 ++ (split text).2).all Char.isDigit
      then none
      else (tryU32 (split text).2.length).map fun decimals =>
        ⟨(split text).1 ++ (split text).2, decimals⟩ := rfl
  rw [hparse]
  constructor
  · intro h
    split_ifs at h with hbad
    push Not at hbad
    obtain ⟨hne, hall⟩ := hbad
    rw [tryU32_natCast] at h
    split_ifs at h with hlt
    · refine ⟨(split text).1, (split text).2, plain_iff.mpr ⟨rfl, all_isDigit_iff.mp hall, hne⟩, hlt, ?_⟩
      exact (Option.some.inj h).symm
    · cases h
  · rintro ⟨int, frac, hplain, hlt, rfl⟩
    obtain ⟨hsplit, hdigits, hne⟩ := plain_iff.mp hplain
    rw [hsplit, if_neg, tryU32_natCast, if_pos hlt]
    · rfl
    · push Not
      exact ⟨hne, all_isDigit_iff.mpr hdigits⟩

/-- An exponent is digits behind an optional plus sign. -/
lemma parseU32_eq_some {text : List Char} {n : ℕ} (h : parseU32 text = some n) :
    ∃ sign digits, (sign = [] ∨ sign = ['+']) ∧ digits ≠ [] ∧ Digits digits ∧ value digits = n ∧
      text = sign ++ digits := by
  unfold parseU32 at h
  dsimp only at h
  split_ifs at h with hbad hlt
  push Not at hbad
  obtain ⟨sign, hsign, htext⟩ := stripPlus_cases text
  exact ⟨sign, stripPlus text, hsign, hbad.1, all_isDigit_iff.mp hbad.2, Option.some.inj h, htext⟩

/-- **What is read of atomic units** is their number. -/
theorem Amount.parseAtomic_eq_some {text : List Char} {amount : Amount}
    (h : Amount.parseAtomic text = some amount) :
    Digits amount.units ∧ DenotesScaled text (value amount.units) := by
  unfold Amount.parseAtomic at h
  simp only [Option.bind_eq_bind, Option.bind_eq_some_iff, Option.filter_eq_some_iff] at h
  obtain ⟨exponent, ⟨hexponent, -⟩, mantissa, hmantissa, h⟩ := h
  split_ifs at h with hle
  obtain rfl := Option.some.inj h
  obtain ⟨int, frac, hplain, -, rfl⟩ := Amount.parse_eq_some_iff.mp hmantissa
  dsimp only at hle ⊢
  have hnumber : (value (int ++ frac ++ List.replicate (exponent - frac.length) '0') : ℚ) =
      (value int + value frac / 10 ^ frac.length) * 10 ^ exponent := by
    rw [← number_append, number, value_append_zeros]
    obtain ⟨k, rfl⟩ := Nat.exists_eq_add_of_le hle
    rw [Nat.add_sub_cancel_left, pow_add]
    push_cast
    field_simp
  refine ⟨digits_append.mpr ⟨hplain.digits, Digits.replicate_zero _⟩, ?_⟩
  rcases Lib.splitOnce_cases (fun c => decide (c = 'e' ∨ c = 'E')) text with
    ⟨hnone, -⟩ | ⟨before, c, after, rfl, hc, -, hsome⟩
  · rw [hnone] at hexponent hplain
    have hzero : exponent = 0 := by
      have : parseU32 ['0'] = some 0 := by decide
      exact (Option.some.inj (this.symm.trans hexponent)).symm
    exact ⟨text, _, exponent, ⟨int, frac, hplain, rfl⟩, hnumber, .inl ⟨rfl, hzero⟩⟩
  · rw [hsome] at hexponent hplain
    obtain ⟨sign, digits, hsign, hne, hdigits, hvalue, hafter⟩ := parseU32_eq_some hexponent
    dsimp only [Option.getD_some] at hafter
    refine ⟨before, _, exponent, ⟨int, frac, hplain, rfl⟩, hnumber, .inr ⟨c, sign, digits, ?_, hsign,
      hne, hdigits, hvalue, by rw [hafter]⟩⟩
    exact of_decide_eq_true hc

/-! ## Writing -/

/-- An integer part and a fraction, with a point if there is a fraction. -/
def render (int frac : List Char) : List Char :=
  match frac with
  | [] => int
  | c :: rest => int ++ '.' :: (c :: rest)

lemma plain_render {int frac : List Char} (hne : int ≠ []) (h : Digits (int ++ frac)) :
    Plain (render int frac) int frac := by
  refine ⟨h, List.append_ne_nil_of_left_ne_nil hne _, [], .inl rfl, ?_⟩
  cases frac with
  | nil => exact .inl ⟨rfl, rfl⟩
  | cons c rest => exact .inr rfl

/-- `Display` writes the padded units, without the zeros at the end of the fraction. -/
theorem Amount.toText_eq {amount : Amount} (h : amount.decimals + 1 < 2 ^ 16) :
    amount.toText =
      (let units := amount.units.leftpad (amount.decimals + 1) '0'
      .ok (render (units.take (units.length - amount.decimals))
        (stripZeros (units.drop (units.length - amount.decimals))))) := by
  unfold Amount.toText
  rw [if_neg (by omega)]
  dsimp only
  unfold render
  split <;> rfl

/-- A decimal without trailing zeros is written as it is. -/
lemma Amount.toText_render {int frac : List Char} (hne : int ≠ [])
    (hfrac : stripZeros frac = frac) (h : frac.length + 1 < 2 ^ 16) :
    Amount.toText ⟨int ++ frac, frac.length⟩ = .ok (render int frac) := by
  have hpos := List.length_pos_iff.mpr hne
  have hpad : (int ++ frac).leftpad (frac.length + 1) '0' = int ++ frac := by
    unfold List.leftpad
    have hzero : frac.length + 1 - (int ++ frac).length = 0 := by
      rw [List.length_append]
      omega
    rw [hzero]
    rfl
  have hlength : (int ++ frac).length - frac.length = int.length := by
    rw [List.length_append]
    omega
  rw [Amount.toText_eq h]
  dsimp only
  rw [hpad, hlength, List.take_left, List.drop_left, hfrac]

/-- **What is written** is a decimal without trailing zeros, of the same number. -/
theorem Amount.toText_spec {amount : Amount} (hdigits : Digits amount.units)
    (h : amount.decimals + 1 < 2 ^ 16) :
    ∃ int frac, amount.toText = .ok (render int frac) ∧ int ≠ [] ∧ Digits (int ++ frac) ∧
      stripZeros frac = frac ∧ frac.length ≤ amount.decimals ∧
      (value int + value frac / 10 ^ frac.length : ℚ) = number amount.units amount.decimals := by
  rw [Amount.toText_eq h]
  dsimp only
  set units := amount.units.leftpad (amount.decimals + 1) '0' with hunits
  have hlong : amount.decimals + 1 ≤ units.length := by
    rw [hunits, List.length_leftpad]
    omega
  have hpadded : Digits units := by
    rw [hunits, List.leftpad]
    exact digits_append.mpr ⟨Digits.replicate_zero _, hdigits⟩
  set int := units.take (units.length - amount.decimals) with hint
  set fraction := units.drop (units.length - amount.decimals) with hfraction
  have hjoin : int ++ fraction = units := List.take_append_drop _ _
  have hlength : fraction.length = amount.decimals := by
    rw [hfraction, List.length_drop]
    omega
  have hstrip := stripZeros_append_zeros fraction
  refine ⟨int, stripZeros fraction, rfl, ?_, ?_, List.rdropWhile_idempotent _ _, ?_, ?_⟩
  · intro hnil
    have := congrArg List.length hnil
    rw [hint, List.length_take, List.length_nil] at this
    omega
  · rw [← hjoin, digits_append] at hpadded
    rw [← hstrip, digits_append] at hpadded
    exact digits_append.mpr ⟨hpadded.1, hpadded.2.1⟩
  · have := congrArg List.length hstrip
    rw [List.length_append] at this
    omega
  · rw [value_stripZeros_div, ← number_append, hjoin, hlength, number, number, hunits,
      List.leftpad, value_zeros_append]

/-! ## What the readers owe a text -/

/-- The number of units in one of the chain's native asset, as a power of ten. -/
def chainDecimals (chain : Chain) : ℕ := chain.decimals.toNat

/-- **What the readers owe a text**: what they return has its number, for atomic units divided by
those of the chain, and is written back as it is; and the exact reader returns something for the
decimals that are a number of atomic units. -/
structure Preserves (text : String) (chain : Chain) : Prop where
  decimal : ∀ result, decimal text = .ok (some result) →
    ∃ q, Denotes text.toList q ∧ Denotes result.toList q
  exact : ∀ result, exact text chain = .ok (some result) →
    ∃ q, Denotes text.toList q ∧ Denotes result.toList q
  exactFromAtomic : ∀ result, exactFromAtomic text chain = .ok (some result) →
    ∃ q, DenotesScaled text.toList q ∧ Denotes result.toList (q / 10 ^ chainDecimals chain)
  atomic : ∀ n, atomic text = some n → ∀ q, DenotesScaled text.toList q ↔ q = n
  rereads : ∀ result, PaymentDecoder.decimal text = .ok (some result) ∨
    PaymentDecoder.exact text chain = .ok (some result) ∨
    PaymentDecoder.exactFromAtomic text chain = .ok (some result) →
    PaymentDecoder.decimal result = .ok (some result)
  exact_iff : (∃ result, PaymentDecoder.exact text chain = .ok (some result)) ↔
    ∃ q, Denotes text.toList q ∧ ∃ n : ℕ, q = n / 10 ^ chainDecimals chain

/-- **The condition on a text**: if it is a decimal that is a number of atomic units, its fraction
has fewer than 65535 digits, and the zeros its digits end in, their number cut to 32 bits, leave no
more decimals than the chain has. -/
def FitsFormatter (text : String) (chain : Chain) : Prop :=
  ∀ int frac, Plain text.toList int frac →
    (∃ n : ℕ, number (int ++ frac) frac.length = n / 10 ^ chainDecimals chain) →
    frac.length < 65535 ∧
      frac.length - trailingZeros (int ++ frac) % 2 ^ 32 ≤ chainDecimals chain

lemma tryU32_decimals (chain : Chain) :
    tryU32 chain.decimals = some (chainDecimals chain) ∧ chainDecimals chain < 65535 := by
  cases chain <;> decide

/-- What is written of an amount of digits has its number and is written back as it is. -/
theorem Amount.toText_ok {amount : Amount} {result : String} (hdigits : Digits amount.units)
    (h : (amount.toText.map fun text => some (String.ofList text)) = .ok (some result)) :
    Denotes result.toList (number amount.units amount.decimals) ∧
      PaymentDecoder.decimal result = .ok (some result) ∧ amount.decimals + 1 < 2 ^ 16 := by
  have hsmall : amount.decimals + 1 < 2 ^ 16 := by
    by_contra hlarge
    rw [Amount.toText, if_pos (by omega)] at h
    cases h
  obtain ⟨int, frac, htext, hne, hplain, hstrip, hle, hvalue⟩ := Amount.toText_spec hdigits hsmall
  rw [htext] at h
  obtain rfl : String.ofList (render int frac) = result := Option.some.inj (Except.ok.inj h)
  have hrender := plain_render hne hplain
  refine ⟨?_, ?_, hsmall⟩
  · rw [String.toList_ofList]
    exact ⟨int, frac, hrender, hvalue.symm⟩
  · have hparse : Amount.parse (render int frac) = some ⟨int ++ frac, frac.length⟩ :=
      Amount.parse_eq_some_iff.mpr ⟨int, frac, hrender, by omega, rfl⟩
    unfold PaymentDecoder.decimal
    rw [String.toList_ofList, hparse]
    dsimp only
    rw [Amount.toText_render hne hstrip (by omega)]
    rfl

/-- What is returned for a decimal. -/
lemma decimal_eq_some {text result : String} (h : decimal text = .ok (some result)) :
    (∃ q, Denotes text.toList q ∧ Denotes result.toList q) ∧
      decimal result = .ok (some result) := by
  unfold decimal at h
  split at h
  · cases h
  · rename_i amount hamount
    obtain ⟨int, frac, hplain, -, rfl⟩ := Amount.parse_eq_some_iff.mp hamount
    obtain ⟨hdenotes, hreads, -⟩ := Amount.toText_ok hplain.digits h
    exact ⟨⟨_, ⟨int, frac, hplain, rfl⟩, number_append int frac ▸ hdenotes⟩, hreads⟩

/-- When the exact reader returns something, and what. -/
lemma exact_eq_some {text result : String} {chain : Chain}
    (h : exact text chain = .ok (some result)) :
    ∃ int frac, Plain text.toList int frac ∧ frac.length < 65535 ∧
      frac.length - trailingZeros (int ++ frac) % 2 ^ 32 ≤ chainDecimals chain ∧
      Denotes result.toList (number (int ++ frac) frac.length) ∧
      decimal result = .ok (some result) := by
  unfold exact at h
  rw [(tryU32_decimals chain).1] at h
  split at h
  · rename_i decimals amount hdecimals hamount
    obtain rfl := Option.some.inj hdecimals
    obtain ⟨int, frac, hplain, -, rfl⟩ := Amount.parse_eq_some_iff.mp hamount
    split_ifs at h with hle
    · obtain ⟨hdenotes, hreads, hsmall⟩ := Amount.toText_ok hplain.digits h
      dsimp only at hsmall
      exact ⟨int, frac, hplain, by omega, hle, hdenotes, hreads⟩
    · cases h
  · cases h

/-- The exact reader returns something for a decimal that fits. -/
lemma exists_exact {text : String} {chain : Chain} {int frac : List Char}
    (hplain : Plain text.toList int frac) (hsmall : frac.length < 65535)
    (hle : frac.length - trailingZeros (int ++ frac) % 2 ^ 32 ≤ chainDecimals chain) :
    ∃ result, exact text chain = .ok (some result) := by
  have hparse : Amount.parse text.toList = some ⟨int ++ frac, frac.length⟩ :=
    Amount.parse_eq_some_iff.mpr ⟨int, frac, hplain, by omega, rfl⟩
  have hwidth : frac.length + 1 < 2 ^ 16 := by omega
  obtain ⟨int', frac', htext, -⟩ :=
    @Amount.toText_spec ⟨int ++ frac, frac.length⟩ hplain.digits hwidth
  refine ⟨String.ofList (render int' frac'), ?_⟩
  unfold exact
  rw [(tryU32_decimals chain).1, hparse]
  dsimp only
  rw [if_pos (by exact hle), htext]
  rfl

/-- What is returned for atomic units. -/
lemma exactFromAtomic_eq_some {text result : String} {chain : Chain}
    (h : exactFromAtomic text chain = .ok (some result)) :
    (∃ q, DenotesScaled text.toList q ∧ Denotes result.toList (q / 10 ^ chainDecimals chain)) ∧
      decimal result = .ok (some result) := by
  unfold exactFromAtomic at h
  rw [(tryU32_decimals chain).1] at h
  split at h
  · rename_i decimals amount hdecimals hamount
    obtain rfl := Option.some.inj hdecimals
    obtain ⟨hdigits, hscaled⟩ := Amount.parseAtomic_eq_some hamount
    obtain ⟨hdenotes, hreads, -⟩ :=
      @Amount.toText_ok ⟨amount.units, chainDecimals chain⟩ result hdigits h
    exact ⟨⟨_, hscaled, hdenotes⟩, hreads⟩
  · cases h

/-- A decimal with more trailing zeros than are counted has no more decimals than counted. -/
theorem units_of_le {int frac : List Char} {d : ℕ} (hdigits : Digits (int ++ frac))
    (h : frac.length - trailingZeros (int ++ frac) % 2 ^ 32 ≤ d) :
    ∃ n : ℕ, number (int ++ frac) frac.length = n / 10 ^ d := by
  rw [exists_units_iff hdigits (by rw [List.length_append]; omega)]
  have := Nat.mod_le (trailingZeros (int ++ frac)) (2 ^ 32)
  omega

/-- A text whose amount is preserved fits the formatter. -/
lemma fits_of_preserves {text : String} {chain : Chain} (h : Preserves text chain) :
    FitsFormatter text chain := by
  intro int frac hplain hunits
  obtain ⟨result, hresult⟩ := h.exact_iff.mpr
    ⟨_, ⟨int, frac, hplain, rfl⟩, number_append int frac ▸ hunits⟩
  obtain ⟨int', frac', hplain', hsmall, hle, -⟩ := exact_eq_some hresult
  obtain ⟨rfl, rfl⟩ := hplain.unique hplain'
  exact ⟨hsmall, hle⟩

/-- **Amounts are preserved** exactly when the text fits the formatter.

**Proof sketch.** What is read is the integer part and the fraction, what is written is a decimal of
the same number; both hold of every text. What depends on the condition is that the exact reader
returns something: it does so for a decimal with few enough decimals before its trailing zeros, as
it counts these, if the padded text can be formatted. -/
theorem preserves_iff (text : String) (chain : Chain) :
    Preserves text chain ↔ FitsFormatter text chain := by
  refine ⟨fits_of_preserves, fun h => ?_⟩
  refine ⟨fun _ hr => (decimal_eq_some hr).1, fun result hr => ?_,
    fun _ hr => (exactFromAtomic_eq_some hr).1, fun n hn => ?_, ?_, ?_, ?_⟩
  · obtain ⟨int, frac, hplain, -, -, hdenotes, -⟩ := exact_eq_some hr
    exact ⟨_, ⟨int, frac, hplain, rfl⟩, number_append int frac ▸ hdenotes⟩
  · obtain ⟨amount, hamount, rfl⟩ := Option.map_eq_some_iff.mp hn
    have hscaled := (Amount.parseAtomic_eq_some hamount).2
    intro q
    constructor
    · exact fun hq => hq.unique hscaled
    · rintro rfl
      exact hscaled
  · rintro result (hr | hr | hr)
    · exact (decimal_eq_some hr).2
    · obtain ⟨_, _, -, -, -, -, hreads⟩ := exact_eq_some hr
      exact hreads
    · exact (exactFromAtomic_eq_some hr).2
  · rintro ⟨result, hr⟩
    obtain ⟨int, frac, hplain, -, hle, -⟩ := exact_eq_some hr
    exact ⟨_, ⟨int, frac, hplain, rfl⟩, number_append int frac ▸ units_of_le hplain.digits hle⟩
  · rintro ⟨q, ⟨int, frac, hplain, rfl⟩, hunits⟩
    rw [← number_append] at hunits
    obtain ⟨hsmall, hle⟩ := h int frac hplain hunits
    exact exists_exact hplain hsmall hle

/-! ## Texts that do not fit -/

/-- A one, zeros, and zeros behind the point. -/
def oneWithZeros (n k : ℕ) : String :=
  String.ofList ('1' :: List.replicate n '0' ++ '.' :: List.replicate k '0')

lemma plain_oneWithZeros (n k : ℕ) :
    Plain (oneWithZeros n k).toList ('1' :: List.replicate n '0') (List.replicate k '0') := by
  refine ⟨?_, by simp, [], .inl rfl, .inr ?_⟩
  · refine digits_append.mpr ⟨?_, Digits.replicate_zero k⟩
    exact List.forall_mem_cons.mpr ⟨rfl, Digits.replicate_zero n⟩
  · rw [oneWithZeros, String.toList_ofList]
    rfl

/-- Its digits are a one and all the zeros. -/
lemma digits_oneWithZeros (n k : ℕ) :
    '1' :: List.replicate n '0' ++ List.replicate k '0' = ['1'] ++ List.replicate (n + k) '0' := by
  rw [List.cons_append, List.replicate_append_replicate]
  rfl

lemma trailingZeros_oneWithZeros (m : ℕ) :
    trailingZeros (['1'] ++ List.replicate m '0') = m := by
  have hstrip : stripZeros (['1'] ++ List.replicate m '0') = ['1'] := by
    induction m with
    | zero => rfl
    | succ m ih =>
      rw [List.replicate_succ', ← List.append_assoc]
      exact (List.rdropWhile_concat_pos _ _ _ (by decide)).trans ih
  unfold trailingZeros
  rw [hstrip, List.length_append, List.length_replicate, List.length_singleton]
  omega

/-- It is a number of atomic units on every chain. -/
lemma units_oneWithZeros (n k d : ℕ) :
    ∃ m : ℕ, number ('1' :: List.replicate n '0' ++ List.replicate k '0')
      (List.replicate k '0').length = m / 10 ^ d := by
  refine ⟨10 ^ n * 10 ^ d, ?_⟩
  have hone : value ['1'] = 1 := rfl
  rw [digits_oneWithZeros, number, value_append_zeros, hone, List.length_replicate, pow_add]
  push_cast
  field_simp

lemma parse_oneWithZeros (n : ℕ) {k : ℕ} (hk : k < 2 ^ 32) :
    Amount.parse (oneWithZeros n k).toList = some ⟨['1'] ++ List.replicate (n + k) '0', k⟩ := by
  refine Amount.parse_eq_some_iff.mpr ⟨_, _, plain_oneWithZeros n k, ?_, ?_⟩
  · rwa [List.length_replicate]
  · rw [digits_oneWithZeros, List.length_replicate]

/-- A fraction of 65535 digits and more cannot be formatted. -/
lemma exact_oneWithZeros_panics {k : ℕ} (hlong : 65535 ≤ k) (hk : k < 2 ^ 32) :
    exact (oneWithZeros 0 k) .bitcoin = .error .formattingArgument ∧
      ¬Preserves (oneWithZeros 0 k) .bitcoin := by
  have hchain : tryU32 (Chain.decimals .bitcoin) = some 8 := rfl
  constructor
  · unfold exact
    rw [hchain, parse_oneWithZeros 0 hk]
    dsimp only
    rw [Amount.significantDecimals, trailingZeros_oneWithZeros, if_pos (by dsimp only; omega),
      Amount.toText, if_pos (by dsimp only; omega)]
    rfl
  · intro h
    obtain ⟨hsmall, -⟩ := fits_of_preserves h _ _ (plain_oneWithZeros _ _)
      (units_oneWithZeros _ _ _)
    rw [List.length_replicate] at hsmall
    omega

/-- A multiple of `2^32` zeros counts as none. -/
lemma exact_oneWithZeros_none {n : ℕ} (hn : (n + 9) % 2 ^ 32 = 0) :
    exact (oneWithZeros n 9) .bitcoin = .ok none ∧ ¬Preserves (oneWithZeros n 9) .bitcoin := by
  have hchain : tryU32 (Chain.decimals .bitcoin) = some 8 := rfl
  have hdecimals : chainDecimals .bitcoin = 8 := rfl
  constructor
  · unfold exact
    rw [hchain, parse_oneWithZeros _ (by norm_num)]
    dsimp only
    rw [Amount.significantDecimals, trailingZeros_oneWithZeros, hn, if_neg (by norm_num)]
  · intro h
    obtain ⟨-, hle⟩ := fits_of_preserves h _ _ (plain_oneWithZeros _ _)
      (units_oneWithZeros _ _ _)
    rw [digits_oneWithZeros, trailingZeros_oneWithZeros, List.length_replicate, hn, hdecimals] at hle
    omega

/-- **Two amounts that are not preserved**: one bitcoin with 65535 zeros behind the point, at which
the formatter panics; and a power of ten with nine zeros behind the point whose digits end in `2^32`
zeros, which is not returned, because they are counted as none. -/
theorem not_preserves_oneWithZeros :
    (exact (oneWithZeros 0 65535) .bitcoin = .error .formattingArgument ∧
      ¬Preserves (oneWithZeros 0 65535) .bitcoin) ∧
    exact (oneWithZeros 4294967287 9) .bitcoin = .ok none ∧
      ¬Preserves (oneWithZeros 4294967287 9) .bitcoin :=
  ⟨exact_oneWithZeros_panics (by norm_num) (by norm_num), exact_oneWithZeros_none (by norm_num)⟩

end GemCore.PaymentDecoder
