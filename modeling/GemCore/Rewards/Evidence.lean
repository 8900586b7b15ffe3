import GemCore.Lib.Lists
import GemCore.Rewards.RiskScore

/-!
# More evidence and the risk score

What becomes of a risk score when there is more evidence against a referral: signals in another order, one
signal more, higher counts. Two parts of the score can go down: the penalty for the provider with the
device model, which the first match of the fingerprint replaces, and the penalty for the speed, which is
lower when an older signal makes the signals of the referrer span more time.

## Main definitions

* `RiskScoreConfig.NonNegative` — the configurations that are considered.
* `RiskScore.NoLess` — a score that is no better for the referral.
* `IspModelKept`, `VelocityKept` — that the two parts do not go down.

## Main results

* `Matches.within_add` — the body of the loop takes nothing back.
* `score_noLess` — more evidence never lowers a score but for the two parts.
* `score_lower_with_older_signal` — how each of the two parts lowers one.
-/

namespace GemCore.Rewards

open RiskSignalInput

variable {lib : RiskLib} {input : RiskSignalInput} {config : RiskScoreConfig} {now : ℤ}

/-! ## The order of the signals -/

/-- Two signals are taken in either order. -/
lemma Matches.add_comm (found : Matches) (a b : RiskSignalRow) :
    (found.add lib input a).add lib input b = (found.add lib input b).add lib input a := by
  by_cases ha : a.referrerUsername = input.username <;>
    by_cases hb : b.referrerUsername = input.username
  · simp only [Matches.add, ha, hb, if_true, Int.add_right_comm]
  · simp only [Matches.add, ha, hb, if_true, if_false]
  · simp only [Matches.add, ha, hb, if_true, if_false]
  · simp only [Matches.add, ha, hb, if_false, Bool.or_right_comm]
    congr 1 <;> split <;> split <;> simp [Finset.insert_comm]

instance : RightCommutative (Matches.add lib input) := ⟨Matches.add_comm⟩

lemma matchSignals_perm {signals signals' : List RiskSignalRow} (h : signals.Perm signals') :
    matchSignals lib input signals = matchSignals lib input signals' := h.foldl_eq _

/-- A signal in front is taken last. -/
lemma matchSignals_cons (signal : RiskSignalRow) (signals : List RiskSignalRow) :
    matchSignals lib input (signal :: signals) =
      (matchSignals lib input signals).add lib input signal := by
  rw [matchSignals_perm (List.perm_append_singleton signal signals).symm, matchSignals,
    List.foldl_append]
  rfl

lemma spanSecs_perm {times times' : List ℤ} (h : times.Perm times') :
    spanSecs times = spanSecs times' := by
  rw [spanSecs, spanSecs, Lib.max?_perm h, Lib.min?_perm h]

lemma speedMultiplier_perm {times times' : List ℤ} (h : times.Perm times') :
    speedMultiplier config times = speedMultiplier config times' := by
  rw [speedMultiplier, speedMultiplier, h.length_eq, spanSecs_perm h]

lemma countSignalsInRecentWindow_perm {signals signals' : List RiskSignalRow}
    (h : signals.Perm signals') : countSignalsInRecentWindow config input now signals =
      countSignalsInRecentWindow config input now signals' := by
  have hrecent := (h.filter (isRecent config input now)).map (·.createdAt)
  rw [countSignalsInRecentWindow, countSignalsInRecentWindow, hrecent.length_eq,
    speedMultiplier_perm hrecent]

lemma velocityScore_perm {signals signals' : List RiskSignalRow} (h : signals.Perm signals') :
    velocityScore config input now signals = velocityScore config input now signals' := by
  rw [velocityScore, velocityScore, countSignalsInRecentWindow_perm h]

/-- **The order of the signals makes no difference.** -/
theorem calculateRiskScore_perm {signals signals' : List RiskSignalRow} (counts : RiskCounts)
    (h : signals.Perm signals') :
    calculateRiskScore lib now input signals counts config =
      calculateRiskScore lib now input signals' counts config := by
  simp only [calculateRiskScore, matchSignals_perm h, velocityScore_perm h]

/-! ## What a signal adds to the matches -/

/-- Everything that was found still is. -/
structure Matches.Within (found found' : Matches) : Prop where
  fingerprintReferrers : found.fingerprintReferrers ⊆ found'.fingerprintReferrers
  deviceIdReferrers : found.deviceIdReferrers ⊆ found'.deviceIdReferrers
  ipMatched : found.ipMatched → found'.ipMatched
  crossReferrerDeviceMatched : found.crossReferrerDeviceMatched → found'.crossReferrerDeviceMatched
  sameReferrerPatternCount : found.sameReferrerPatternCount ≤ found'.sameReferrerPatternCount
  sameReferrerFingerprintCount :
    found.sameReferrerFingerprintCount ≤ found'.sameReferrerFingerprintCount
  sameReferrerDeviceModelCount :
    found.sameReferrerDeviceModelCount ≤ found'.sameReferrerDeviceModelCount

/-- One more signal takes nothing back. -/
lemma Matches.within_add (found : Matches) (signal : RiskSignalRow) :
    found.Within (found.add lib input signal) := by
  by_cases h : signal.referrerUsername = input.username
  · simp only [Matches.add, h, if_true]
    constructor <;> grind
  · simp only [Matches.add, h, if_false]
    constructor <;> grind

/-- Whether a signal is the fingerprint of the referral at another referrer. -/
def matchesFingerprint (lib : RiskLib) (input : RiskSignalInput) (signal : RiskSignalRow) : Prop :=
  signal.referrerUsername ≠ input.username ∧ signal.fingerprint = input.generateFingerprint lib

/-- Whether a signal is the provider and the device model of the referral at another referrer. -/
def matchesIspModel (input : RiskSignalInput) (signal : RiskSignalRow) : Prop :=
  signal.referrerUsername ≠ input.username ∧ signal.ipIsp = input.ipIsp ∧
    signal.deviceModel = input.deviceModel

lemma fingerprintReferrers_eq_empty_iff (signals : List RiskSignalRow) :
    (matchSignals lib input signals).fingerprintReferrers = ∅ ↔
      ∀ s ∈ signals, ¬ matchesFingerprint lib input s := by
  induction signals with
  | nil => simp [matchSignals]
  | cons signal signals ih =>
      rw [matchSignals_cons, List.forall_mem_cons, ← ih]
      by_cases h : signal.referrerUsername = input.username
      · simp [Matches.add, matchesFingerprint, h]
      · by_cases hf : signal.fingerprint = input.generateFingerprint lib <;>
          simp [Matches.add, matchesFingerprint, h, hf]

lemma ispModelMatched_iff (signals : List RiskSignalRow) :
    (matchSignals lib input signals).ispModelMatched = true ↔
      ∃ s ∈ signals, matchesIspModel input s := by
  induction signals with
  | nil => simp [matchSignals]
  | cons signal signals ih =>
      rw [matchSignals_cons, List.exists_mem_cons_iff, ← ih]
      by_cases h : signal.referrerUsername = input.username
      · simp [Matches.add, matchesIspModel, h]
      · simp [Matches.add, matchesIspModel, h, or_comm]

/-! ## The speed of a referrer -/

lemma truncate_mono {x y : ℚ} (h : x ≤ y) : truncate x ≤ truncate y := by
  unfold truncate
  split
  case isTrue hx => simpa [hx.trans h] using Int.floor_le_floor h
  case isFalse hx =>
    have hneg : ⌈x⌉ ≤ 0 := Int.ceil_le.2 (by push_cast; linarith)
    split
    case isTrue hy => exact hneg.trans (Int.floor_nonneg.2 hy)
    case isFalse => exact Int.ceil_le_ceil h

@[simp] lemma truncate_zero : truncate 0 = 0 := by simp [truncate]

/-- The times of the recent signals of the referrer. -/
def recentTimes (config : RiskScoreConfig) (input : RiskSignalInput) (now : ℤ)
    (signals : List RiskSignalRow) : List ℤ :=
  (signals.filter (isRecent config input now)).map (·.createdAt)

/-- That a recent signal which reaches the threshold does not slow the referrer down by more than it
adds: the signals over the threshold, times the speed, are no fewer than before. -/
def VelocityKept (config : RiskScoreConfig) (input : RiskSignalInput) (now : ℤ)
    (signals : List RiskSignalRow) (signal : RiskSignalRow) : Prop :=
  let times := recentTimes config input now signals
  let excess : ℤ := times.length + 1 - input.velocityThreshold config
  isRecent config input now signal = true → 0 ≤ excess →
    (excess : ℚ) * speedMultiplier config times ≤
      ((excess + 1 : ℤ) : ℚ) * speedMultiplier config (signal.createdAt :: times)

lemma velocityScore_eq (signals : List RiskSignalRow) :
    velocityScore config input now signals =
      if input.velocityThreshold config ≤ (recentTimes config input now signals).length then
        truncate ((((recentTimes config input now signals).length - input.velocityThreshold config + 1) *
            config.velocityPenalty : ℤ) *
          speedMultiplier config (recentTimes config input now signals))
      else 0 := by
  simp only [velocityScore, countSignalsInRecentWindow, recentTimes, List.length_map]

lemma velocityScore_cons_le {signals : List RiskSignalRow} {signal : RiskSignalRow}
    (hpenalty : 0 ≤ config.velocityPenalty) (h : VelocityKept config input now signals signal) :
    velocityScore config input now signals ≤ velocityScore config input now (signal :: signals) := by
  have htimes : recentTimes config input now (signal :: signals) =
      if isRecent config input now signal then signal.createdAt :: recentTimes config input now signals
      else recentTimes config input now signals := by
    unfold recentTimes
    rw [List.filter_cons]
    split <;> rfl
  rw [velocityScore_eq, velocityScore_eq, htimes]
  by_cases hrecent : isRecent config input now signal = true
  · simp only [hrecent, if_true, List.length_cons]
    have hkept := h hrecent
    generalize recentTimes config input now signals = times at hkept ⊢
    -- `excess` signals reach the threshold before, and one more after.
    obtain ⟨excess, hexcess⟩ : ∃ excess, excess = (times.length : ℤ) + 1 - input.velocityThreshold config :=
      ⟨_, rfl⟩
    have hbefore : (times.length : ℤ) - input.velocityThreshold config + 1 = excess := by omega
    have hafter : ((times.length + 1 : ℕ) : ℤ) - input.velocityThreshold config + 1 = excess + 1 := by
      omega
    rw [hbefore, hafter]
    have hpenalty' : (0 : ℚ) ≤ config.velocityPenalty := by exact_mod_cast hpenalty
    have hscale (n : ℤ) (speed : ℚ) : ((n * config.velocityPenalty : ℤ) : ℚ) * speed =
        (n * speed) * config.velocityPenalty := by push_cast; ring
    by_cases hreached : 0 ≤ excess
    · have hround : truncate ((excess * config.velocityPenalty : ℤ) * speedMultiplier config times) ≤
          truncate (((excess + 1) * config.velocityPenalty : ℤ) *
            speedMultiplier config (signal.createdAt :: times)) := by
        refine truncate_mono ?_
        rw [hscale, hscale]
        refine mul_le_mul_of_nonneg_right ?_ hpenalty'
        rw [hexcess] at hreached ⊢
        exact hkept hreached
      rw [if_pos (c := _ ≤ ((times.length + 1 : ℕ) : ℤ)) (by omega)]
      split
      case isTrue => exact hround
      case isFalse hbelow =>
        have hzero : excess = 0 := by omega
        simpa [hzero] using hround
    · rw [if_neg (by omega), if_neg (by omega)]
  · simp only [hrecent, Bool.false_eq_true, if_false, le_refl]

/-! ## The score -/

/-- That the penalties, caps and thresholds are not negative, and that the velocity window is a second
at least. -/
structure RiskScoreConfig.NonNegative (config : RiskScoreConfig) : Prop where
  fingerprintMatchPenaltyPerReferrer : 0 ≤ config.fingerprintMatchPenaltyPerReferrer
  fingerprintMatchMaxPenalty : 0 ≤ config.fingerprintMatchMaxPenalty
  ipReuseScore : 0 ≤ config.ipReuseScore
  ispModelMatchScore : 0 ≤ config.ispModelMatchScore
  deviceIdReusePenaltyPerReferrer : 0 ≤ config.deviceIdReusePenaltyPerReferrer
  deviceIdReuseMaxPenalty : 0 ≤ config.deviceIdReuseMaxPenalty
  blockedIpTypePenalty : 0 ≤ config.blockedIpTypePenalty
  maxAbuseScore : 0 ≤ config.maxAbuseScore
  ispPenaltyScore : 0 ≤ config.ispPenaltyScore
  maxAllowedScore : 0 ≤ config.maxAllowedScore
  sameReferrerPatternThreshold : 0 ≤ config.sameReferrerPatternThreshold
  sameReferrerPatternPenalty : 0 ≤ config.sameReferrerPatternPenalty
  sameReferrerFingerprintThreshold : 0 ≤ config.sameReferrerFingerprintThreshold
  sameReferrerFingerprintPenalty : 0 ≤ config.sameReferrerFingerprintPenalty
  sameReferrerDeviceModelThreshold : 0 ≤ config.sameReferrerDeviceModelThreshold
  sameReferrerDeviceModelPenalty : 0 ≤ config.sameReferrerDeviceModelPenalty
  deviceModelRingThreshold : 0 ≤ config.deviceModelRingThreshold
  deviceModelRingPenaltyPerMember : 0 ≤ config.deviceModelRingPenaltyPerMember
  highRiskPlatformStorePenalty : 0 ≤ config.highRiskPlatformStorePenalty
  highRiskCountryPenalty : 0 ≤ config.highRiskCountryPenalty
  highRiskLocalePenalty : 0 ≤ config.highRiskLocalePenalty
  highRiskDeviceModelPenalty : 0 ≤ config.highRiskDeviceModelPenalty
  highRiskUserAgentPenalty : 0 ≤ config.highRiskUserAgentPenalty
  windowSecs : 0 < config.windowSecs
  velocityPenalty : 0 ≤ config.velocityPenalty
  ipHistoryPenaltyPerAbuser : 0 ≤ config.ipHistoryPenaltyPerAbuser
  ipHistoryMaxPenalty : 0 ≤ config.ipHistoryMaxPenalty
  crossReferrerDevicePenalty : 0 ≤ config.crossReferrerDevicePenalty
  crossReferrerFingerprintThreshold : 0 ≤ config.crossReferrerFingerprintThreshold
  crossReferrerFingerprintPenalty : 0 ≤ config.crossReferrerFingerprintPenalty
  countryDiversityThreshold : 0 ≤ config.countryDiversityThreshold
  countryDiversityPenaltyPerCountry : 0 ≤ config.countryDiversityPenaltyPerCountry
  deviceFarmingThreshold : 0 ≤ config.deviceFarmingThreshold
  deviceFarmingPenaltyPerDevice : 0 ≤ config.deviceFarmingPenaltyPerDevice

/-- That a second score is no better for the referral than the first: it is not lower, and the referral is
not let through where the first refuses it. -/
def RiskScore.NoLess (before after : RiskScore) : Prop :=
  before.score ≤ after.score ∧ (before.isAllowed = false → after.isAllowed = false)

/-- That none of the counts is lower. -/
structure RiskCounts.Within (counts counts' : RiskCounts) : Prop where
  deviceModelRing : counts.deviceModelRing ≤ counts'.deviceModelRing
  ipAbuser : counts.ipAbuser ≤ counts'.ipAbuser
  crossReferrerFingerprint : counts.crossReferrerFingerprint ≤ counts'.crossReferrerFingerprint
  referrerCountry : counts.referrerCountry ≤ counts'.referrerCountry
  referrerDevice : counts.referrerDevice ≤ counts'.referrerDevice

/-- A score is no less when the sum of its parts is not. -/
lemma noLess_of_total_le {signals signals' : List RiskSignalRow} {counts counts' : RiskCounts}
    (h : (calculateRiskScore lib now input signals counts config).breakdown.total ≤
      (calculateRiskScore lib now input signals' counts' config).breakdown.total) :
    (calculateRiskScore lib now input signals counts config).NoLess
      (calculateRiskScore lib now input signals' counts' config) := by
  have hscore := max_le_max_right 0 h
  refine ⟨hscore, fun hrefused => ?_⟩
  simp only [calculateRiskScore, decide_eq_false_iff_not, not_lt] at hrefused hscore ⊢
  exact hrefused.trans hscore

/-- That no part of a breakdown is lower in another one; the penalties for the fingerprint and for the
provider with the device model exclude each other and count together. -/
structure RiskScoreBreakdown.Below (b b' : RiskScoreBreakdown) : Prop where
  abuseScore : b.abuseScore ≤ b'.abuseScore
  fingerprintOrIspModel : b.fingerprintMatchScore + b.ispModelMatchScore ≤
    b'.fingerprintMatchScore + b'.ispModelMatchScore
  ipReuseScore : b.ipReuseScore ≤ b'.ipReuseScore
  deviceIdReuseScore : b.deviceIdReuseScore ≤ b'.deviceIdReuseScore
  ineligibleIpTypeScore : b.ineligibleIpTypeScore ≤ b'.ineligibleIpTypeScore
  verifiedUserReduction : b.verifiedUserReduction ≤ b'.verifiedUserReduction
  earlyReferralReduction : b.earlyReferralReduction ≤ b'.earlyReferralReduction
  sameReferrerPatternScore : b.sameReferrerPatternScore ≤ b'.sameReferrerPatternScore
  sameReferrerFingerprintScore : b.sameReferrerFingerprintScore ≤ b'.sameReferrerFingerprintScore
  sameReferrerDeviceModelScore : b.sameReferrerDeviceModelScore ≤ b'.sameReferrerDeviceModelScore
  deviceModelRingScore : b.deviceModelRingScore ≤ b'.deviceModelRingScore
  platformStoreScore : b.platformStoreScore ≤ b'.platformStoreScore
  countryScore : b.countryScore ≤ b'.countryScore
  localeScore : b.localeScore ≤ b'.localeScore
  highRiskDeviceModelScore : b.highRiskDeviceModelScore ≤ b'.highRiskDeviceModelScore
  userAgentScore : b.userAgentScore ≤ b'.userAgentScore
  velocityScore : b.velocityScore ≤ b'.velocityScore
  ipHistoryScore : b.ipHistoryScore ≤ b'.ipHistoryScore
  crossReferrerDeviceScore : b.crossReferrerDeviceScore ≤ b'.crossReferrerDeviceScore
  crossReferrerFingerprintScore : b.crossReferrerFingerprintScore ≤ b'.crossReferrerFingerprintScore
  countryDiversityScore : b.countryDiversityScore ≤ b'.countryDiversityScore
  deviceFarmingScore : b.deviceFarmingScore ≤ b'.deviceFarmingScore

lemma RiskScoreBreakdown.Below.total_le {b b' : RiskScoreBreakdown} (h : b.Below b') :
    b.total ≤ b'.total := by
  obtain ⟨_, _, _, _, _, _, _, _, _, _, _, _, _, _, _, _, _, _, _, _, _, _⟩ := h
  unfold total
  omega

/-- A penalty that is due from a threshold on. -/
lemma ite_le_ite_of_le {c c' : Prop} [Decidable c] [Decidable c'] {x y : ℤ} (h : c → c')
    (hxy : c → x ≤ y) (hy : ¬ c → c' → 0 ≤ y) : (if c then x else 0) ≤ if c' then y else 0 := by
  split
  case isTrue hc => rw [if_pos (h hc)]; exact hxy hc
  case isFalse hc =>
    split
    case isTrue hc' => exact hy hc hc'
    case isFalse => exact le_refl 0

/-- A penalty that is the same whenever it is due. -/
lemma ite_le_ite_same {c c' : Prop} [Decidable c] [Decidable c'] {x : ℤ} (h : c → c')
    (hx : 0 ≤ x) : (if c then x else 0) ≤ if c' then x else 0 :=
  ite_le_ite_of_le h (fun _ => le_refl x) fun _ _ => hx

/-- **Higher counts never lower a part of the score.** -/
theorem breakdown_below_of_counts (hconfig : config.NonNegative) {found : Matches} {velocity : ℤ}
    {counts counts' : RiskCounts} (hring : 0 ≤ counts.deviceModelRing) (h : counts.Within counts') :
    (breakdown lib input found velocity counts config).Below
      (breakdown lib input found velocity counts' config) := by
  have hmul {a b p : ℤ} (hab : a ≤ b) (hp : 0 ≤ p) : a * p ≤ b * p :=
    Int.mul_le_mul_of_nonneg_right hab hp
  have hring' := h.deviceModelRing
  have hthreshold := hconfig.deviceModelRingThreshold
  constructor
  case deviceModelRingScore =>
    refine ite_le_ite_of_le (fun hc => hc.trans hring')
      (fun _ => hmul (by omega) hconfig.deviceModelRingPenaltyPerMember) fun hc hc' => ?_
    exact mul_nonneg (by omega) hconfig.deviceModelRingPenaltyPerMember
  case ipHistoryScore =>
    refine ite_le_ite_of_le (fun hc => hc.trans_le h.ipAbuser)
      (fun _ => min_le_min_right _ (hmul h.ipAbuser hconfig.ipHistoryPenaltyPerAbuser))
      fun _ hc' => ?_
    exact le_min (mul_nonneg hc'.le hconfig.ipHistoryPenaltyPerAbuser) hconfig.ipHistoryMaxPenalty
  case crossReferrerFingerprintScore =>
    exact ite_le_ite_same (fun hc => hc.trans h.crossReferrerFingerprint)
      hconfig.crossReferrerFingerprintPenalty
  case countryDiversityScore =>
    refine ite_le_ite_of_le (fun hc => hc.trans h.referrerCountry)
      (fun _ => hmul h.referrerCountry hconfig.countryDiversityPenaltyPerCountry) fun _ hc' => ?_
    exact mul_nonneg (hconfig.countryDiversityThreshold.trans hc')
      hconfig.countryDiversityPenaltyPerCountry
  case deviceFarmingScore =>
    refine ite_le_ite_of_le (fun hc => hc.trans h.referrerDevice)
      (fun _ => hmul h.referrerDevice hconfig.deviceFarmingPenaltyPerDevice) fun _ hc' => ?_
    exact mul_nonneg (hconfig.deviceFarmingThreshold.trans hc') hconfig.deviceFarmingPenaltyPerDevice
  all_goals exact le_refl _

/-- A capped penalty for each referrer of a set. -/
lemma card_penalty_le {s s' : Finset String} {p : ℤ} (cap : ℤ) (hs : s ⊆ s') (hp : 0 ≤ p) :
    min (s.card * p) cap ≤ min (s'.card * p) cap := by
  refine min_le_min_right _ (Int.mul_le_mul_of_nonneg_right ?_ hp)
  exact_mod_cast Finset.card_le_card hs

/-- The penalties for the fingerprint and for the provider with the device model, of which the second is
left out where the first is due. -/
theorem fingerprintOrIspModel_le (hconfig : config.NonNegative) {found found' : Matches}
    (hsub : found.fingerprintReferrers ⊆ found'.fingerprintReferrers)
    (hmodel : found.ispModelMatched → found'.ispModelMatched)
    (hisp : found.fingerprintReferrers = ∅ → found'.fingerprintReferrers ≠ ∅ →
      found.ispModelMatched = true → config.ispModelMatchScore ≤
        min config.fingerprintMatchPenaltyPerReferrer config.fingerprintMatchMaxPenalty) :
    min (found.fingerprintReferrers.card * config.fingerprintMatchPenaltyPerReferrer)
        config.fingerprintMatchMaxPenalty +
      (if found.ispModelMatched ∧ found.fingerprintReferrers = ∅ then config.ispModelMatchScore
        else 0) ≤
    min (found'.fingerprintReferrers.card * config.fingerprintMatchPenaltyPerReferrer)
        config.fingerprintMatchMaxPenalty +
      (if found'.ispModelMatched ∧ found'.fingerprintReferrers = ∅ then config.ispModelMatchScore
        else 0) := by
  have hcard := card_penalty_le config.fingerprintMatchMaxPenalty hsub
    hconfig.fingerprintMatchPenaltyPerReferrer
  by_cases hempty' : found'.fingerprintReferrers = ∅
  · have hempty : found.fingerprintReferrers = ∅ := Finset.subset_empty.1 (hempty' ▸ hsub)
    refine add_le_add hcard (ite_le_ite_same ?_ hconfig.ispModelMatchScore)
    exact fun hc => ⟨hmodel hc.1, hempty'⟩
  · rw [if_neg (c := found'.ispModelMatched ∧ _) fun hc => hempty' hc.2, add_zero]
    split
    case isFalse => simpa using hcard
    case isTrue hc =>
      -- The first referrer with the fingerprint: its penalty stands in for the other one.
      have hone : min config.fingerprintMatchPenaltyPerReferrer config.fingerprintMatchMaxPenalty ≤
          min (found'.fingerprintReferrers.card * config.fingerprintMatchPenaltyPerReferrer)
            config.fingerprintMatchMaxPenalty := by
        obtain ⟨name, hname⟩ := Finset.nonempty_iff_ne_empty.2 hempty'
        simpa using card_penalty_le config.fingerprintMatchMaxPenalty
          (Finset.singleton_subset_iff.2 hname) hconfig.fingerprintMatchPenaltyPerReferrer
      rw [hc.2, Finset.card_empty, Nat.cast_zero, zero_mul,
        min_eq_left hconfig.fingerprintMatchMaxPenalty, zero_add]
      exact (hisp hc.2 hempty' hc.1).trans hone

/-- **A signal never lowers a part of the score** when the two parts that can go down are kept: the one
for the provider with the device model, which a first match of the fingerprint replaces, and the one for
the speed. -/
theorem breakdown_below_of_within (hconfig : config.NonNegative) {found found' : Matches}
    {velocity velocity' : ℤ} (counts : RiskCounts) (h : found.Within found')
    (hisp : found.fingerprintReferrers = ∅ → found'.fingerprintReferrers ≠ ∅ →
      found.ispModelMatched = true → config.ispModelMatchScore ≤
        min config.fingerprintMatchPenaltyPerReferrer config.fingerprintMatchMaxPenalty)
    (hmodel : found.ispModelMatched → found'.ispModelMatched) (hvelocity : velocity ≤ velocity') :
    (breakdown lib input found velocity counts config).Below
      (breakdown lib input found' velocity' counts config) := by
  constructor
  case fingerprintOrIspModel =>
    exact fingerprintOrIspModel_le hconfig h.fingerprintReferrers hmodel hisp
  case ipReuseScore => exact ite_le_ite_same h.ipMatched hconfig.ipReuseScore
  case deviceIdReuseScore =>
    exact card_penalty_le _ h.deviceIdReferrers hconfig.deviceIdReusePenaltyPerReferrer
  case sameReferrerPatternScore =>
    exact ite_le_ite_same (fun hc => hc.trans h.sameReferrerPatternCount)
      hconfig.sameReferrerPatternPenalty
  case sameReferrerFingerprintScore =>
    exact ite_le_ite_same (fun hc => hc.trans h.sameReferrerFingerprintCount)
      hconfig.sameReferrerFingerprintPenalty
  case sameReferrerDeviceModelScore =>
    exact ite_le_ite_same (fun hc => hc.trans h.sameReferrerDeviceModelCount)
      hconfig.sameReferrerDeviceModelPenalty
  case velocityScore => exact hvelocity
  case crossReferrerDeviceScore =>
    exact ite_le_ite_same h.crossReferrerDeviceMatched hconfig.crossReferrerDevicePenalty
  all_goals exact le_refl _

/-! ## More evidence -/

/-- That a signal which is the first match of the fingerprint does not take away more for a match of the
provider with the device model than it adds. -/
def IspModelKept (lib : RiskLib) (config : RiskScoreConfig) (input : RiskSignalInput)
    (signals : List RiskSignalRow) (signal : RiskSignalRow) : Prop :=
  matchesFingerprint lib input signal → (∀ s ∈ signals, ¬ matchesFingerprint lib input s) →
    (∃ s ∈ signals, matchesIspModel input s) → config.ispModelMatchScore ≤
      min config.fingerprintMatchPenaltyPerReferrer config.fingerprintMatchMaxPenalty

/-- **A signal in front never lowers the score** when the two parts that can go down are kept. -/
theorem noLess_cons (hconfig : config.NonNegative) {signals : List RiskSignalRow}
    {signal : RiskSignalRow} (counts : RiskCounts)
    (hisp : IspModelKept lib config input signals signal)
    (hvelocity : VelocityKept config input now signals signal) :
    (calculateRiskScore lib now input signals counts config).NoLess
      (calculateRiskScore lib now input (signal :: signals) counts config) := by
  refine noLess_of_total_le (breakdown_below_of_within hconfig counts ?_ ?_ ?_
    (velocityScore_cons_le hconfig.velocityPenalty hvelocity)).total_le
  · rw [matchSignals_cons]
    exact Matches.within_add _ signal
  · rw [fingerprintReferrers_eq_empty_iff, Ne, fingerprintReferrers_eq_empty_iff, ispModelMatched_iff]
    intro hnone hsome
    refine hisp ?_ hnone
    by_contra hsignal
    exact hsome (List.forall_mem_cons.2 ⟨hsignal, hnone⟩)
  · rw [ispModelMatched_iff, ispModelMatched_iff]
    rintro ⟨s, hs, hmatch⟩
    exact ⟨s, List.mem_cons_of_mem _ hs, hmatch⟩

/-- **More evidence never lowers a risk score**: the order of the signals makes no difference, higher counts
never lower the score and never let a refused referral through, and neither does a signal, wherever it
stands in the list, that keeps the two parts which can go down.

**Proof sketch.** A signal in front is the last one that the loop takes, and the body of the loop takes
nothing back of what was found. Each part of the breakdown is monotone in what was found, but for the
two parts that the hypotheses keep. -/
theorem score_noLess (lib : RiskLib) (now : ℤ) (input : RiskSignalInput) (config : RiskScoreConfig)
    (hconfig : config.NonNegative) :
    (∀ signals signals' counts, signals.Perm signals' →
      calculateRiskScore lib now input signals counts config =
        calculateRiskScore lib now input signals' counts config) ∧
    (∀ signals counts counts', 0 ≤ counts.deviceModelRing → counts.Within counts' →
      (calculateRiskScore lib now input signals counts config).NoLess
        (calculateRiskScore lib now input signals counts' config)) ∧
    ∀ signals signals' signal counts, signals'.Perm (signal :: signals) →
      IspModelKept lib config input signals signal →
      VelocityKept config input now signals signal →
      (calculateRiskScore lib now input signals counts config).NoLess
        (calculateRiskScore lib now input signals' counts config) := by
  refine ⟨?_, ?_, ?_⟩
  · intro signals signals' counts hperm
    exact calculateRiskScore_perm counts hperm
  · intro signals counts counts' hring hcounts
    exact noLess_of_total_le (breakdown_below_of_counts hconfig hring hcounts).total_le
  · intro signals signals' signal counts hperm hisp hvelocity
    rw [calculateRiskScore_perm counts hperm]
    exact noLess_cons hconfig counts hisp hvelocity

/-! ## Signals that lower a score -/

/-- Stand-ins for the crates: no pattern matches, every hash is empty. -/
def sampleLib : RiskLib := ⟨fun _ => none, fun _ => []⟩

/-- A referral by `user1`. -/
def sampleInput : RiskSignalInput where
  username := "user1"
  deviceId := 1
  devicePlatform := .ios
  devicePlatformStore := .appStore
  deviceModel := "iPhone15,2"
  deviceLocale := "en-US"
  ipAddress := "192.168.1.1"
  ipCountryCode := "US"
  ipUsageType := .isp
  ipIsp := "Comcast"
  ipAbuseScore := 0
  referrerStatus := .unverified
  referrerReferralCount := 2
  userAgent := ""

/-- A signal with nothing of the referral but, possibly, its referrer, its fingerprint and its device. -/
def sampleSignal (referrer fingerprint model : String) (secondsAgo : ℤ) : RiskSignalRow where
  fingerprint := fingerprint
  referrerUsername := referrer
  deviceId := 2
  devicePlatform := .ios
  deviceModel := model
  ipAddress := "10.0.0.1"
  ipIsp := "Comcast"
  createdAt := -secondsAgo * 1000000000

/-- No counts. -/
def noCounts : RiskCounts := ⟨0, 0, 0, 0, 0⟩

/-- The defaults are not negative, whatever the limit and the cap of the fingerprint penalty. -/
theorem nonNegative_default (limit : ℤ) (h : 0 ≤ limit) (cap : ℤ) (hcap : 0 ≤ cap) :
    RiskScoreConfig.NonNegative { maxAllowedScore := limit, fingerprintMatchMaxPenalty := cap } := by
  constructor
  case maxAllowedScore => exact h
  case fingerprintMatchMaxPenalty => exact hcap
  all_goals simp [RiskScoreConfig.windowSecs]

/-- A third signal, a second before the two others, does not lower the score. -/
theorem score_noLess_sample :
    (calculateRiskScore sampleLib 0 sampleInput
      [sampleSignal "user1" "a" "m" 1, sampleSignal "user1" "b" "n" 1] noCounts {}).NoLess
    (calculateRiskScore sampleLib 0 sampleInput
      [sampleSignal "user1" "a" "m" 1, sampleSignal "user1" "c" "o" 2,
        sampleSignal "user1" "b" "n" 1] noCounts {}) := by
  refine (score_noLess sampleLib 0 sampleInput {}
    (nonNegative_default 60 (by decide) 200 (by decide))).2.2
    [sampleSignal "user1" "a" "m" 1, sampleSignal "user1" "b" "n" 1] _
    (sampleSignal "user1" "c" "o" 2) noCounts (List.Perm.swap _ _ _) ?_ ?_
  · intro hmatch
    exact absurd rfl hmatch.1
  · intro _ _
    decide +kernel

/-- Four signals of the referrer within a second make 599, and a limit of 500 refuses the referral. With a
fifth one, five minutes old and still in the window, the four are no longer that fast: the score is 401
and the same limit lets the referral through. And where the cap of the fingerprint penalty is low, its
first match takes away more for the provider and the device model than it adds. -/
theorem score_lower_with_older_signal :
    let quick := [sampleSignal "user1" "a" "m" 1, sampleSignal "user1" "b" "n" 1,
      sampleSignal "user1" "c" "o" 1, sampleSignal "user1" "d" "p" 1]
    let config : RiskScoreConfig := { maxAllowedScore := 500 }
    let before := calculateRiskScore sampleLib 0 sampleInput quick noCounts config
    let after := calculateRiskScore sampleLib 0 sampleInput (sampleSignal "user1" "e" "q" 300 :: quick)
      noCounts config
    (config.NonNegative ∧ before.score = 599 ∧ before.isAllowed = false ∧ after.score = 401 ∧
      after.isAllowed = true) ∧
    let capped : RiskScoreConfig := { fingerprintMatchMaxPenalty := 20 }
    let model := [sampleSignal "other" "a" "iPhone15,2" 1]
    capped.NonNegative ∧
      (calculateRiskScore sampleLib 0 sampleInput model noCounts capped).score = 30 ∧
      (calculateRiskScore sampleLib 0 sampleInput (sampleSignal "another" "" "m" 1 :: model) noCounts
        capped).score = 20 := by
  refine ⟨⟨nonNegative_default 500 (by decide) 200 (by decide), ?_⟩,
    nonNegative_default 60 (by decide) 20 (by decide), ?_⟩
  · decide +kernel
  · decide +kernel

end GemCore.Rewards
