import GemCore.Keystore.Secret
import Mathlib.Data.Finset.Card
import Mathlib.Data.Rat.Floor

/-!
# Risk scores of referrals

`calculate_risk_score` of `gem_rewards/src/risk_scoring/scoring.rs` with the data of `model.rs`: a
referral is compared with the signals that earlier referrals left behind, every finding adds to the
score, and a referral whose score reaches the limit of the configuration is refused.

The loop over the signals is a fold that keeps a `Matches`, the local variables of the source. Scores are
exact integers and the speed of a referrer an exact rational: the source has `i64` and `f64` there.

## Main definitions

* `RiskScoreConfig`, `RiskSignalInput`, `RiskSignalRow` — what a score is computed from.
* `Matches.add` — the body of the loop over the signals.
* `countSignalsInRecentWindow` — how many signals a referrer left lately, how fast.
* `calculateRiskScore` — the score with its breakdown.
-/

namespace GemCore.Rewards

open Keystore (encodeHex utf8)

/-! ## Data -/

/-- `Platform`. -/
inductive Platform where
  | ios
  | android
  deriving DecidableEq

/-- `PlatformStore`. -/
inductive PlatformStore where
  | appStore
  | googlePlay
  | fdroid
  | huawei
  | solanaStore
  | samsungStore
  | apkUniversal
  | emerald
  | «local»

/-- `PlatformStore::as_ref`. -/
def PlatformStore.asRef : PlatformStore → String
  | appStore => "appStore"
  | googlePlay => "googlePlay"
  | fdroid => "fdroid"
  | huawei => "huawei"
  | solanaStore => "solanaStore"
  | samsungStore => "samsungStore"
  | apkUniversal => "apkUniversal"
  | emerald => "emerald"
  | «local» => "local"

/-- `IpUsageType`. -/
inductive IpUsageType where
  | dataCenter
  | hosting
  | isp
  | mobile
  | business
  | education
  | government
  | unknown
  deriving DecidableEq

/-- `RewardStatus`. -/
inductive RewardStatus where
  | unverified
  | pending
  | verified
  | trusted
  | attribution
  | disabled
  deriving DecidableEq

/-- `RewardStatus::is_verified`. -/
def RewardStatus.isVerified : RewardStatus → Bool
  | verified | trusted => true
  | unverified | pending | attribution | disabled => false

/-- What comes from the crates `regex` and `gem_hash`. `regex` is `Regex::new`, with `is_match` of what
it returns. -/
structure RiskLib where
  regex : String → Option (String → Bool)
  sha256 : List UInt8 → List UInt8

/-- `RiskScoreConfig`, with the defaults of the source. The velocity window is in nanoseconds. -/
structure RiskScoreConfig where
  fingerprintMatchPenaltyPerReferrer : ℤ := 50
  fingerprintMatchMaxPenalty : ℤ := 200
  ipReuseScore : ℤ := 50
  ispModelMatchScore : ℤ := 30
  deviceIdReusePenaltyPerReferrer : ℤ := 50
  deviceIdReuseMaxPenalty : ℤ := 200
  blockedIpTypes : List IpUsageType := [.dataCenter, .hosting]
  blockedIpTypePenalty : ℤ := 100
  maxAbuseScore : ℤ := 60
  penaltyIsps : List String := []
  ispPenaltyScore : ℤ := 30
  verifiedUserReduction : ℤ := 30
  earlyReferralReductionInitial : ℤ := 20
  earlyReferralReductionStep : ℤ := 10
  maxAllowedScore : ℤ := 60
  sameReferrerPatternThreshold : ℤ := 3
  sameReferrerPatternPenalty : ℤ := 40
  sameReferrerFingerprintThreshold : ℤ := 2
  sameReferrerFingerprintPenalty : ℤ := 60
  sameReferrerDeviceModelThreshold : ℤ := 3
  sameReferrerDeviceModelPenalty : ℤ := 50
  deviceModelRingThreshold : ℤ := 2
  deviceModelRingPenaltyPerMember : ℤ := 40
  highRiskPlatformStores : List String := []
  highRiskPlatformStorePenalty : ℤ := 20
  highRiskCountries : List String := []
  highRiskCountryPenalty : ℤ := 15
  highRiskLocales : List String := []
  highRiskLocalePenalty : ℤ := 10
  highRiskDeviceModels : List String := ["sdk_gphone", "(?i)emulator", "(?i)simulator"]
  highRiskDeviceModelPenalty : ℤ := 50
  highRiskUserAgents : List String :=
    ["(?i)python", "(?i)curl", "(?i)httpie", "(?i)postman", "(?i)insomnia"]
  highRiskUserAgentPenalty : ℤ := 100
  velocityWindow : ℕ := 300 * 1000000000
  velocityDivisor : ℤ := 2
  velocityPenalty : ℤ := 100
  referralPerUserDaily : ℤ := 5
  verifiedMultiplier : ℤ := 2
  trustedMultiplier : ℤ := 3
  ipHistoryPenaltyPerAbuser : ℤ := 30
  ipHistoryMaxPenalty : ℤ := 150
  crossReferrerDevicePenalty : ℤ := 500
  crossReferrerFingerprintThreshold : ℤ := 2
  crossReferrerFingerprintPenalty : ℤ := 100
  countryDiversityThreshold : ℤ := 5
  countryDiversityPenaltyPerCountry : ℤ := 5
  deviceFarmingThreshold : ℤ := 10
  deviceFarmingPenaltyPerDevice : ℤ := 3

/-- `RiskSignalInput`: the referral that is scored. -/
structure RiskSignalInput where
  username : String
  deviceId : ℤ
  devicePlatform : Platform
  devicePlatformStore : PlatformStore
  deviceModel : String
  deviceLocale : String
  ipAddress : String
  ipCountryCode : String
  ipUsageType : IpUsageType
  ipIsp : String
  ipAbuseScore : ℤ
  referrerStatus : RewardStatus
  referrerReferralCount : ℤ
  userAgent : String

/-- `RiskSignalRow`: what an earlier referral left behind. The time is in nanoseconds. -/
structure RiskSignalRow where
  fingerprint : String
  referrerUsername : String
  deviceId : ℤ
  devicePlatform : Platform
  deviceModel : String
  ipAddress : String
  ipIsp : String
  createdAt : ℤ

/-- The counts that are queried beside the signals, the arguments of `calculate_risk_score`. -/
structure RiskCounts where
  deviceModelRing : ℤ
  ipAbuser : ℤ
  crossReferrerFingerprint : ℤ
  referrerCountry : ℤ
  referrerDevice : ℤ

/-- `RiskScoreBreakdown`. -/
structure RiskScoreBreakdown where
  abuseScore : ℤ
  fingerprintMatchScore : ℤ
  ipReuseScore : ℤ
  ispModelMatchScore : ℤ
  deviceIdReuseScore : ℤ
  ineligibleIpTypeScore : ℤ
  verifiedUserReduction : ℤ
  earlyReferralReduction : ℤ
  sameReferrerPatternScore : ℤ
  sameReferrerFingerprintScore : ℤ
  sameReferrerDeviceModelScore : ℤ
  deviceModelRingScore : ℤ
  platformStoreScore : ℤ
  countryScore : ℤ
  localeScore : ℤ
  highRiskDeviceModelScore : ℤ
  userAgentScore : ℤ
  velocityScore : ℤ
  ipHistoryScore : ℤ
  crossReferrerDeviceScore : ℤ
  crossReferrerFingerprintScore : ℤ
  countryDiversityScore : ℤ
  deviceFarmingScore : ℤ

/-- `RiskScore`. -/
structure RiskScore where
  score : ℤ
  isAllowed : Bool
  fingerprint : String
  breakdown : RiskScoreBreakdown

/-! ## The referral alone -/

namespace RiskSignalInput

/-- `generate_fingerprint`. -/
def generateFingerprint (lib : RiskLib) (input : RiskSignalInput) : String :=
  encodeHex (lib.sha256 (utf8 input.deviceModel ++ utf8 input.deviceLocale ++ utf8 input.ipIsp ++
    utf8 input.ipCountryCode))

/-- `early_referral_reduction`. A product that saturates is above every initial reduction, as the exact
one is. -/
def earlyReferralReduction (input : RiskSignalInput) (config : RiskScoreConfig) : ℤ :=
  -(let initial := max config.earlyReferralReductionInitial 0
    let step := max config.earlyReferralReductionStep 0
    let referralCount := max input.referrerReferralCount 0
    max (initial - referralCount * step) 0)

/-- Whether one of the patterns is a regular expression that the text matches. -/
def matchesAny (lib : RiskLib) (patterns : List String) (text : String) : Bool :=
  patterns.any fun pattern => ((lib.regex pattern).map fun isMatch => isMatch text).getD false

variable (lib : RiskLib) (config : RiskScoreConfig) (input : RiskSignalInput)

/-- `is_penalty_isp`. -/
def isPenaltyIsp : Bool :=
  config.penaltyIsps.any fun isp => decide (isp.toList <:+: input.ipIsp.toList)

/-- `is_blocked_type`. -/
def isBlockedType : Bool := config.blockedIpTypes.contains input.ipUsageType

/-- `is_high_risk_platform_store`. -/
def isHighRiskPlatformStore : Bool :=
  config.highRiskPlatformStores.any (· == input.devicePlatformStore.asRef)

/-- `is_high_risk_user_agent`. -/
def isHighRiskUserAgent : Bool :=
  !input.userAgent.isEmpty && matchesAny lib config.highRiskUserAgents input.userAgent

/-- The part of `daily_limit` that depends on the referrer. -/
def multiplier : ℤ :=
  if input.referrerStatus = .trusted then config.trustedMultiplier
  else if input.referrerStatus.isVerified then config.verifiedMultiplier
  else 1

/-- `velocity_threshold`. -/
def velocityThreshold : ℤ :=
  (config.referralPerUserDaily * input.multiplier config).tdiv (max config.velocityDivisor 1)

end RiskSignalInput

/-! ## The signals -/

/-- The local variables of the loop over the signals. -/
@[ext] structure Matches where
  fingerprintReferrers : Finset String := ∅
  deviceIdReferrers : Finset String := ∅
  ipMatched : Bool := false
  ispModelMatched : Bool := false
  crossReferrerDeviceMatched : Bool := false
  sameReferrerPatternCount : ℤ := 0
  sameReferrerFingerprintCount : ℤ := 0
  sameReferrerDeviceModelCount : ℤ := 0

/-- The body of the loop: the signals of the referrer itself are counted, those of others matched. -/
def Matches.add (lib : RiskLib) (input : RiskSignalInput) (found : Matches) (signal : RiskSignalRow) :
    Matches :=
  let fingerprint := input.generateFingerprint lib
  if signal.referrerUsername = input.username then
    { found with
      sameReferrerFingerprintCount := found.sameReferrerFingerprintCount +
        if signal.fingerprint = fingerprint then 1 else 0
      sameReferrerPatternCount := found.sameReferrerPatternCount +
        if signal.ipIsp = input.ipIsp ∧ signal.deviceModel = input.deviceModel ∧
          signal.devicePlatform = input.devicePlatform then 1 else 0
      sameReferrerDeviceModelCount := found.sameReferrerDeviceModelCount +
        if signal.deviceModel = input.deviceModel ∧
          signal.devicePlatform = input.devicePlatform then 1 else 0 }
  else
    { found with
      crossReferrerDeviceMatched := found.crossReferrerDeviceMatched ||
        decide (signal.fingerprint = fingerprint ∧ signal.ipAddress = input.ipAddress)
      fingerprintReferrers := if signal.fingerprint = fingerprint
        then insert signal.referrerUsername found.fingerprintReferrers
        else found.fingerprintReferrers
      deviceIdReferrers := if signal.deviceId = input.deviceId
        then insert signal.referrerUsername found.deviceIdReferrers
        else found.deviceIdReferrers
      ipMatched := found.ipMatched || decide (signal.ipAddress = input.ipAddress)
      ispModelMatched := found.ispModelMatched ||
        decide (signal.ipIsp = input.ipIsp ∧ signal.deviceModel = input.deviceModel) }

/-- The loop over the signals. -/
def matchSignals (lib : RiskLib) (input : RiskSignalInput) (signals : List RiskSignalRow) : Matches :=
  signals.foldl (Matches.add lib input) {}

/-- `num_seconds` of a duration in nanoseconds. -/
def numSeconds (duration : ℤ) : ℤ := duration.tdiv 1000000000

/-- `as_secs` of the velocity window. -/
def RiskScoreConfig.windowSecs (config : RiskScoreConfig) : ℕ := config.velocityWindow / 1000000000

/-- Whether a signal is one of the referrer, `same_referrer_signals`, and `recent`. -/
def isRecent (config : RiskScoreConfig) (input : RiskSignalInput) (now : ℤ) (signal : RiskSignalRow) :
    Bool :=
  decide (signal.referrerUsername = input.username) &&
    decide (numSeconds (now - signal.createdAt) ≤ config.windowSecs)

/-- `span_secs`: the seconds between the first and the last of the times, one at least. -/
def spanSecs (timestamps : List ℤ) : ℤ :=
  max (numSeconds (timestamps.max?.getD 0 - timestamps.min?.getD 0)) 1

/-- `speed_multiplier`: two less the part of the window that the signals span, and one where there is
no span. The window has to be a second at least, or the source divides by zero. -/
def speedMultiplier (config : RiskScoreConfig) (timestamps : List ℤ) : ℚ :=
  if timestamps.length ≤ 1 then 1
  else 1 + ((config.windowSecs : ℤ) - spanSecs timestamps : ℤ) / (config.windowSecs : ℚ)

/-- `count_signals_in_recent_window`, applied to the signals of the referrer. -/
def countSignalsInRecentWindow (config : RiskScoreConfig) (input : RiskSignalInput) (now : ℤ)
    (signals : List RiskSignalRow) : ℤ × ℚ :=
  let recent := (signals.filter (isRecent config input now)).map (·.createdAt)
  (recent.length, speedMultiplier config recent)

/-- `as i64` of a float: rounded towards zero, so down where it is not negative. -/
def truncate (x : ℚ) : ℤ := if 0 ≤ x then ⌊x⌋ else ⌈x⌉

/-- `velocity_score`. -/
def velocityScore (config : RiskScoreConfig) (input : RiskSignalInput) (now : ℤ)
    (signals : List RiskSignalRow) : ℤ :=
  let threshold := input.velocityThreshold config
  let (signalsInWindow, speed) := countSignalsInRecentWindow config input now signals
  if threshold ≤ signalsInWindow then
    truncate (((signalsInWindow - threshold + 1) * config.velocityPenalty : ℤ) * speed)
  else 0

/-! ## The score -/

/-- The breakdown of a score, from what the loop found. -/
def breakdown (lib : RiskLib) (input : RiskSignalInput) (found : Matches) (velocity : ℤ)
    (counts : RiskCounts) (config : RiskScoreConfig) : RiskScoreBreakdown where
  abuseScore := if input.isBlockedType config then input.ipAbuseScore
    else min input.ipAbuseScore config.maxAbuseScore
  ineligibleIpTypeScore := if input.isBlockedType config then config.blockedIpTypePenalty
    else if input.isPenaltyIsp config then config.ispPenaltyScore
    else 0
  verifiedUserReduction := if input.referrerStatus.isVerified then -config.verifiedUserReduction else 0
  earlyReferralReduction := input.earlyReferralReduction config
  platformStoreScore :=
    if input.isHighRiskPlatformStore config then config.highRiskPlatformStorePenalty else 0
  countryScore := if config.highRiskCountries.any (· == input.ipCountryCode)
    then config.highRiskCountryPenalty else 0
  localeScore := if config.highRiskLocales.any (· == input.deviceLocale)
    then config.highRiskLocalePenalty else 0
  highRiskDeviceModelScore :=
    if RiskSignalInput.matchesAny lib config.highRiskDeviceModels input.deviceModel
    then config.highRiskDeviceModelPenalty else 0
  userAgentScore :=
    if input.isHighRiskUserAgent lib config then config.highRiskUserAgentPenalty else 0
  fingerprintMatchScore := min
    (found.fingerprintReferrers.card * config.fingerprintMatchPenaltyPerReferrer)
    config.fingerprintMatchMaxPenalty
  deviceIdReuseScore := min
    (found.deviceIdReferrers.card * config.deviceIdReusePenaltyPerReferrer)
    config.deviceIdReuseMaxPenalty
  crossReferrerDeviceScore :=
    if found.crossReferrerDeviceMatched then config.crossReferrerDevicePenalty else 0
  ipReuseScore := if found.ipMatched then config.ipReuseScore else 0
  ispModelMatchScore := if found.ispModelMatched ∧ found.fingerprintReferrers = ∅
    then config.ispModelMatchScore else 0
  sameReferrerFingerprintScore :=
    if config.sameReferrerFingerprintThreshold ≤ found.sameReferrerFingerprintCount
    then config.sameReferrerFingerprintPenalty else 0
  sameReferrerPatternScore :=
    if config.sameReferrerPatternThreshold ≤ found.sameReferrerPatternCount
    then config.sameReferrerPatternPenalty else 0
  sameReferrerDeviceModelScore :=
    if config.sameReferrerDeviceModelThreshold ≤ found.sameReferrerDeviceModelCount
    then config.sameReferrerDeviceModelPenalty else 0
  deviceModelRingScore := if config.deviceModelRingThreshold ≤ counts.deviceModelRing
    then (counts.deviceModelRing - 1) * config.deviceModelRingPenaltyPerMember else 0
  ipHistoryScore := if 0 < counts.ipAbuser
    then min (counts.ipAbuser * config.ipHistoryPenaltyPerAbuser) config.ipHistoryMaxPenalty else 0
  crossReferrerFingerprintScore :=
    if config.crossReferrerFingerprintThreshold ≤ counts.crossReferrerFingerprint
    then config.crossReferrerFingerprintPenalty else 0
  countryDiversityScore := if config.countryDiversityThreshold ≤ counts.referrerCountry
    then counts.referrerCountry * config.countryDiversityPenaltyPerCountry else 0
  deviceFarmingScore := if config.deviceFarmingThreshold ≤ counts.referrerDevice
    then counts.referrerDevice * config.deviceFarmingPenaltyPerDevice else 0
  velocityScore := velocity

/-- The sum that makes the score. -/
def RiskScoreBreakdown.total (b : RiskScoreBreakdown) : ℤ :=
  b.abuseScore + b.fingerprintMatchScore + b.ipReuseScore + b.ispModelMatchScore +
    b.deviceIdReuseScore + b.ineligibleIpTypeScore + b.sameReferrerPatternScore +
    b.sameReferrerFingerprintScore + b.sameReferrerDeviceModelScore + b.deviceModelRingScore +
    b.platformStoreScore + b.countryScore + b.localeScore + b.highRiskDeviceModelScore +
    b.userAgentScore + b.velocityScore + b.ipHistoryScore + b.crossReferrerDeviceScore +
    b.crossReferrerFingerprintScore + b.countryDiversityScore + b.deviceFarmingScore +
    b.verifiedUserReduction + b.earlyReferralReduction

/-- `calculate_risk_score`, at the time `now`. -/
def calculateRiskScore (lib : RiskLib) (now : ℤ) (input : RiskSignalInput)
    (existingSignals : List RiskSignalRow) (counts : RiskCounts) (config : RiskScoreConfig) :
    RiskScore :=
  let parts := breakdown lib input (matchSignals lib input existingSignals)
    (velocityScore config input now existingSignals) counts config
  let score := max parts.total 0
  { score := score
    isAllowed := decide (score < config.maxAllowedScore)
    fingerprint := input.generateFingerprint lib
    breakdown := parts }

end GemCore.Rewards
