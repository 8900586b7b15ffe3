import GemCore.Lib.Interleave
import GemCore.Lib.Lists
import GemCore.Primitives.Arith

/-!
# Counting failures in a window

`dynode/src/monitoring/failure_tracker.rs`, and `FailureTriggerConfig` of `dynode/src/config/mod.rs`:
the requests to a node and the failed ones are counted in buckets, which are dropped as a whole once
they are as old as the window. Beside the window the failures in a row are counted. When either are
too many a check is triggered, at most once in a window, and the counting starts again.

## Main definitions

* `FailureTracker.record` — when failures are too many.
* `Observed`, `trackerStep` — a tracker with what it was told since it was emptied last, and one
  call.
* `Observed.Sound` — what the counters and the triggers stand for.

## Main results

* `FailureTracker.record_cases` — what one call does.
* `Observed.inv_of_run` — the buckets divide the latest samples, at all times.
* `sound_of_run` — what holds along every run of calls.
* `not_bounded_by_window` — the failures in a row outlast the window, and a short window may be
  divided into more than 61 buckets.
-/

namespace GemCore.Dynode

open Lib

/-! ## The code -/

/-- `FailureTriggerConfig`, with the window and the latency in nanoseconds. -/
structure FailureTriggerConfig where
  failures : ℕ
  rate : ℕ
  window : ℕ
  latency : Option ℕ := none

/-- `FailureTriggerConfig::validate`. -/
def FailureTriggerConfig.validate (config : FailureTriggerConfig) : Except String Unit :=
  if config.failures = 0 then
    .error "monitoring.trigger.failures must be greater than zero"
  else if ¬(1 ≤ config.rate ∧ config.rate ≤ 100) then
    .error "monitoring.trigger.rate must be between 1 and 100"
  else if config.window = 0 then
    .error "monitoring.trigger.window must be greater than zero"
  else if config.latency = some 0 then
    .error "monitoring.trigger.latency must be greater than zero"
  else .ok ()

/-- `FailureBucket`. -/
structure FailureBucket where
  startedAt : ℕ
  requests : ℕ
  failures : ℕ

/-- `FailureTracker`. -/
structure FailureTracker where
  buckets : List FailureBucket
  requests : ℕ
  failures : ℕ
  consecutiveFailures : ℕ
  lastTriggeredAt : Option ℕ

/-- The width of a bucket, of which the window has `MAX_BUCKETS`. -/
def bucketWidth (window : ℕ) : ℕ := max (window / 60) 1

namespace FailureTracker

/-- `FailureTracker::default`. -/
def initial : FailureTracker :=
  { buckets := [], requests := 0, failures := 0, consecutiveFailures := 0, lastTriggeredAt := none }

/-- `clear_samples`. -/
def clearSamples (tracker : FailureTracker) : FailureTracker :=
  { tracker with buckets := [], requests := 0, failures := 0, consecutiveFailures := 0 }

/-- The loop of `prune`: buckets that are too old are taken away from the front. -/
def pruneBuckets (now window : ℕ) : List FailureBucket → ℕ → ℕ → List FailureBucket × ℕ × ℕ
  | [], requests, failures => ([], requests, failures)
  | bucket :: buckets, requests, failures =>
    if window ≤ now - bucket.startedAt then
      pruneBuckets now window buckets (requests - bucket.requests) (failures - bucket.failures)
    else (bucket :: buckets, requests, failures)

/-- `prune`. -/
def prune (tracker : FailureTracker) (now window : ℕ) : FailureTracker :=
  let (buckets, requests, failures) :=
    pruneBuckets now window tracker.buckets tracker.requests tracker.failures
  { tracker with buckets := buckets, requests := requests, failures := failures }

/-- One more request in a bucket. -/
def bump (failed : Bool) (bucket : FailureBucket) : FailureBucket :=
  { bucket with requests := bucket.requests + 1,
                failures := bucket.failures + if failed then 1 else 0 }

/-- `record_sample`: the last bucket is used while it is young enough. -/
def recordSample (tracker : FailureTracker) (failed : Bool) (now window : ℕ) : FailureTracker :=
  let fresh := { startedAt := now, requests := 0, failures := 0 : FailureBucket }
  let buckets := match tracker.buckets.getLast? with
    | some bucket =>
      if bucketWidth window ≤ now - bucket.startedAt then tracker.buckets ++ [bump failed fresh]
      else tracker.buckets.dropLast ++ [bump failed bucket]
    | none => [bump failed fresh]
  { tracker with buckets := buckets }

/-- `usize::saturating_mul`. -/
def saturatingMul (a b : ℕ) : ℕ := min (a * b) (2 ^ 64 - 1)

/-- The counts after one more request. -/
def count (tracker : FailureTracker) (failed : Bool) : FailureTracker :=
  { tracker with
    requests := tracker.requests + 1
    failures := tracker.failures + if failed then 1 else 0
    consecutiveFailures := if failed then tracker.consecutiveFailures + 1 else 0 }

/-- Whether the failures are too many, in a row or of all requests. -/
def reached (tracker : FailureTracker) (config : FailureTriggerConfig) : Bool :=
  config.failures ≤ tracker.consecutiveFailures ||
    (config.failures ≤ tracker.failures &&
      saturatingMul config.rate tracker.requests ≤ saturatingMul tracker.failures 100)

/-- `record`: whether a check is to be made, which is not more often than once in the window. -/
def record (tracker : FailureTracker) (failed : Bool) (now : ℕ) (config : FailureTriggerConfig) :
    Bool × FailureTracker :=
  let counted := ((tracker.prune now config.window).recordSample failed now config.window).count
    failed
  if !counted.reached config then (false, counted)
  else
    match counted.lastTriggeredAt with
    | some triggeredAt =>
      if now - triggeredAt < config.window then (false, counted.clearSamples)
      else (true, { counted.clearSamples with lastTriggeredAt := some now })
    | none => (true, { counted.clearSamples with lastTriggeredAt := some now })

end FailureTracker

/-! ## Runs of calls -/

/-- A request that was recorded. -/
structure Sample where
  time : ℕ
  failed : Bool

/-- A call of the tracker. -/
inductive TrackerCall where
  | record (failed : Bool) (now : ℕ)
  | clearSamples

/-- A tracker, with the samples since it was emptied, the times at which it has triggered, the latest
first, and the time of the last record. -/
structure Observed where
  tracker : FailureTracker
  samples : List Sample
  triggers : List ℕ
  now : ℕ

namespace Observed

/-- A new tracker. -/
def initial : Observed := { tracker := .initial, samples := [], triggers := [], now := 0 }

/-- One more sample; a tracker without buckets has been emptied by it. -/
def record (config : FailureTriggerConfig) (o : Observed) (failed : Bool) (now : ℕ) : Observed :=
  let (triggered, tracker) := o.tracker.record failed now config
  { tracker := tracker
    samples := if tracker.buckets.isEmpty then [] else o.samples ++ [⟨now, failed⟩]
    triggers := if triggered then now :: o.triggers else o.triggers
    now := now }

end Observed

/-- One call; the times of the records do not go back. -/
def trackerStep (config : FailureTriggerConfig) (o : Observed) : TrackerCall → Option Observed
  | .record failed now => if o.now ≤ now then some (o.record config failed now) else none
  | .clearSamples => some { o with tracker := o.tracker.clearSamples, samples := [] }

/-- The sample is younger than the window. -/
def Sample.recent (window now : ℕ) (sample : Sample) : Bool := now < sample.time + window

/-- A failed request that is younger than the window. -/
def Sample.failedRecently (window now : ℕ) (sample : Sample) : Bool :=
  sample.failed && sample.recent window now

/-- The loop of `prune` with subtractions that fail instead of wrapping around. -/
def pruneExact (now window : ℕ) :
    List FailureBucket → ℕ → ℕ → Option (List FailureBucket × ℕ × ℕ)
  | [], requests, failures => some ([], requests, failures)
  | bucket :: buckets, requests, failures =>
    if window ≤ now - bucket.startedAt then do
      let requests ← checkedSub requests bucket.requests
      let failures ← checkedSub failures bucket.failures
      pruneExact now window buckets requests failures
    else some (bucket :: buckets, requests, failures)

/-- **What the counters and the triggers stand for**, in a state: the counters are the sums over the
buckets, and whenever the tracker is pruned next no subtraction fails and what is counted afterwards
is younger than the window; there are no more buckets than fit into the window; triggers are a window
apart; and when the next request triggers, as many requests as configured have failed since the
tracker was emptied, within the window or all in a row. -/
structure Observed.Sound (config : FailureTriggerConfig) (o : Observed) : Prop where
  requests : o.tracker.requests = (o.tracker.buckets.map (·.requests)).sum
  failures : o.tracker.failures = (o.tracker.buckets.map (·.failures)).sum
  pruned : ∀ now, pruneExact now config.window o.tracker.buckets o.tracker.requests
      o.tracker.failures =
    some (FailureTracker.pruneBuckets now config.window o.tracker.buckets o.tracker.requests o.tracker.failures)
  buckets : o.tracker.buckets.length ≤ (config.window - 1) / bucketWidth config.window + 1
  fewBuckets : config.window < 60 ∨ config.window % 60 ≤ config.window / 60 →
    o.tracker.buckets.length ≤ 61
  forgotten : ∀ now, o.now ≤ now →
    (o.tracker.prune now config.window).requests ≤
        o.samples.countP (Sample.recent config.window now) ∧
      (o.tracker.prune now config.window).failures ≤
        o.samples.countP (Sample.failedRecently config.window now)
  apart : o.triggers.Pairwise fun later earlier => earlier + config.window ≤ later
  triggered : ∀ failed now, o.now ≤ now → (o.tracker.record failed now config).1 = true →
    config.failures ≤
        (o.samples ++ [Sample.mk now failed]).countP (Sample.failedRecently config.window now) ∨
      ∃ before row, o.samples ++ [Sample.mk now failed] = before ++ row ∧ config.failures ≤ row.length ∧
        ∀ sample ∈ row, sample.failed = true

/-! ## One call -/

namespace FailureTracker

/-- What is taken away by pruning. -/
lemma pruneBuckets_fst (now window : ℕ) (buckets : List FailureBucket) (requests failures : ℕ) :
    (pruneBuckets now window buckets requests failures).1 =
      buckets.dropWhile fun bucket => window ≤ now - bucket.startedAt := by
  induction buckets generalizing requests failures with
  | nil => rfl
  | cons bucket buckets ih =>
    rw [pruneBuckets]
    split
    case isTrue h => rw [ih, List.dropWhile_cons_of_pos (by simpa using h)]
    case isFalse h => rw [List.dropWhile_cons_of_neg (by simpa using h)]

/-- Counters that are sums stay so, and no subtraction fails. -/
lemma pruneBuckets_sums (now window : ℕ) (buckets : List FailureBucket) :
    ∃ rest, pruneBuckets now window buckets (buckets.map (·.requests)).sum
        (buckets.map (·.failures)).sum =
      (rest, (rest.map (·.requests)).sum, (rest.map (·.failures)).sum) ∧
      pruneExact now window buckets (buckets.map (·.requests)).sum
        (buckets.map (·.failures)).sum =
      some (rest, (rest.map (·.requests)).sum, (rest.map (·.failures)).sum) := by
  induction buckets with
  | nil => exact ⟨[], rfl, rfl⟩
  | cons bucket buckets ih =>
    rw [pruneBuckets, pruneExact]
    simp only [List.map_cons, List.sum_cons]
    split
    · obtain ⟨rest, hprune, hexact⟩ := ih
      refine ⟨rest, ?_, ?_⟩
      · rw [Nat.add_sub_cancel_left, Nat.add_sub_cancel_left, hprune]
      · rw [checkedSub, if_pos (Nat.le_add_right _ _), checkedSub, if_pos (Nat.le_add_right _ _),
          Nat.add_sub_cancel_left, Nat.add_sub_cancel_left]
        exact hexact
    · exact ⟨bucket :: buckets, by simp, by simp⟩

/-- A sample goes into a new bucket, if the last one is as old as its width, or into the last. -/
theorem recordSample_cases (tracker : FailureTracker) (failed : Bool) (now window : ℕ) :
    (tracker.recordSample failed now window =
          { tracker with buckets := tracker.buckets ++ [bump failed ⟨now, 0, 0⟩] } ∧
        ∀ front last, tracker.buckets = front ++ [last] →
          bucketWidth window ≤ now - last.startedAt) ∨
      ∃ front last, tracker.buckets = front ++ [last] ∧
        tracker.recordSample failed now window =
          { tracker with buckets := front ++ [bump failed last] } := by
  rcases List.eq_nil_or_concat tracker.buckets with hnil | ⟨front, last, hconcat⟩
  · left
    rw [recordSample, hnil]
    exact ⟨rfl, fun front last h => by simp at h⟩
  · rw [List.concat_eq_append] at hconcat
    rw [recordSample, hconcat, List.getLast?_concat, List.dropLast_concat]
    by_cases hold : bucketWidth window ≤ now - last.startedAt
    · left
      refine ⟨congrArg (fun buckets => { tracker with buckets := buckets }) (if_pos hold), ?_⟩
      intro front' last' heq
      obtain ⟨-, hlast⟩ := List.append_inj' heq rfl
      exact List.singleton_inj.mp hlast ▸ hold
    · right
      exact ⟨front, last, rfl,
        congrArg (fun buckets => { tracker with buckets := buckets }) (if_neg hold)⟩

/-- **What one call does**: the request is counted; if the failures are then too many the tracker is
emptied, and it triggers unless it has done so within the window. -/
theorem record_cases (tracker : FailureTracker) (failed : Bool) (now : ℕ)
    (config : FailureTriggerConfig) {counted : FailureTracker}
    (hcounted : ((tracker.prune now config.window).recordSample failed now config.window).count
      failed = counted) :
    (tracker.record failed now config = (false, counted) ∧ counted.reached config = false) ∨
      (tracker.record failed now config = (false, counted.clearSamples)) ∨
      tracker.record failed now config =
          (true, { counted.clearSamples with lastTriggeredAt := some now }) ∧
        counted.reached config = true ∧
        ∀ triggeredAt, tracker.lastTriggeredAt = some triggeredAt →
          config.window ≤ now - triggeredAt := by
  have hlast : counted.lastTriggeredAt = tracker.lastTriggeredAt := by
    rw [← hcounted]
    rfl
  rw [record, hcounted]
  cases hreached : counted.reached config with
  | false => exact .inl ⟨rfl, rfl⟩
  | true =>
    rw [← hlast]
    cases counted.lastTriggeredAt with
    | none => exact .inr (.inr ⟨rfl, rfl, fun _ h => by cases h⟩)
    | some triggeredAt =>
      by_cases hold : config.window ≤ now - triggeredAt
      · refine .inr (.inr ⟨if_neg (not_lt.mpr hold), rfl, fun _ h => ?_⟩)
        cases h
        exact hold
      · exact .inr (.inl (if_pos (not_le.mp hold)))

end FailureTracker

/-! ## The buckets and the samples -/

/-- A bucket counts some samples, each of which came less than its width after it. -/
structure FailureBucket.Counts (bucket : FailureBucket) (samples : List Sample) : Prop where
  requests : bucket.requests = samples.length
  failures : bucket.failures = samples.countP (·.failed)
  started : ∀ sample ∈ samples, bucket.startedAt ≤ sample.time

/-- One more sample in a bucket. -/
lemma FailureBucket.Counts.bump {bucket : FailureBucket} {samples : List Sample} {now : ℕ}
    (h : bucket.Counts samples) (failed : Bool)
    (hstarted : bucket.startedAt ≤ now) :
    (FailureTracker.bump failed bucket).Counts (samples ++ [⟨now, failed⟩]) where
  requests := by simp [FailureTracker.bump, h.requests]
  failures := by simp [FailureTracker.bump, h.failures, List.countP_append, List.countP_cons]
  started := by
    intro sample hsample
    rcases List.mem_append.mp hsample with hsample | hsample
    · exact h.started sample hsample
    · rw [List.mem_singleton.mp hsample]
      exact hstarted

/-- The buckets of a tracker divide the latest of the samples since it was emptied; they keep their
distance and are younger than the window, the counters are their sums, and the failures in a row are
the last samples. -/
structure FailureTracker.Counts (window : ℕ) (tracker : FailureTracker) (samples : List Sample)
    (now : ℕ) : Prop where
  divided : ∃ dropped groups, samples = dropped ++ groups.flatten ∧
    List.Forall₂ FailureBucket.Counts tracker.buckets groups
  requests : tracker.requests = (tracker.buckets.map (·.requests)).sum
  failures : tracker.failures = (tracker.buckets.map (·.failures)).sum
  spaced : (tracker.buckets.map (·.startedAt)).Pairwise fun a b => a + bucketWidth window ≤ b
  past : ∀ bucket ∈ tracker.buckets, bucket.startedAt ≤ now
  recent : ∀ bucket ∈ tracker.buckets, now < bucket.startedAt + window
  row : ∃ before row, samples = before ++ row ∧ row.length = tracker.consecutiveFailures ∧
    ∀ sample ∈ row, sample.failed = true

namespace FailureTracker.Counts

variable {window now : ℕ} {tracker : FailureTracker} {samples : List Sample}

/-- An empty tracker. -/
lemma empty (window now : ℕ) (lastTriggeredAt : Option ℕ) :
    FailureTracker.Counts window
      { buckets := [], requests := 0, failures := 0, consecutiveFailures := 0, lastTriggeredAt } []
      now where
  divided := ⟨[], [], rfl, .nil⟩
  requests := rfl
  failures := rfl
  spaced := .nil
  past := by simp
  recent := by simp
  row := ⟨[], [], rfl, rfl, by simp⟩

/-- Pruning drops whole buckets, and leaves those that are younger than the window. -/
theorem prune (h : tracker.Counts window samples now) {now' : ℕ} (hnow : now ≤ now') :
    (tracker.prune now' window).Counts window samples now' := by
  obtain ⟨rest, hprune, -⟩ := pruneBuckets_sums now' window tracker.buckets
  rw [← h.requests, ← h.failures] at hprune
  have hrest : rest = tracker.buckets.dropWhile fun bucket => window ≤ now' - bucket.startedAt := by
    rw [← pruneBuckets_fst now' window tracker.buckets tracker.requests tracker.failures, hprune]
  have heq : tracker.prune now' window =
      { tracker with
        buckets := rest
        requests := (rest.map (·.requests)).sum
        failures := (rest.map (·.failures)).sum } := by
    rw [FailureTracker.prune, hprune]
  have hsuffix : rest <:+ tracker.buckets := hrest ▸ List.dropWhile_suffix _
  have hspaced : (rest.map (·.startedAt)).Pairwise fun a b => a + bucketWidth window ≤ b :=
    h.spaced.sublist (hsuffix.sublist.map _)
  rw [heq]
  refine ⟨?_, rfl, rfl, hspaced, ?_, ?_, h.row⟩
  · obtain ⟨dropped, groups, hsamples, hgroups⟩ := h.divided
    obtain ⟨old, hold⟩ := hsuffix
    refine ⟨dropped ++ (groups.take old.length).flatten, groups.drop old.length, ?_, ?_⟩
    · rw [hsamples, List.append_assoc, ← List.flatten_append, List.take_append_drop]
    · have hkept := List.forall₂_drop old.length hgroups
      rwa [← hold, List.drop_left] at hkept
  · intro bucket hbucket
    exact (h.past bucket (hsuffix.subset hbucket)).trans hnow
  · -- the first bucket left is young enough, and the others are younger
    intro bucket hbucket
    cases hrest' : rest with
    | nil =>
      rw [hrest'] at hbucket
      exact absurd hbucket List.not_mem_nil
    | cons first others =>
      have hfirst : ¬ window ≤ now' - first.startedAt := by
        have hhead := List.head?_dropWhile_not
          (fun bucket : FailureBucket => decide (window ≤ now' - bucket.startedAt)) tracker.buckets
        rw [← hrest, hrest'] at hhead
        simpa using hhead
      have hpast := (h.past first (hsuffix.subset (by simp [hrest']))).trans hnow
      rw [hrest', List.map_cons, List.pairwise_cons] at hspaced
      rw [hrest', List.mem_cons] at hbucket
      rcases hbucket with rfl | hbucket
      · omega
      · have hdistance := hspaced.1 bucket.startedAt (List.mem_map_of_mem hbucket)
        omega

/-- A failure lengthens the row, a success ends it. -/
lemma row_concat (h : tracker.Counts window samples now) (failed : Bool) :
    ∃ before row, samples ++ [Sample.mk now failed] = before ++ row ∧
      row.length = (if failed then tracker.consecutiveFailures + 1 else 0) ∧
      ∀ sample ∈ row, sample.failed = true := by
  obtain ⟨before, row, hsamples, hlength, hfailed⟩ := h.row
  cases failed with
  | false => exact ⟨samples ++ [⟨now, false⟩], [], by simp, rfl, by simp⟩
  | true =>
    refine ⟨before, row ++ [⟨now, true⟩], by rw [hsamples, List.append_assoc], by simp [hlength], ?_⟩
    intro sample hsample
    rcases List.mem_append.mp hsample with hsample | hsample
    · exact hfailed sample hsample
    · rw [List.mem_singleton.mp hsample]

/-- A new bucket keeps its distance, if the last one is as old as its width. -/
theorem spaced_concat (h : tracker.Counts window samples now)
    (hold : ∀ front last, tracker.buckets = front ++ [last] →
      bucketWidth window ≤ now - last.startedAt) {bucket : FailureBucket}
    (hbucket : bucket ∈ tracker.buckets) : bucket.startedAt + bucketWidth window ≤ now := by
  rcases List.eq_nil_or_concat tracker.buckets with hnil | ⟨front, last, hconcat⟩
  · rw [hnil] at hbucket
    exact absurd hbucket List.not_mem_nil
  · rw [List.concat_eq_append] at hconcat
    have hlast := hold front last hconcat
    have hpast := h.past last (by simp [hconcat])
    have hspaced := h.spaced
    rw [hconcat, List.map_append, List.pairwise_append] at hspaced
    rw [hconcat, List.mem_append, List.mem_singleton] at hbucket
    rcases hbucket with hbucket | rfl
    · have hdistance := hspaced.2.2 _ (List.mem_map_of_mem hbucket) last.startedAt (by simp)
      omega
    · omega

/-- Counting one more request. -/
lemma count (h : tracker.Counts window samples now) (hwindow : 0 < window) (failed : Bool) :
    ((tracker.recordSample failed now window).count failed).Counts window
      (samples ++ [⟨now, failed⟩]) now := by
  obtain ⟨dropped, groups, hsamples, hgroups⟩ := h.divided
  rcases recordSample_cases tracker failed now window with
    ⟨heq, hold⟩ | ⟨front, last, hbuckets, heq⟩
  · have hempty : FailureBucket.Counts ⟨now, 0, 0⟩ [] := ⟨rfl, rfl, by simp⟩
    have hfresh : (FailureTracker.bump failed ⟨now, 0, 0⟩).Counts [Sample.mk now failed] :=
      hempty.bump failed le_rfl
    rw [heq]
    refine ⟨⟨dropped, groups ++ [[⟨now, failed⟩]], by simp [hsamples],
      List.rel_append hgroups (.cons hfresh .nil)⟩, ?_, ?_, ?_, ?_, ?_, h.row_concat failed⟩
    · simp [FailureTracker.count, FailureTracker.bump, h.requests]
    · simp [FailureTracker.count, FailureTracker.bump, h.failures]
    · show ((tracker.buckets ++ [FailureTracker.bump failed ⟨now, 0, 0⟩]).map
        (·.startedAt)).Pairwise _
      rw [List.map_append, List.pairwise_append]
      refine ⟨h.spaced, List.pairwise_singleton _ _, fun a ha b hb => ?_⟩
      obtain ⟨bucket, hbucket, rfl⟩ := List.mem_map.mp ha
      rw [List.map_singleton, List.mem_singleton] at hb
      rw [hb]
      exact h.spaced_concat hold hbucket
    · simpa [FailureTracker.count, FailureTracker.bump, or_imp, forall_and] using h.past
    · simpa [FailureTracker.count, FailureTracker.bump, or_imp, forall_and, hwindow] using h.recent
  · -- the last bucket starts where it did
    rw [hbuckets] at hgroups
    obtain ⟨frontGroups, lastGroup, rfl⟩ : ∃ frontGroups lastGroup,
        groups = frontGroups ++ [lastGroup] := by
      rcases List.eq_nil_or_concat groups with rfl | ⟨frontGroups, lastGroup, rfl⟩
      · simpa using hgroups.length_eq
      · exact ⟨frontGroups, lastGroup, List.concat_eq_append⟩
    have hlength : front.length = frontGroups.length := by simpa using hgroups.length_eq
    have hfront := List.forall₂_take_append _ _ _ hgroups
    have hlast := List.forall₂_drop_append _ _ _ hgroups
    rw [← hlength, List.take_left] at hfront
    rw [← hlength, List.drop_left] at hlast
    have hlastCounts := (List.forall₂_cons.mp hlast).1
    have hstarted : ∀ bucket ∈ front ++ [FailureTracker.bump failed last],
        ∃ old ∈ tracker.buckets, bucket.startedAt = old.startedAt := by
      intro bucket hbucket
      rw [hbuckets]
      rcases List.mem_append.mp hbucket with hbucket | hbucket
      · exact ⟨bucket, List.mem_append_left _ hbucket, rfl⟩
      · rw [List.mem_singleton.mp hbucket]
        exact ⟨last, by simp, rfl⟩
    have hpast := h.past last (by simp [hbuckets])
    have hrequests := h.requests
    have hfailures := h.failures
    have hspaced := h.spaced
    rw [hbuckets] at hrequests hfailures hspaced
    rw [heq]
    refine ⟨⟨dropped, frontGroups ++ [lastGroup ++ [⟨now, failed⟩]], by simp [hsamples],
      List.rel_append hfront (.cons (hlastCounts.bump failed hpast) .nil)⟩, ?_, ?_, ?_, ?_, ?_,
      h.row_concat failed⟩
    · simp only [FailureTracker.count, FailureTracker.bump, List.map_append, List.sum_append,
        List.map_singleton, List.sum_singleton, hrequests]
      omega
    · simp only [FailureTracker.count, FailureTracker.bump, List.map_append, List.sum_append,
        List.map_singleton, List.sum_singleton, hfailures]
      omega
    · simpa [FailureTracker.count, FailureTracker.bump] using hspaced
    · intro bucket hbucket
      obtain ⟨old, hold, hsame⟩ := hstarted bucket hbucket
      exact hsame ▸ h.past old hold
    · intro bucket hbucket
      obtain ⟨old, hold, hsame⟩ := hstarted bucket hbucket
      exact hsame ▸ h.recent old hold

/-- The samples of buckets that are younger than the window are so themselves. -/
theorem recent_groups {buckets : List FailureBucket} {groups : List (List Sample)}
    (hgroups : List.Forall₂ FailureBucket.Counts buckets groups)
    (hrecent : ∀ bucket ∈ buckets, now < bucket.startedAt + window) :
    (buckets.map (·.requests)).sum ≤ groups.flatten.countP (Sample.recent window now) ∧
      (buckets.map (·.failures)).sum ≤
        groups.flatten.countP (Sample.failedRecently window now) := by
  induction hgroups with
  | nil => exact ⟨le_rfl, le_rfl⟩
  | @cons bucket group buckets groups hbucket _ ih =>
    obtain ⟨hrequests, hfailures⟩ := ih fun bucket h => hrecent bucket (List.mem_cons_of_mem _ h)
    have hyoung := hrecent bucket List.mem_cons_self
    have hall : ∀ sample ∈ group, Sample.recent window now sample = true := by
      intro sample hsample
      have hstarted := hbucket.started sample hsample
      exact decide_eq_true (by omega)
    have hcount : group.countP (Sample.recent window now) = group.length :=
      List.countP_eq_length.mpr hall
    have hfailed : group.countP (Sample.failedRecently window now) = group.countP (·.failed) :=
      List.countP_congr fun sample hsample => by
        rw [Sample.failedRecently, hall sample hsample, Bool.and_true]
    rw [List.flatten_cons, List.countP_append, List.countP_append, hcount, hfailed,
      List.map_cons, List.map_cons, List.sum_cons, List.sum_cons, hbucket.requests,
      hbucket.failures]
    omega

/-- What is counted is younger than the window. -/
lemma counted (h : tracker.Counts window samples now) :
    tracker.requests ≤ samples.countP (Sample.recent window now) ∧
      tracker.failures ≤ samples.countP (Sample.failedRecently window now) := by
  obtain ⟨dropped, groups, rfl, hgroups⟩ := h.divided
  obtain ⟨hrequests, hfailures⟩ := recent_groups hgroups h.recent
  rw [h.requests, h.failures, List.countP_append, List.countP_append]
  omega

/-- The buckets fit into the window. -/
lemma length_buckets (h : tracker.Counts window samples now) :
    tracker.buckets.length ≤ (window - 1) / bucketWidth window + 1 := by
  have hpast : ∀ time ∈ tracker.buckets.map (·.startedAt), time ≤ now := by
    intro time htime
    obtain ⟨bucket, hbucket, rfl⟩ := List.mem_map.mp htime
    exact h.past bucket hbucket
  have hrecent : ∀ time ∈ tracker.buckets.map (·.startedAt), now < time + window := by
    intro time htime
    obtain ⟨bucket, hbucket, rfl⟩ := List.mem_map.mp htime
    exact h.recent bucket hbucket
  rw [← List.length_map (·.startedAt)]
  exact Lib.length_le_of_spaced (Nat.lt_of_lt_of_le Nat.one_pos (le_max_right _ _)) h.spaced hpast
    hrecent

/-- Why the failures are too many. -/
lemma reached (h : tracker.Counts window samples now) {config : FailureTriggerConfig}
    (hreached : tracker.reached config = true) :
    config.failures ≤ samples.countP (Sample.failedRecently window now) ∨
      ∃ before row, samples = before ++ row ∧ config.failures ≤ row.length ∧
        ∀ sample ∈ row, sample.failed = true := by
  rw [FailureTracker.reached, Bool.or_eq_true, Bool.and_eq_true, decide_eq_true_eq,
    decide_eq_true_eq] at hreached
  rcases hreached with hrow | ⟨hfailures, -⟩
  · obtain ⟨before, row, hsamples, hlength, hfailed⟩ := h.row
    exact .inr ⟨before, row, hsamples, hlength ▸ hrow, hfailed⟩
  · exact .inl (hfailures.trans h.counted.2)

end FailureTracker.Counts

/-- The buckets are at most 61 unless the window is so short that its sixtieth part, rounded down, is
less than what is lost by rounding. -/
theorem buckets_le_of_window {window : ℕ} (h : window < 60 ∨ window % 60 ≤ window / 60) :
    (window - 1) / bucketWidth window + 1 ≤ 61 := by
  rw [Nat.add_le_add_iff_right, bucketWidth]
  rcases h with h | h
  · rw [Nat.div_eq_of_lt h, max_eq_right (Nat.zero_le 1), Nat.div_one]
    omega
  · by_cases hshort : window < 60
    · rw [Nat.div_eq_of_lt hshort, max_eq_right (Nat.zero_le 1), Nat.div_one]
      omega
    · have hwidth : 1 ≤ window / 60 := by omega
      rw [max_eq_left hwidth, ← Nat.lt_succ_iff, Nat.div_lt_iff_lt_mul hwidth]
      omega

/-! ## Runs -/

/-- What every call keeps: the buckets divide the samples, and the tracker knows its last trigger. -/
structure Observed.Inv (config : FailureTriggerConfig) (o : Observed) : Prop where
  counts : o.tracker.Counts config.window o.samples o.now
  last : o.tracker.lastTriggeredAt = o.triggers.head?
  apart : o.triggers.Pairwise fun later earlier => earlier + config.window ≤ later
  past : ∀ time ∈ o.triggers, time ≤ o.now

namespace Observed

variable {config : FailureTriggerConfig} {o o' : Observed}

lemma inv_initial (config : FailureTriggerConfig) : initial.Inv config where
  counts := .empty _ _ _
  last := rfl
  apart := .nil
  past := by simp [initial]

/-- The tracker after the request is counted. -/
lemma Inv.counted (h : o.Inv config) (hwindow : 0 < config.window) (failed : Bool) {now : ℕ}
    (hnow : o.now ≤ now) :
    (((o.tracker.prune now config.window).recordSample failed now config.window).count
      failed).Counts config.window (o.samples ++ [⟨now, failed⟩]) now :=
  (h.counts.prune hnow).count hwindow failed

/-- A tracker that has just counted a request is not empty. -/
lemma isEmpty_count (tracker : FailureTracker) (failed : Bool) (now window : ℕ) :
    ((tracker.recordSample failed now window).count failed).buckets.isEmpty = false := by
  rcases FailureTracker.recordSample_cases tracker failed now window with
    ⟨heq, -⟩ | ⟨front, last, -, heq⟩
  all_goals
    rw [heq]
    exact List.isEmpty_eq_false_iff.mpr (by simp [FailureTracker.count])

/-- A trigger that is a window after the last one is so after all. -/
lemma Inv.waited (h : o.Inv config) {now earlier : ℕ}
    (hold : ∀ triggeredAt, o.tracker.lastTriggeredAt = some triggeredAt →
      config.window ≤ now - triggeredAt) (hearlier : earlier ∈ o.triggers)
    (hwindow : 0 < config.window) : earlier + config.window ≤ now := by
  obtain ⟨last, others, htriggers⟩ := List.exists_cons_of_ne_nil (List.ne_nil_of_mem hearlier)
  have hlast := hold last (by rw [h.last, htriggers]; rfl)
  have hapart := h.apart
  rw [htriggers, List.pairwise_cons] at hapart
  rw [htriggers, List.mem_cons] at hearlier
  rcases hearlier with rfl | hearlier
  · omega
  · have hdistance := hapart.1 earlier hearlier
    omega

/-- **One call keeps the invariant.** -/
theorem Inv.step (hwindow : 0 < config.window) {call : TrackerCall} (h : o.Inv config)
    (hstep : trackerStep config o call = some o') : o'.Inv config := by
  cases call with
  | clearSamples =>
    obtain rfl := Option.some.inj hstep
    exact ⟨.empty _ _ _, h.last, h.apart, h.past⟩
  | record failed now =>
    rw [trackerStep] at hstep
    split at hstep
    case isFalse => cases hstep
    case isTrue hnow =>
      obtain rfl := Option.some.inj hstep
      have hcounts := h.counted hwindow failed hnow
      have hempty := isEmpty_count (o.tracker.prune now config.window) failed now config.window
      have hpast : ∀ time ∈ o.triggers, time ≤ now := fun time htime =>
        (h.past time htime).trans hnow
      generalize hcounted : ((o.tracker.prune now config.window).recordSample failed now
        config.window).count failed = counted at hcounts hempty
      have hlast : counted.lastTriggeredAt = o.triggers.head? := by
        rw [← h.last, ← hcounted]
        rfl
      rcases FailureTracker.record_cases o.tracker failed now config hcounted with
        ⟨heq, -⟩ | heq | ⟨heq, -, hold⟩
      · have hrecord : o.record config failed now =
            ⟨counted, o.samples ++ [⟨now, failed⟩], o.triggers, now⟩ := by
          rw [Observed.record, heq]
          simp only [hempty, Bool.false_eq_true, if_false]
        rw [hrecord]
        exact ⟨hcounts, hlast, h.apart, hpast⟩
      · have hrecord : o.record config failed now =
            ⟨counted.clearSamples, [], o.triggers, now⟩ := by
          rw [Observed.record, heq]
          rfl
        rw [hrecord]
        exact ⟨.empty _ _ _, hlast, h.apart, hpast⟩
      · have hrecord : o.record config failed now =
            ⟨{ counted.clearSamples with lastTriggeredAt := some now }, [], now :: o.triggers,
              now⟩ := by
          rw [Observed.record, heq]
          rfl
        rw [hrecord]
        refine ⟨.empty _ _ _, rfl, ?_, ?_⟩
        · exact List.pairwise_cons.mpr ⟨fun earlier hearlier => h.waited hold hearlier hwindow,
            h.apart⟩
        · intro time htime
          rcases List.mem_cons.mp htime with rfl | htime
          · exact le_rfl
          · exact hpast time htime

/-- The invariant holds in every state that a run of calls reaches. -/
lemma inv_of_run (hwindow : 0 < config.window) {calls : List TrackerCall}
    (hrun : runEvents (trackerStep config) initial calls = some o) : o.Inv config :=
  runEvents_invariant (P := fun _ _ => True) (fun _ _ _ h _ hstep => h.step hwindow hstep)
    (inv_initial config) (.of_forall (fun _ _ => trivial) _ _) hrun

/-- What the invariant says about the counters and the next call. -/
lemma Inv.sound (h : o.Inv config) (hwindow : 0 < config.window) : o.Sound config where
  requests := h.counts.requests
  failures := h.counts.failures
  pruned := by
    intro now
    obtain ⟨rest, hprune, hexact⟩ := FailureTracker.pruneBuckets_sums now config.window
      o.tracker.buckets
    rw [h.counts.requests, h.counts.failures, hprune, hexact]
  buckets := h.counts.length_buckets
  fewBuckets := fun hfew => h.counts.length_buckets.trans (buckets_le_of_window hfew)
  forgotten := fun now hnow => (h.counts.prune hnow).counted
  apart := h.apart
  triggered := by
    intro failed now hnow htriggered
    have hcounts := h.counted hwindow failed hnow
    rcases FailureTracker.record_cases o.tracker failed now config rfl with
      ⟨heq, -⟩ | heq | ⟨-, hreached, -⟩
    · rw [heq] at htriggered
      cases htriggered
    · rw [heq] at htriggered
      cases htriggered
    · exact hcounts.reached hreached

end Observed

/-- A valid window is not empty. -/
lemma FailureTriggerConfig.window_pos (config : FailureTriggerConfig)
    (h : config.validate = .ok ()) : 0 < config.window := by
  rw [validate] at h
  split_ifs at h
  omega

/-- **What holds along every run of calls** of a tracker with a valid configuration.

**Proof sketch.** Every call keeps `Observed.Inv`: pruning drops buckets from the front, and as the
buckets keep their distance those behind the first young one are young; a sample goes into the last
bucket or a new one at the end; and a trigger comes only a window after the last one. The buckets
that are younger than the window hold only samples that are, and fit into it at their distance. -/
theorem sound_of_run {config : FailureTriggerConfig} (hvalid : config.validate = .ok ())
    {calls : List TrackerCall} {o : Observed}
    (hrun : runEvents (trackerStep config) .initial calls = some o) : o.Sound config :=
  (Observed.inv_of_run (config.window_pos hvalid) hrun).sound (config.window_pos hvalid)

theorem sound_of_run_pair :
    ∃ o, runEvents (trackerStep { failures := 2, rate := 50, window := 60000000000 }) .initial
        [.record true 0, .record false 1000000000] = some o ∧
      o.Sound { failures := 2, rate := 50, window := 60000000000 } := by
  obtain ⟨o, hrun⟩ := Option.isSome_iff_exists.mp
    (by decide +kernel : (runEvents
      (trackerStep { failures := 2, rate := 50, window := 60000000000 }) .initial
      [.record true 0, .record false 1000000000]).isSome = true)
  exact ⟨o, hrun, sound_of_run (by decide +kernel) hrun⟩

/-- A second failure ten minutes after the first triggers a check although one failure only is younger
than the minute of the window; and a window of 119 nanoseconds is divided into 119 buckets. -/
theorem not_bounded_by_window :
    FailureTriggerConfig.validate { failures := 2, rate := 100, window := 60000000000 } = .ok () ∧
      (runEvents (trackerStep { failures := 2, rate := 100, window := 60000000000 }) .initial
          [.record true 0]).map (fun o =>
        ((o.tracker.record true 600000000000
            { failures := 2, rate := 100, window := 60000000000 }).1,
          (o.samples ++ [⟨600000000000, true⟩]).countP
            (Sample.failedRecently 60000000000 600000000000))) = some (true, 1) ∧
      FailureTriggerConfig.validate { failures := 1000, rate := 1, window := 119 } = .ok () ∧
      (runEvents (trackerStep { failures := 1000, rate := 1, window := 119 }) .initial
          ((List.range 119).map (.record false))).map (·.tracker.buckets.length) = some 119 := by
  decide +kernel

end GemCore.Dynode
