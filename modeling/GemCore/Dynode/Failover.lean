import GemCore.Dynode.FailureTracker
import GemCore.Dynode.Selection

/-!
# Keeping one node in use

`dynode/src/monitoring/chain_monitor.rs`, `evaluator.rs`, `request_failure.rs` and
`failure_tracker.rs`: how the node of a chain is watched and replaced. One task of the chain checks
the nodes, from time to time and whenever the requests to the node in use have failed too often;
meanwhile requests report how they went. The map of nodes and the signal for failures, which has its
own copy of the url in use, are shared, and locked for one access at a time: each access is one
event here, and so is each look at a node.

## Main definitions

* `RequestFailureState` — the signal.
* `Stage`, `MonitorState`, `monitorStep` — the task, what is shared, and one event.
* `eraseStale` — a run without the reports for urls that are not in use any more.

## Main results

* `MonitorState.inv_of_run` — the node in use is configured, and between two checks the signal knows
  which one it is.
* `failover_of_run` — what is seen by looking at fewer nodes decides as all would; the node in use
  changes only by a switch decided for it; reports for urls not in use any more have no effect on
  the checks.
-/

namespace GemCore.Dynode

open Lib

/-! ## The signal -/

variable {Url : Type}

/-- `RequestFailureState`. -/
structure RequestFailureState (Url : Type) where
  activeUrl : Url
  tracker : FailureTracker
  pending : Bool

namespace RequestFailureState

variable [DecidableEq Url]

/-- `RequestFailureSignal::report`: only the url in use is counted. -/
def report (config : FailureTriggerConfig) (state : RequestFailureState Url) (url : Url)
    (failed : Bool) (now : ℕ) : RequestFailureState Url :=
  if state.activeUrl ≠ url then state
  else
    let (triggered, tracker) := state.tracker.record failed now config
    { state with tracker := tracker, pending := state.pending || triggered }

/-- `take_pending`. -/
def takePending (state : RequestFailureState Url) : Option (Url × RequestFailureState Url) :=
  if state.pending then some (state.activeUrl, { state with pending := false }) else none

/-- `check_completed`. -/
def checkCompleted (state : RequestFailureState Url) (url : Url) : RequestFailureState Url :=
  if state.activeUrl ≠ url then
    { activeUrl := url, tracker := .initial, pending := false }
  else { state with tracker := state.tracker.clearSamples, pending := false }

end RequestFailureState

/-! ## The task of the chain -/

/-- `MonitorCycleSource`. -/
inductive MonitorCycleSource where
  | scheduled | failureTrigger

/-- Where the task of the chain stands. -/
inductive Stage (Url : Type) where
  /-- It waits before the first check. -/
  | delayed
  /-- It waits for the next check, and for the signal. -/
  | idle
  /-- The signal has given it this url. -/
  | woken (url : Url)
  /-- A check begins. -/
  | reading (source : MonitorCycleSource)
  /-- It looks at the nodes. -/
  | observing (current : Url) (looks : Observing Url (List (NodeStatusObservation Url)))
  /-- It has decided to switch, and is about to lock the map. -/
  | switching (current : Url) (observations : List (NodeStatusObservation Url))
      (switch : NodeSwitchResult Url)
  /-- The check is over, and it reads which node is in use now. -/
  | rereading
  /-- It is about to tell the signal. -/
  | completing (url : Url)

/-- What is shared, and the task. -/
structure MonitorState (Url : Type) where
  /-- The node of the chain in the map of nodes. -/
  active : Url
  signal : RequestFailureState Url
  stage : Stage Url

/-- What happens. -/
inductive MonitorEvent (Url : Type) where
  /-- The time of a scheduled check has come. -/
  | elapsed
  /-- `wait` returns. -/
  | signalled
  /-- `is_current`. -/
  | confirmed
  /-- The node in use is read. -/
  | read
  /-- A node is looked at. -/
  | observed (health : Health)
  /-- The choice is made. -/
  | decided
  /-- `switch_if_current`. -/
  | switched
  /-- `current_url`. -/
  | reread
  /-- `check_completed`. -/
  | completed
  /-- A request reports how it went. -/
  | report (url : Url) (failed : Bool) (now : ℕ)

/-- What the monitor of a chain is configured with. -/
structure MonitorConfig (Url : Type) where
  urls : List Url
  latencyThreshold : Option ℕ
  trigger : FailureTriggerConfig

variable [DecidableEq Url] (config : MonitorConfig Url)

/-- The stage after the looks: the choice, unless the node in use was not among them. -/
def decideSwitch (current : Url) (observations : List (NodeStatusObservation Url)) : Stage Url :=
  if observations.any fun observation => observation.url = current then
    match selectNode current observations config.latencyThreshold with
    | some switch => .switching current observations switch
    | none => .rereading
  else .rereading

/-- `switch_if_current`, on the node in use. -/
def switchIfCurrent (active expected selected : Url) : Url :=
  if active ≠ expected ∨ active = selected then active else selected

/-- One event. -/
def monitorStep (s : MonitorState Url) : MonitorEvent Url → Option (MonitorState Url)
  | .elapsed =>
    match s.stage with
    | .delayed => some { s with stage := .reading .scheduled }
    | .idle => some { s with stage := .reading .scheduled }
    | _ => none
  | .signalled =>
    match s.stage with
    | .idle => s.signal.takePending.map fun x => { s with stage := .woken x.1, signal := x.2 }
    | _ => none
  | .confirmed =>
    match s.stage with
    | .woken url =>
      some { s with stage := if s.active = url then .reading .failureTrigger else .idle }
    | _ => none
  | .read =>
    match s.stage with
    | .reading _ =>
      some { s with
        stage := .observing s.active (observeNodes config.latencyThreshold config.urls s.active) }
    | _ => none
  | .observed health =>
    match s.stage with
    | .observing current (.ask _ next) => some { s with stage := .observing current (next health) }
    | _ => none
  | .decided =>
    match s.stage with
    | .observing current (.done observations) =>
      some { s with stage := decideSwitch config current observations }
    | _ => none
  | .switched =>
    match s.stage with
    | .switching current _ switch =>
      some { s with active := switchIfCurrent s.active current switch.observation.url,
                    stage := .rereading }
    | _ => none
  | .reread =>
    match s.stage with
    | .rereading => some { s with stage := .completing s.active }
    | _ => none
  | .completed =>
    match s.stage with
    | .completing url => some { s with stage := .idle, signal := s.signal.checkCompleted url }
    | _ => none
  | .report url failed now =>
    some { s with signal := s.signal.report config.trigger url failed now }

/-- What each event does, case by case. -/
inductive Moves (config : MonitorConfig Url) :
    MonitorState Url → MonitorEvent Url → MonitorState Url → Prop
  | first (active : Url) (signal : RequestFailureState Url) :
      Moves config ⟨active, signal, .delayed⟩ .elapsed ⟨active, signal, .reading .scheduled⟩
  | elapsed (active : Url) (signal : RequestFailureState Url) :
      Moves config ⟨active, signal, .idle⟩ .elapsed ⟨active, signal, .reading .scheduled⟩
  | signalled (active : Url) (signal : RequestFailureState Url) (hpending : signal.pending = true) :
      Moves config ⟨active, signal, .idle⟩ .signalled
        ⟨active, { signal with pending := false }, .woken signal.activeUrl⟩
  | confirmed (active : Url) (signal : RequestFailureState Url) (url : Url) :
      Moves config ⟨active, signal, .woken url⟩ .confirmed
        ⟨active, signal, if active = url then .reading .failureTrigger else .idle⟩
  | read (active : Url) (signal : RequestFailureState Url) (source : MonitorCycleSource) :
      Moves config ⟨active, signal, .reading source⟩ .read
        ⟨active, signal, .observing active
          (observeNodes config.latencyThreshold config.urls active)⟩
  | observed (active : Url) (signal : RequestFailureState Url) (current url : Url)
      (next : Health → Observing Url (List (NodeStatusObservation Url))) (health : Health) :
      Moves config ⟨active, signal, .observing current (.ask url next)⟩ (.observed health)
        ⟨active, signal, .observing current (next health)⟩
  | decided (active : Url) (signal : RequestFailureState Url) (current : Url)
      (observations : List (NodeStatusObservation Url)) :
      Moves config ⟨active, signal, .observing current (.done observations)⟩ .decided
        ⟨active, signal, decideSwitch config current observations⟩
  | switched (active : Url) (signal : RequestFailureState Url) (current : Url)
      (observations : List (NodeStatusObservation Url)) (switch : NodeSwitchResult Url) :
      Moves config ⟨active, signal, .switching current observations switch⟩ .switched
        ⟨switchIfCurrent active current switch.observation.url, signal, .rereading⟩
  | reread (active : Url) (signal : RequestFailureState Url) :
      Moves config ⟨active, signal, .rereading⟩ .reread ⟨active, signal, .completing active⟩
  | completed (active : Url) (signal : RequestFailureState Url) (url : Url) :
      Moves config ⟨active, signal, .completing url⟩ .completed
        ⟨active, signal.checkCompleted url, .idle⟩
  | report (s : MonitorState Url) (url : Url) (failed : Bool) (now : ℕ) :
      Moves config s (.report url failed now)
        { s with signal := s.signal.report config.trigger url failed now }

/-- **What an event can do.** -/
theorem monitorStep_iff {config : MonitorConfig Url} {s s' : MonitorState Url}
    {e : MonitorEvent Url} :
    monitorStep config s e = some s' ↔ Moves config s e s' := by
  constructor
  · intro h
    obtain ⟨active, signal, stage⟩ := s
    cases e with
    | elapsed =>
      cases stage <;> cases h
      · exact .first active signal
      · exact .elapsed active signal
    | signalled =>
      cases stage <;> try cases h
      simp only [monitorStep, RequestFailureState.takePending, Option.map_eq_some_iff] at h
      obtain ⟨x, hx, rfl⟩ := h
      split_ifs at hx with hpending
      cases hx
      exact .signalled active signal hpending
    | confirmed =>
      cases stage <;> cases h
      exact .confirmed active signal _
    | read =>
      cases stage <;> cases h
      exact .read active signal _
    | observed health =>
      cases stage <;> try cases h
      rename_i current looks
      cases looks <;> try cases h
      exact .observed active signal current _ _ health
    | decided =>
      cases stage <;> try cases h
      rename_i current looks
      cases looks <;> cases h
      exact .decided active signal current _
    | switched =>
      cases stage <;> cases h
      exact .switched active signal _ _ _
    | reread =>
      cases stage <;> cases h
      exact .reread active signal
    | completed =>
      cases stage <;> cases h
      exact .completed active signal _
    | report url failed now =>
      cases h
      exact .report _ url failed now
  · intro h
    cases h with
    | signalled active signal hpending =>
      simp [monitorStep, RequestFailureState.takePending, hpending]
    | _ => rfl

/-- The state at the start: the first configured node is in use. -/
def MonitorState.initial (url : Url) : MonitorState Url :=
  { active := url, signal := { activeUrl := url, tracker := .initial, pending := false },
    stage := .delayed }

/-! ## What a check can see -/

section Looks

variable {config : MonitorConfig Url}

/-- All observations are of configured nodes, whatever the looks will show. -/
def LooksConfigured (config : MonitorConfig Url)
    (looks : Observing Url (List (NodeStatusObservation Url))) : Prop :=
  ∃ log, looks.Meets (fun _ _ _ => True) (fun _ observations => ∀ o ∈ observations,
    o.url ∈ config.urls) log

omit [DecidableEq Url] in
lemma observeNode_meets (url : Url) (log : List (Op Empty Empty Url Health)) :
    (observeNode url).Meets (fun _ _ _ => True) (fun _ o => o.url = url) log :=
  Task.Meets.bind (Task.Meets.query url) fun _ _ _ => Task.Meets.pure rfl

omit [DecidableEq Url] in
/-- The loop puts observations of configured nodes in its places. -/
lemma probeNodes_meets (latencyThreshold : Option ℕ) (urls : List Url) (queue : List ℕ)
    (slots : List (Option (NodeStatusObservation Url)))
    (hslots : ∀ o, some o ∈ slots → o.url ∈ urls) (log : List (Op Empty Empty Url Health)) :
    (probeNodes latencyThreshold urls queue slots).Meets (fun _ _ _ => True)
      (fun _ slots' => ∀ o, some o ∈ slots' → o.url ∈ urls) log := by
  induction queue generalizing slots log with
  | nil => exact Task.Meets.pure hslots
  | cons index queue ih =>
    rw [probeNodes]
    split
    case h_1 => exact Task.Meets.pure hslots
    case h_2 url hurl =>
      refine Task.Meets.bind (observeNode_meets url log) fun log' o ho => ?_
      have hset : ∀ o', some o' ∈ slots.set index (some o) → o'.url ∈ urls := by
        intro o' ho'
        rcases List.mem_or_eq_of_mem_set ho' with h | h
        · exact hslots o' h
        · cases h
          rw [ho]
          exact List.mem_of_getElem? hurl
      split_ifs
      · exact Task.Meets.pure hset
      · exact ih _ hset log'

/-- A check of a configured node sees configured nodes only. -/
lemma observeNodes_configured {current : Url} (h : current ∈ config.urls) :
    LooksConfigured config (observeNodes config.latencyThreshold config.urls current) := by
  refine ⟨[], Task.Meets.bind (observeNode_meets current []) fun log o ho => ?_⟩
  have hone : ∀ o' ∈ [o], o'.url ∈ config.urls := by
    intro o' ho'
    rw [List.mem_singleton.mp ho', ho]
    exact h
  split
  case h_1 => exact Task.Meets.pure hone
  case h_2 =>
    split_ifs
    · exact Task.Meets.pure hone
    · refine Task.Meets.bind (probeNodes_meets _ config.urls _ _ (fun o' ho' => ?_) log)
        fun log' slots hslots => Task.Meets.pure fun o' ho' => hslots o' ?_
      · rcases List.mem_or_eq_of_mem_set ho' with h' | h'
        · exact absurd (List.eq_of_mem_replicate h') (by simp)
        · cases h'
          rw [ho]
          exact h
      · exact List.reduceOption_mem_iff.mp ho'

/-- The choice is one of the observations. -/
lemma mem_of_selectNode {current : Url} {observations : List (NodeStatusObservation Url)}
    {latencyThreshold : Option ℕ} {switch : NodeSwitchResult Url}
    (h : selectNode current observations latencyThreshold = some switch) :
    switch.observation ∈ observations := by
  simp only [selectNode, Option.bind_eq_bind, Option.bind_eq_some_iff] at h
  obtain ⟨index, -, o, -, candidate, hfind, hswitch⟩ := h
  cases hswitch
  have hmem := List.mem_of_find?_eq_some hfind
  split_ifs at hmem
  · exact List.mem_of_mem_take hmem
  · exact hmem

end Looks

/-! ## Between two events -/

/-- What holds of the stage. -/
def StageOk (config : MonitorConfig Url) (active : Url) : Stage Url → Prop
  | .woken url => url = active
  | .observing current looks => current = active ∧ LooksConfigured config looks
  | .switching current observations switch =>
    current = active ∧ selectNode current observations config.latencyThreshold = some switch ∧
      switch.observation.url ∈ config.urls
  | .completing url => url = active
  | .delayed => True
  | .idle => True
  | .reading _ => True
  | .rereading => True

/-- The signal has to be told of a switch. -/
def Stage.isUntold : Stage Url → Bool
  | .rereading => true
  | .completing _ => true
  | _ => false

/-- What holds between two events: the node in use is configured, what the task has read of it is
still so, and the signal knows it, unless a check has just ended. -/
structure MonitorState.Inv (config : MonitorConfig Url) (s : MonitorState Url) : Prop where
  active_mem : s.active ∈ config.urls
  stage : StageOk config s.active s.stage
  synced : s.stage.isUntold = false → s.signal.activeUrl = s.active

variable {config} {s s' t : MonitorState Url}

lemma RequestFailureState.report_activeUrl (trigger : FailureTriggerConfig)
    (state : RequestFailureState Url) (url : Url) (failed : Bool) (now : ℕ) :
    (state.report trigger url failed now).activeUrl = state.activeUrl := by
  unfold report
  split_ifs <;> rfl

lemma RequestFailureState.checkCompleted_activeUrl (state : RequestFailureState Url) (url : Url) :
    (state.checkCompleted url).activeUrl = url := by
  unfold checkCompleted
  split_ifs with h
  · rfl
  · simpa using h

/-- **Every event keeps the invariant.** -/
theorem MonitorState.Inv.step {e : MonitorEvent Url} (h : s.Inv config)
    (hstep : monitorStep config s e = some s') : s'.Inv config := by
  obtain ⟨hmem, hstage, hsynced⟩ := h
  cases monitorStep_iff.mp hstep with
  | first active signal | elapsed active signal => exact ⟨hmem, trivial, hsynced⟩
  | signalled active signal hpending => exact ⟨hmem, hsynced rfl, hsynced⟩
  | confirmed active signal url =>
    refine ⟨hmem, ?_, fun _ => hsynced rfl⟩
    dsimp only
    split_ifs <;> trivial
  | read active signal source => exact ⟨hmem, ⟨rfl, observeNodes_configured hmem⟩, hsynced⟩
  | observed active signal current url next health =>
    obtain ⟨hcurrent, log, hmeets⟩ := hstage
    exact ⟨hmem, ⟨hcurrent, _, hmeets health⟩, hsynced⟩
  | decided active signal current observations =>
    obtain ⟨hcurrent, log, hmeets⟩ := hstage
    refine ⟨hmem, ?_, fun _ => hsynced rfl⟩
    dsimp only
    unfold decideSwitch
    split_ifs
    · split
      case h_1 switch hswitch => exact ⟨hcurrent, hswitch, hmeets _ (mem_of_selectNode hswitch)⟩
      case h_2 => trivial
    · trivial
  | switched active signal current observations switch =>
    refine ⟨?_, trivial, fun h => by cases h⟩
    dsimp only [switchIfCurrent]
    split_ifs
    · exact hmem
    · exact hstage.2.2
  | reread active signal => exact ⟨hmem, rfl, fun h => by cases h⟩
  | completed active signal url =>
    refine ⟨hmem, trivial, fun _ => ?_⟩
    exact (RequestFailureState.checkCompleted_activeUrl _ _).trans hstage
  | report s url failed now =>
    refine ⟨hmem, hstage, fun h => ?_⟩
    exact (RequestFailureState.report_activeUrl _ _ _ _ _).trans (hsynced h)

/-- **The invariant holds in every run.** -/
theorem MonitorState.inv_of_run {first : Url} (hfirst : first ∈ config.urls)
    {events : List (MonitorEvent Url)}
    (hrun : runEvents (monitorStep config) (.initial first) events = some s) : s.Inv config := by
  have hinit : (MonitorState.initial first).Inv config := ⟨hfirst, trivial, fun _ => rfl⟩
  exact runEvents_invariant (P := fun _ _ => True) (fun _ _ _ h _ hstep => h.step hstep) hinit
    (.of_forall (fun _ _ => trivial) _ _) hrun

/-- **The node in use changes by a switch only**, that was decided for the node in use. -/
theorem MonitorState.Inv.switched_of_active_ne {e : MonitorEvent Url} (h : s.Inv config)
    (hstep : monitorStep config s e = some s') (hne : s'.active ≠ s.active) :
    e = .switched ∧ ∃ observations switch, s.stage = .switching s.active observations switch ∧
      selectNode s.active observations config.latencyThreshold = some switch ∧
      s'.active = switch.observation.url := by
  cases monitorStep_iff.mp hstep with
  | switched active signal current observations switch =>
    obtain ⟨hcurrent, hselect, -⟩ := h.stage
    dsimp only at hcurrent hne ⊢
    subst hcurrent
    refine ⟨rfl, observations, switch, rfl, hselect, ?_⟩
    dsimp only [switchIfCurrent] at hne ⊢
    split_ifs with hif
    · rw [if_pos hif] at hne
      exact absurd rfl hne
    · rfl
  | _ => exact absurd rfl hne

/-! ## Reports for urls that are not in use -/

/-- A report for a url that is not in use. -/
def Stale (s : MonitorState Url) : MonitorEvent Url → Bool
  | .report url _ _ => url ≠ s.active
  | _ => false

/-- A run without the reports for urls that were not in use at that time. -/
def eraseStale (config : MonitorConfig Url) :
    MonitorState Url → List (MonitorEvent Url) → List (MonitorEvent Url)
  | _, [] => []
  | s, e :: events =>
    match monitorStep config s e with
    | none => e :: events
    | some s' => if Stale s e then eraseStale config s' events else e :: eraseStale config s' events

/-- Two states that differ at most in what the signal has counted while it did not know of a
switch. -/
structure Alike (s t : MonitorState Url) : Prop where
  active : t.active = s.active
  stage : t.stage = s.stage
  activeUrl : t.signal.activeUrl = s.signal.activeUrl
  signal : s.signal.activeUrl = s.active → t.signal = s.signal

/-- A report for a url that is not in use makes no difference. -/
lemma Alike.stale {e : MonitorEvent Url} (h : Alike s t) (hstale : Stale s e = true)
    (hstep : monitorStep config s e = some s') : Alike s' t := by
  cases monitorStep_iff.mp hstep with
  | report s url failed now =>
    have hne : url ≠ s.active := by simpa [Stale] using hstale
    refine ⟨h.active, h.stage, ?_, fun hsynced => ?_⟩
    · rw [RequestFailureState.report_activeUrl]
      exact h.activeUrl
    · rw [RequestFailureState.report_activeUrl] at hsynced
      rw [RequestFailureState.report, if_pos (by rw [hsynced]; exact hne.symm)]
      exact h.signal hsynced
  | _ => cases hstale

/-- Every other event happens to both states alike. -/
lemma Alike.step {e : MonitorEvent Url} (h : Alike s t) (hinv : s.Inv config)
    (hfresh : Stale s e = false) (hstep : monitorStep config s e = some s') :
    ∃ t', monitorStep config t e = some t' ∧ Alike s' t' := by
  obtain ⟨tactive, tsignal, tstage⟩ := t
  obtain ⟨hactive, hstage, hurl, hsignal⟩ := h
  dsimp only at hactive hstage hurl hsignal
  subst hactive hstage
  cases monitorStep_iff.mp hstep with
  | first active signal =>
    exact ⟨_, monitorStep_iff.mpr (.first active tsignal), rfl, rfl, hurl, hsignal⟩
  | elapsed active signal =>
    exact ⟨_, monitorStep_iff.mpr (.elapsed active tsignal), rfl, rfl, hurl, hsignal⟩
  | signalled active signal hpending =>
    obtain rfl := hsignal (hinv.synced rfl)
    exact ⟨_, monitorStep_iff.mpr (.signalled active tsignal hpending), rfl, rfl, rfl, fun _ => rfl⟩
  | confirmed active signal url =>
    exact ⟨_, monitorStep_iff.mpr (.confirmed active tsignal url), rfl, rfl, hurl, hsignal⟩
  | read active signal source =>
    exact ⟨_, monitorStep_iff.mpr (.read active tsignal source), rfl, rfl, hurl, hsignal⟩
  | observed active signal current url next health =>
    exact ⟨_, monitorStep_iff.mpr (.observed active tsignal current url next health), rfl, rfl, hurl,
      hsignal⟩
  | decided active signal current observations =>
    exact ⟨_, monitorStep_iff.mpr (.decided active tsignal current observations), rfl, rfl, hurl,
      hsignal⟩
  | switched active signal current observations switch =>
    obtain rfl := hsignal (hinv.synced rfl)
    exact ⟨_, monitorStep_iff.mpr (.switched active tsignal current observations switch), rfl, rfl,
      rfl, fun _ => rfl⟩
  | reread active signal =>
    exact ⟨_, monitorStep_iff.mpr (.reread active tsignal), rfl, rfl, hurl, hsignal⟩
  | completed active signal url =>
    -- the signal is told of a switch, which clears it, or it knew the node in use before
    have hactive : url = active := hinv.stage
    subst hactive
    have heq : tsignal.checkCompleted url = signal.checkCompleted url := by
      by_cases hsame : signal.activeUrl = url
      · rw [hsignal hsame]
      · rw [RequestFailureState.checkCompleted, RequestFailureState.checkCompleted,
          if_pos (hurl ▸ hsame), if_pos hsame]
    exact ⟨_, monitorStep_iff.mpr (.completed url tsignal url), rfl, rfl, congrArg _ heq,
      fun _ => heq⟩
  | report s url failed now =>
    have hactive : url = s.active := by simpa [Stale] using hfresh
    have heq : s.signal.activeUrl = s.active ∨
        tsignal.report config.trigger url failed now = tsignal ∧
        s.signal.report config.trigger url failed now = s.signal := by
      by_cases hsame : s.signal.activeUrl = s.active
      · exact .inl hsame
      · rw [RequestFailureState.report, RequestFailureState.report, hurl, hactive, if_pos hsame]
        exact .inr ⟨rfl, if_pos hsame⟩
    refine ⟨_, monitorStep_iff.mpr (.report _ url failed now), rfl, rfl, ?_, fun hsynced => ?_⟩
    · dsimp only
      rw [RequestFailureState.report_activeUrl, RequestFailureState.report_activeUrl]
      exact hurl
    · dsimp only at hsynced ⊢
      rw [RequestFailureState.report_activeUrl] at hsynced
      rw [hsignal hsynced]

/-- **Reports for urls that are not in use have no effect**: without them the run goes the same way.

**Proof sketch.** Outside the short time in which the signal has not been told of a switch, it knows
the node in use and ignores them; in that time they are counted, but the next thing that happens to
the signal is that it is cleared. -/
theorem Alike.run {events : List (MonitorEvent Url)} {u : MonitorState Url} (h : Alike s t)
    (hinv : s.Inv config) (hrun : runEvents (monitorStep config) s events = some u) :
    ∃ v, runEvents (monitorStep config) t (eraseStale config s events) = some v ∧ Alike u v := by
  induction events generalizing s t with
  | nil =>
    cases hrun
    exact ⟨t, rfl, h⟩
  | cons e events ih =>
    obtain ⟨s₁, hstep, hrest⟩ := runEvents_cons_eq_some.mp hrun
    have hinv₁ := hinv.step hstep
    rw [eraseStale, hstep]
    dsimp only
    split_ifs with hstale
    · exact ih (h.stale hstale hstep) hinv₁ hrest
    · obtain ⟨t₁, ht₁, h₁⟩ := h.step hinv (Bool.eq_false_iff.mpr hstale) hstep
      obtain ⟨v, hv, halike⟩ := ih h₁ hinv₁ hrest
      exact ⟨v, runEvents_cons_eq_some.mpr ⟨t₁, ht₁, hv⟩, halike⟩

/-! ## The whole -/

/-- The switch chosen from the nodes that are looked at is the one `select_node` chooses from all
configured nodes. In every run of the monitor of a chain, the node in use is a configured one; it
changes only through a switch decided for the node that is in use at that moment; a check because of
failures is made for the node in use; and without the reports for urls that were not in use when they
were made, the same run makes the same checks and uses the same nodes. -/
theorem failover_of_run (config : MonitorConfig Url) (hurls : config.urls.Nodup) :
    (∀ (current : Url) (health : Url → Health),
      selectNode current
          ((observeNodes config.latencyThreshold config.urls current).answeredBy health)
          config.latencyThreshold =
        selectNode current (config.urls.map fun url => (health url).at url)
          config.latencyThreshold ∧
      (selectNode current (config.urls.map fun url => (health url).at url)
          config.latencyThreshold).map (fun switch => switch.observation.url) =
        expectedNode (fun url => ((health url).at url).isUsable config.latencyThreshold) config.urls
          current) ∧
    ∀ first ∈ config.urls, ∀ events s,
      runEvents (monitorStep config) (.initial first) events = some s →
        s.active ∈ config.urls ∧
        (∀ e s', monitorStep config s e = some s' → s'.active ≠ s.active →
          e = .switched ∧ ∃ observations switch,
            s.stage = .switching s.active observations switch ∧
            selectNode s.active observations config.latencyThreshold = some switch ∧
            s'.active = switch.observation.url) ∧
        (∀ s', monitorStep config s .signalled = some s' → s'.stage = .woken s.active) ∧
        ∃ t, runEvents (monitorStep config) (.initial first)
            (eraseStale config (.initial first) events) = some t ∧
          t.active = s.active ∧ t.stage = s.stage := by
  refine ⟨fun current health => ⟨selectNode_observeNodes _ health _ hurls current,
    selectNode_map _ health _ hurls current⟩, ?_⟩
  intro first hfirst events s hrun
  have hinv := MonitorState.inv_of_run hfirst hrun
  have hinit : (MonitorState.initial first).Inv config := ⟨hfirst, trivial, fun _ => rfl⟩
  obtain ⟨t, ht, halike⟩ := Alike.run ⟨rfl, rfl, rfl, fun _ => rfl⟩ hinit hrun
  refine ⟨hinv.active_mem, fun e s' => hinv.switched_of_active_ne, fun s' hstep => ?_, t, ht,
    halike.active, halike.stage⟩
  cases monitorStep_iff.mp hstep with
  | signalled active signal hpending => exact congrArg Stage.woken (hinv.synced rfl)

/-- Two nodes. -/
def sampleMonitor : MonitorConfig String :=
  { urls := ["https://a", "https://b"], latencyThreshold := none,
    trigger := { failures := 1, rate := 50, window := 60000000000 } }

/-- The first check finds the first node down and switches to the second one; a request that was
sent to the first one fails before the signal has been told. -/
def sampleFailover : List (MonitorEvent String) :=
  [.elapsed, .read, .observed ⟨.error "down", 10, .request⟩,
    .observed ⟨.healthy ⟨true, none, none⟩, 10, .request⟩, .decided, .switched,
    .report "https://a" true 5, .reread, .completed]

/-- That run, and the one without the late report. -/
theorem failover_of_run_sample :
    ∃ s, runEvents (monitorStep sampleMonitor) (.initial "https://a") sampleFailover = some s ∧
      s.active = "https://b" ∧ s.active ∈ sampleMonitor.urls ∧
      ∃ t, runEvents (monitorStep sampleMonitor) (.initial "https://a")
          (eraseStale sampleMonitor (.initial "https://a") sampleFailover) = some t ∧
        t.active = s.active ∧ t.stage = s.stage := by
  obtain ⟨s, hrun, hactive⟩ : ∃ s, runEvents (monitorStep sampleMonitor) (.initial "https://a")
      sampleFailover = some s ∧ s.active = "https://b" := ⟨_, rfl, rfl⟩
  obtain ⟨hmem, -, -, herase⟩ :=
    (failover_of_run sampleMonitor (by decide)).2 "https://a" (by decide) sampleFailover s hrun
  exact ⟨s, hrun, hactive, hmem, herase⟩

end GemCore.Dynode
