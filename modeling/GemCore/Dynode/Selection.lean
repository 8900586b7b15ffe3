import Mathlib.Data.List.ReduceOption
import GemCore.Lib.Tasks

/-!
# Choosing the node of a chain

`dynode/src/monitoring/evaluator.rs` and `selection.rs`: which of the configured nodes a chain should
use. The node in use is looked at first; then the others in the order of the configuration, up to
the first one that is usable, and if the node in use is usable only those before it. What was seen
is put together in the order of the configuration, without the places that were not looked at, and
`select_node` chooses from that list.

Urls are only compared here, so their type is a parameter.

## Main definitions

* `NodeStatusObservation` — what was seen of a node.
* `selectNode` — the choice.
* `observeNodes` — the looks, as a task that asks for the health of one url after the other.
* `expectedNode` — the node that should be chosen.

## Main results

* `selectNode_observeNodes` — the choice is the one a look at all nodes would lead to.
* `selectNode_map` — the choice from all nodes is the expected one.
-/

namespace GemCore.Dynode

open Lib

variable {Url : Type}

/-- `NodeSyncStatus`. -/
structure NodeSyncStatus where
  inSync : Bool
  latestBlockNumber : Option UInt64
  currentBlockNumber : Option UInt64

/-- `NodeStatusState`. -/
inductive NodeStatusState where
  | healthy (status : NodeSyncStatus)
  | error (message : String)

/-- `is_healthy`. -/
def NodeStatusState.isHealthy : NodeStatusState → Bool
  | healthy status => status.inSync
  | error _ => false

/-- `FailureReason`. -/
inductive FailureReason where
  | status (code : ℕ) | timeout | connectError | requestError

/-- `NodeMonitorError`. -/
inductive NodeMonitorError where
  | upstream (reason : FailureReason) | request | nodeCheck

/-- What is found out about a node at some time. -/
structure Health where
  state : NodeStatusState
  /-- In nanoseconds. -/
  latency : ℕ
  monitorError : NodeMonitorError

/-- `NodeStatusObservation`. -/
structure NodeStatusObservation (Url : Type) where
  url : Url
  state : NodeStatusState
  latency : ℕ
  monitorError : NodeMonitorError

/-- The observation of a url. -/
def Health.at (health : Health) (url : Url) : NodeStatusObservation Url :=
  { url := url, state := health.state, latency := health.latency,
    monitorError := health.monitorError }

/-- `is_usable`. -/
def NodeStatusObservation.isUsable (latencyThreshold : Option ℕ)
    (observation : NodeStatusObservation Url) : Bool :=
  observation.state.isHealthy &&
    match latencyThreshold with
    | none => true
    | some threshold => observation.latency ≤ threshold

/-- `NodeSwitchReason`. -/
inductive NodeSwitchReason where
  | blockHeight
  | currentNodeError (error : NodeMonitorError) (message : String)
  | latency
  | preferredNode

/-- `switch_reason`. -/
def switchReason (current : NodeStatusObservation Url) (currentUsable : Bool) : NodeSwitchReason :=
  match current.state with
  | .error message => .currentNodeError current.monitorError message
  | .healthy status =>
    if !status.inSync then .blockHeight
    else if !currentUsable then .latency
    else .preferredNode

/-- `NodeSwitchResult`. -/
structure NodeSwitchResult (Url : Type) where
  observation : NodeStatusObservation Url
  reason : NodeSwitchReason

/-! ## Looking at the nodes -/

/-- A task that asks for the health of urls. -/
abbrev Observing (Url α : Type) : Type := Task Empty Empty Url Health α

/-- `observe_node`. -/
def observeNode (url : Url) : Observing Url (NodeStatusObservation Url) := do
  let health ← Task.query url
  pure (health.at url)

/-- `probe_indices`. -/
def probeIndices (nodeCount currentIndex : ℕ) (currentHealthy : Bool) : List ℕ :=
  (List.range (if currentHealthy then currentIndex else nodeCount)).filter (· ≠ currentIndex)

/-- The loop of `observe_nodes`: up to the first usable node, each observation is put in its
place. -/
def probeNodes (latencyThreshold : Option ℕ) (urls : List Url) :
    List ℕ → List (Option (NodeStatusObservation Url)) →
      Observing Url (List (Option (NodeStatusObservation Url)))
  | [], observations => pure observations
  | index :: rest, observations =>
    match urls[index]? with
    | none => pure observations
    | some url => do
      let observation ← observeNode url
      if observation.isUsable latencyThreshold then
        pure (observations.set index (some observation))
      else probeNodes latencyThreshold urls rest (observations.set index (some observation))

/-- What is looked at of a list: everything up to the first usable node. -/
def probed (latencyThreshold : Option ℕ) :
    List (NodeStatusObservation Url) → List (NodeStatusObservation Url)
  | [] => []
  | o :: rest => if o.isUsable latencyThreshold then [o] else o :: probed latencyThreshold rest

/-- The first usable node is looked at. -/
lemma find?_probed (latencyThreshold : Option ℕ) (l : List (NodeStatusObservation Url)) :
    (probed latencyThreshold l).find? (NodeStatusObservation.isUsable latencyThreshold) =
      l.find? (NodeStatusObservation.isUsable latencyThreshold) := by
  induction l with
  | nil => rfl
  | cons o l ih =>
    rw [probed]
    split_ifs with h
    · simp [h]
    · simp [h, ih]

lemma mem_of_mem_probed {latencyThreshold : Option ℕ} {l : List (NodeStatusObservation Url)}
    {o : NodeStatusObservation Url} (h : o ∈ probed latencyThreshold l) : o ∈ l := by
  induction l with
  | nil => exact h
  | cons x l ih =>
    rw [probed] at h
    split_ifs at h with hx
    · rw [List.mem_singleton.mp h]
      exact List.mem_cons_self
    · rcases List.mem_cons.mp h with rfl | h
      · exact List.mem_cons_self
      · exact List.mem_cons_of_mem x (ih h)

/-- Without a usable node everything is looked at. -/
lemma probed_eq_self {latencyThreshold : Option ℕ} {l : List (NodeStatusObservation Url)}
    (h : ¬l.any (NodeStatusObservation.isUsable latencyThreshold) = true) :
    probed latencyThreshold l = l := by
  induction l with
  | nil => rfl
  | cons o l ih =>
    rw [List.any_cons, Bool.or_eq_true, not_or] at h
    rw [probed, if_neg h.1, ih h.2]

section Probing

variable (health : Url → Health)

/-- **A stretch of the loop**: the places from `done` on are filled up to the first usable node, and
if there is none the loop goes on behind the stretch. -/
theorem answeredBy_probeNodes_append (latencyThreshold : Option ℕ) (front mid back : List Url)
    (filled rest : List (Option (NodeStatusObservation Url))) (queue : List ℕ)
    (hfilled : filled.length = front.length) :
    (probeNodes latencyThreshold (front ++ mid ++ back)
        (List.range' front.length mid.length ++ queue)
        (filled ++ List.replicate mid.length none ++ rest)).answeredBy health =
      if (mid.map fun url => (health url).at url).any
          (NodeStatusObservation.isUsable latencyThreshold) then
        filled ++ (probed latencyThreshold (mid.map fun url => (health url).at url)).map some ++
          List.replicate (mid.length -
            (probed latencyThreshold (mid.map fun url => (health url).at url)).length) none ++ rest
      else (probeNodes latencyThreshold (front ++ mid ++ back) queue
        (filled ++ mid.map (fun url => some ((health url).at url)) ++ rest)).answeredBy health := by
  induction mid generalizing front filled with
  | nil => simp
  | cons url mid ih =>
    have hget : (front ++ url :: mid ++ back)[front.length]? = some url := by simp
    rw [List.length_cons, List.range'_succ, List.cons_append, probeNodes, hget]
    have hset : ∀ o, (filled ++ List.replicate (mid.length + 1) none ++ rest).set front.length (some o)
        = (filled ++ [some o]) ++ List.replicate mid.length none ++ rest := by
      intro o
      rw [← hfilled]
      simp [List.replicate_succ]
    simp only [observeNode, Task.answeredBy_bind, Task.answeredBy_query, Task.answeredBy_pure,
      hset]
    by_cases husable : ((health url).at url).isUsable latencyThreshold = true
    · simp [husable, probed]
    · have hstep := ih (front ++ [url]) (filled ++ [some ((health url).at url)]) (by simp [hfilled])
      simp only [husable, Bool.false_eq_true, if_false, List.map_cons, List.any_cons, Bool.false_or,
        probed]
      simp only [List.append_assoc, List.cons_append, List.nil_append, List.length_append,
        List.length_singleton] at hstep ⊢
      rw [hstep]
      simp

end Probing

/-! ## The choice -/

variable [DecidableEq Url]

/-- `select_node`. -/
def selectNode (current : Url) (configuredObservations : List (NodeStatusObservation Url))
    (latencyThreshold : Option ℕ) : Option (NodeSwitchResult Url) := do
  let currentIndex ← configuredObservations.findIdx? fun observation => observation.url = current
  let currentObservation ← configuredObservations[currentIndex]?
  let currentUsable := currentObservation.isUsable latencyThreshold
  let candidates :=
    if currentUsable then configuredObservations.take currentIndex else configuredObservations
  let candidate ← candidates.find? fun observation =>
    observation.url ≠ current ∧ observation.isUsable latencyThreshold
  some { observation := candidate, reason := switchReason currentObservation currentUsable }

/-- `observe_nodes`. -/
def observeNodes (latencyThreshold : Option ℕ) (urls : List Url) (current : Url) :
    Observing Url (List (NodeStatusObservation Url)) := do
  let currentObservation ← observeNode current
  match urls.findIdx? fun url => url = current with
  | none => pure [currentObservation]
  | some currentIndex =>
    if currentIndex = 0 ∧ currentObservation.isUsable latencyThreshold then
      pure [currentObservation]
    else do
      let observations ← probeNodes latencyThreshold urls
        (probeIndices urls.length currentIndex (currentObservation.isUsable latencyThreshold))
        ((List.replicate urls.length none).set currentIndex (some currentObservation))
      pure observations.reduceOption

/-! ## The choice from a list -/

/-- Among other nodes the condition on the url says nothing. -/
lemma find?_candidate {current : Url} (latencyThreshold : Option ℕ)
    {l : List (NodeStatusObservation Url)} (hl : ∀ o ∈ l, o.url ≠ current) :
    l.find? (fun o => o.url ≠ current ∧ o.isUsable latencyThreshold) =
      l.find? (NodeStatusObservation.isUsable latencyThreshold) := by
  induction l with
  | nil => rfl
  | cons o l ih =>
    have ho := hl o List.mem_cons_self
    rw [List.find?_cons, List.find?_cons, ih fun x hx => hl x (List.mem_cons_of_mem o hx)]
    simp [ho]

/-- **The choice, around the node in use**: the first usable one of those before it, and of those
behind it too if it is not usable itself. -/
theorem selectNode_split {current : Url} {before behind : List (NodeStatusObservation Url)}
    {observation : NodeStatusObservation Url} (latencyThreshold : Option ℕ)
    (hcurrent : observation.url = current) (hbefore : ∀ o ∈ before, o.url ≠ current)
    (hbehind : ∀ o ∈ behind, o.url ≠ current) :
    selectNode current (before ++ observation :: behind) latencyThreshold =
      ((if observation.isUsable latencyThreshold then before else before ++ behind).find?
        (NodeStatusObservation.isUsable latencyThreshold)).map fun o =>
          { observation := o,
            reason := switchReason observation (observation.isUsable latencyThreshold) } := by
  have hidx : (before ++ observation :: behind).findIdx? (fun o => o.url = current) =
      some before.length := by
    rw [List.findIdx?_append, List.findIdx?_eq_none_iff.mpr (by simpa using hbefore)]
    simp [List.findIdx?_cons, hcurrent]
  have hget : (before ++ observation :: behind)[before.length]? = some observation := by simp
  simp only [selectNode, hidx, hget, Option.bind_eq_bind, Option.bind_some]
  split_ifs
  · rw [List.take_left, find?_candidate latencyThreshold hbefore]
    cases before.find? (NodeStatusObservation.isUsable latencyThreshold) <;> rfl
  · have hskip : (before ++ observation :: behind).find?
        (fun o => o.url ≠ current ∧ o.isUsable latencyThreshold) =
          (before ++ behind).find? (NodeStatusObservation.isUsable latencyThreshold) := by
      rw [List.find?_append, find?_candidate latencyThreshold hbefore, List.find?_cons_of_neg
        (by simp [hcurrent]), find?_candidate latencyThreshold hbehind, List.find?_append]
    rw [hskip]
    cases (before ++ behind).find? (NodeStatusObservation.isUsable latencyThreshold) <;> rfl

/-! ## Looking and choosing -/

section Observing

variable (latencyThreshold : Option ℕ) (health : Url → Health)

omit [DecidableEq Url] in
/-- Places that were not looked at are left out. -/
lemma reduceOption_append_replicate (l : List (NodeStatusObservation Url)) (n : ℕ)
    (rest : List (Option (NodeStatusObservation Url))) :
    (l.map some ++ List.replicate n none ++ rest).reduceOption = l ++ rest.reduceOption := by
  rw [List.reduceOption_append, List.reduceOption_append, List.reduceOption_replicate_none,
    List.append_nil]
  congr 1
  induction l with
  | nil => rfl
  | cons o l ih => rw [List.map_cons, List.reduceOption_cons_of_some, ih]

/-- With a usable node in use, those before it are looked at. -/
lemma probeIndices_true (n currentIndex : ℕ) :
    probeIndices n currentIndex true = List.range' 0 currentIndex := by
  rw [probeIndices, if_pos rfl, List.range_eq_range', List.filter_eq_self]
  intro i hi
  have := List.mem_range'_1.mp hi
  simp
  omega

/-- Otherwise all others are. -/
lemma probeIndices_false (currentIndex n : ℕ) :
    probeIndices (currentIndex + (n + 1)) currentIndex false =
      List.range' 0 currentIndex ++ List.range' (currentIndex + 1) n := by
  have hsplit : List.range (currentIndex + (n + 1)) =
      List.range' 0 currentIndex ++ currentIndex :: List.range' (currentIndex + 1) n := by
    rw [List.range_eq_range', ← List.range'_append_1, List.range'_succ, Nat.zero_add]
  have hkeep : ∀ start len, (∀ i ∈ List.range' start len, i ≠ currentIndex) →
      (List.range' start len).filter (· ≠ currentIndex) = List.range' start len := by
    intro start len h
    exact List.filter_eq_self.mpr fun i hi => by simpa using h i hi
  have hbefore := hkeep 0 currentIndex fun i hi => by
    have := List.mem_range'_1.mp hi
    omega
  have hbehind := hkeep (currentIndex + 1) n fun i hi => by
    have := List.mem_range'_1.mp hi
    omega
  simp only [probeIndices, Bool.false_eq_true, if_false, hsplit, List.filter_append,
    List.filter_cons, hbefore, hbehind]
  simp

/-- **What is seen**, around the node in use. -/
theorem answeredBy_observeNodes {current : Url} {front back : List Url} (hfront : current ∉ front) :
    (observeNodes latencyThreshold (front ++ current :: back) current).answeredBy health =
      if ((health current).at current).isUsable latencyThreshold ∨
          (front.map fun url => (health url).at url).any
            (NodeStatusObservation.isUsable latencyThreshold) then
        probed latencyThreshold (front.map fun url => (health url).at url) ++
          [(health current).at current]
      else (front.map fun url => (health url).at url) ++ (health current).at current ::
        probed latencyThreshold (back.map fun url => (health url).at url) := by
  have hidx : (front ++ current :: back).findIdx? (fun url => url = current) =
      some front.length := by
    rw [List.findIdx?_append, List.findIdx?_eq_none_iff.mpr fun url hurl => ?_]
    · simp [List.findIdx?_cons]
    · simpa using fun h : url = current => hfront (h ▸ hurl)
  have hslots : (List.replicate (front.length + (back.length + 1)) none).set front.length
      (some ((health current).at current)) = ([] : List (Option (NodeStatusObservation Url))) ++
        List.replicate front.length none ++
          (some ((health current).at current) :: List.replicate back.length none) := by
    simp [List.replicate_add, List.replicate_succ]
  have hlen : (front ++ current :: back).length = front.length + (back.length + 1) := by simp
  -- the places behind the node in use are empty after the first stretch
  have hfirst : ∀ n : ℕ, ((probed latencyThreshold (front.map fun url => (health url).at url)).map
      some ++ List.replicate n none ++ (some ((health current).at current) ::
        List.replicate back.length none)).reduceOption =
      probed latencyThreshold (front.map fun url => (health url).at url) ++
        [(health current).at current] := by
    intro n
    rw [reduceOption_append_replicate, List.reduceOption_cons_of_some,
      List.reduceOption_replicate_none]
  have hstretch := fun queue => answeredBy_probeNodes_append health latencyThreshold []
    front (current :: back) [] (some ((health current).at current) ::
      List.replicate back.length none) queue rfl
  simp only [List.nil_append, List.length_nil] at hstretch hslots
  simp only [observeNodes, observeNode, Task.answeredBy_bind, Task.answeredBy_query,
    Task.answeredBy_pure, hidx, hslots, hlen]
  have hmap : front.map (fun url => some ((health url).at url)) =
      (front.map fun url => (health url).at url).map some := by simp
  have hsecond := answeredBy_probeNodes_append health latencyThreshold (front ++ [current]) back []
    (front.map (fun url => some ((health url).at url)) ++ [some ((health current).at current)]) [] []
    (by simp)
  have hseen : (front.map fun url => (health url).at url).length = front.length := by simp
  rw [hmap] at hsecond
  generalize front.map (fun url => (health url).at url) = seen at *
  cases husable : ((health current).at current).isUsable latencyThreshold with
  | true =>
    simp only [and_true, true_or, if_true]
    split_ifs with hzero
    · obtain rfl : seen = [] := List.eq_nil_of_length_eq_zero (hseen.trans hzero)
      rfl
    · have hrun := hstretch []
      rw [List.append_nil] at hrun
      rw [probeIndices_true, Task.answeredBy_bind, hrun]
      split_ifs with hany
      · exact hfirst _
      · rw [probeNodes, Task.answeredBy_pure, Task.answeredBy_pure, hmap, ← hfirst 0, probed_eq_self hany]
        simp
  | false =>
    simp only [Bool.false_eq_true, and_false, if_false, false_or]
    rw [probeIndices_false, Task.answeredBy_bind, hstretch]
    split_ifs with hany
    · exact hfirst _
    · simp only [List.append_nil, List.append_assoc, List.cons_append, List.nil_append,
        List.length_append, List.length_singleton] at hsecond
      rw [hmap, hsecond, Task.answeredBy_pure]
      have hends : ∀ l : List (NodeStatusObservation Url), ∀ n : ℕ,
          (seen.map some ++ some ((health current).at current) ::
            (l.map some ++ List.replicate n none)).reduceOption =
          seen ++ (health current).at current :: l := by
        intro l n
        have h := reduceOption_append_replicate (seen ++ (health current).at current :: l) n []
        simpa using h
      split_ifs with hback
      · exact hends _ _
      · have h := hends (back.map fun url => (health url).at url) 0
        rw [probeNodes, Task.answeredBy_pure, probed_eq_self hback]
        simpa [Function.comp_def] using h

/-- A node in use that is not configured is the only one looked at. -/
lemma answeredBy_observeNodes_of_notMem {current : Url} {urls : List Url}
    (h : current ∉ urls) :
    (observeNodes latencyThreshold urls current).answeredBy health =
      [(health current).at current] := by
  have hidx : urls.findIdx? (fun url => url = current) = none :=
    List.findIdx?_eq_none_iff.mpr fun url hurl => by
      simpa using fun heq : url = current => h (heq ▸ hurl)
  simp only [observeNodes, observeNode, Task.answeredBy_bind, Task.answeredBy_query,
    Task.answeredBy_pure, hidx]

/-- The choice around the node in use, as it was seen. -/
lemma selectNode_around {current : Url} {before behind : List (NodeStatusObservation Url)}
    (hbefore : ∀ o ∈ before, o.url ≠ current) (hbehind : ∀ o ∈ behind, o.url ≠ current) :
    selectNode current (before ++ (health current).at current :: behind) latencyThreshold =
      ((if ((health current).at current).isUsable latencyThreshold then before
        else before ++ behind).find? (NodeStatusObservation.isUsable latencyThreshold)).map fun o =>
          { observation := o, reason := switchReason ((health current).at current)
              (((health current).at current).isUsable latencyThreshold) } :=
  selectNode_split latencyThreshold rfl hbefore hbehind

omit [DecidableEq Url] in
/-- The urls around a configured node are other ones. -/
lemma exists_split_of_mem {current : Url} {urls : List Url} (hurls : urls.Nodup)
    (hmem : current ∈ urls) :
    ∃ front back, urls = front ++ current :: back ∧ current ∉ front ∧ current ∉ back := by
  obtain ⟨front, back, rfl, hfront⟩ := List.eq_append_cons_of_mem hmem
  exact ⟨front, back, rfl, hfront,
    (List.nodup_cons.mp (List.Nodup.of_append_right hurls)).1⟩

omit [DecidableEq Url] in
/-- The observations of other urls are not those of the node in use. -/
lemma url_ne_of_mem_map {current : Url} {urls : List Url} (h : current ∉ urls) :
    ∀ o ∈ urls.map (fun url => (health url).at url), o.url ≠ current := by
  intro o ho heq
  obtain ⟨url, hurl, rfl⟩ := List.mem_map.mp ho
  have hcurrent : url = current := heq
  exact h (hcurrent ▸ hurl)

/-- The choice from a list without the node in use. -/
lemma selectNode_eq_none_of_notMem {current : Url} {l : List (NodeStatusObservation Url)}
    (h : ∀ o ∈ l, o.url ≠ current) : selectNode current l latencyThreshold = none := by
  have hidx : l.findIdx? (fun o => o.url = current) = none :=
    List.findIdx?_eq_none_iff.mpr fun o ho => by simpa using h o ho
  simp [selectNode, hidx]

/-- **Looking at fewer nodes makes no difference**: the choice from what was seen is the choice from
all configured nodes.

**Proof sketch.** Around the node in use the configuration is `front ++ current :: back`. What was
seen is `front` up to its first usable node, and if there is none and `current` is not usable, also
`back` up to its first one; the first usable node of a list is the last one that is looked at. -/
theorem selectNode_observeNodes (urls : List Url) (hurls : urls.Nodup) (current : Url) :
    selectNode current ((observeNodes latencyThreshold urls current).answeredBy health)
        latencyThreshold =
      selectNode current (urls.map fun url => (health url).at url) latencyThreshold := by
  by_cases hmem : current ∈ urls
  · obtain ⟨front, back, rfl, hfront, hback⟩ := exists_split_of_mem hurls hmem
    have hfront' := url_ne_of_mem_map health hfront
    have hback' := url_ne_of_mem_map health hback
    rw [answeredBy_observeNodes latencyThreshold health hfront, List.map_append, List.map_cons,
      selectNode_around latencyThreshold health hfront' hback']
    have hsome : ∀ l : List (NodeStatusObservation Url),
        l.any (NodeStatusObservation.isUsable latencyThreshold) = true → ∀ l',
        (l ++ l').find? (NodeStatusObservation.isUsable latencyThreshold) =
          l.find? (NodeStatusObservation.isUsable latencyThreshold) := by
      intro l hl l'
      obtain ⟨o, ho, husable⟩ := List.any_eq_true.mp hl
      have hfound := List.find?_isSome.mpr ⟨o, ho, husable⟩
      obtain ⟨x, hx⟩ := Option.isSome_iff_exists.mp hfound
      rw [List.find?_append, hx]
      rfl
    split_ifs with hlook husable husable
    · rw [selectNode_around latencyThreshold health (fun o ho => hfront' o (mem_of_mem_probed ho))
        (List.forall_mem_nil _), if_pos husable, find?_probed]
    · have hany := hlook.resolve_left husable
      rw [selectNode_around latencyThreshold health (fun o ho => hfront' o (mem_of_mem_probed ho))
        (List.forall_mem_nil _), if_neg husable, List.append_nil, find?_probed, hsome _ hany]
    · exact absurd (.inl husable) hlook
    · rw [selectNode_around latencyThreshold health hfront'
        (fun o ho => hback' o (mem_of_mem_probed ho)), if_neg husable, List.find?_append,
        List.find?_append, find?_probed]
  · rw [answeredBy_observeNodes_of_notMem latencyThreshold health hmem,
      selectNode_eq_none_of_notMem latencyThreshold (url_ne_of_mem_map health hmem)]
    have hnil := @selectNode_around Url _ latencyThreshold health current [] []
      (List.forall_mem_nil _) (List.forall_mem_nil _)
    rw [List.nil_append, List.nil_append, ite_self] at hnil
    exact hnil

/-- The node a chain should use instead: the first usable one of those configured before the node in
use, or of all if that one is not usable itself. -/
def expectedNode (usable : Url → Bool) (urls : List Url) (current : Url) : Option Url :=
  if current ∈ urls then
    if usable current then (urls.takeWhile (· ≠ current)).find? usable else urls.find? usable
  else none

/-- The choice from all configured nodes is the expected one. -/
lemma selectNode_map (urls : List Url) (hurls : urls.Nodup) (current : Url) :
    (selectNode current (urls.map fun url => (health url).at url) latencyThreshold).map
        (fun switch => switch.observation.url) =
      expectedNode (fun url => ((health url).at url).isUsable latencyThreshold) urls current := by
  by_cases hmem : current ∈ urls
  · obtain ⟨front, back, rfl, hfront, hback⟩ := exists_split_of_mem hurls hmem
    rw [List.map_append, List.map_cons, selectNode_around latencyThreshold health
      (url_ne_of_mem_map health hfront) (url_ne_of_mem_map health hback), expectedNode,
      if_pos hmem, Option.map_map]
    have htake : (front ++ current :: back).takeWhile (· ≠ current) = front := by
      rw [List.takeWhile_append_of_pos fun url hurl => ?_]
      · simp
      · simpa using fun h : url = current => hfront (h ▸ hurl)
    have hfind : ∀ l : List Url, ((l.map fun url => (health url).at url).find?
        (NodeStatusObservation.isUsable latencyThreshold)).map NodeStatusObservation.url =
        l.find? fun url => ((health url).at url).isUsable latencyThreshold := by
      intro l
      induction l with
      | nil => rfl
      | cons url l ih =>
        rw [List.map_cons, List.find?_cons, List.find?_cons]
        cases ((health url).at url).isUsable latencyThreshold with
        | true => rfl
        | false => exact ih
    split_ifs with husable
    · rw [htake]
      exact hfind front
    · have hskip : (front ++ current :: back).find?
          (fun url => ((health url).at url).isUsable latencyThreshold) =
          (front ++ back).find? fun url => ((health url).at url).isUsable latencyThreshold := by
        simp [List.find?_append, husable]
      rw [hskip, ← List.map_append]
      exact hfind (front ++ back)
  · rw [selectNode_eq_none_of_notMem latencyThreshold (url_ne_of_mem_map health hmem),
      expectedNode, if_neg hmem]
    rfl

end Observing

end GemCore.Dynode
