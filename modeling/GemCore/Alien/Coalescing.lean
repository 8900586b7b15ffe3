import GemCore.Lib.AssocMap
import GemCore.Lib.Interleave

/-!
# One request for many callers

`gemstone/src/alien/coalescing_provider.rs`: of the callers that make the same request at the same
time, the first one, the leader, passes it on to the inner provider, and the others wait for its
result. A map has an entry for each request that is under way, with the waiters. The leader takes
the entry out when its result is there and hands the result on; if it is dropped before, a guard
does so with an error.

The map is locked when a caller registers, when a leader has its result and when it is dropped,
and between these, and between one waiter and the next, other callers run. Each of them is one
event here. Beside the waiters an entry records who its leader is.

## Main definitions

* `RequestKey` — what makes two requests the same: method, url and body.
* `Stage` — where a caller stands.
* `step` — one event: a caller registers, its request is completed, it hands on its result, it
  receives one, or it is dropped.
* `Coalesced` — what holds between two events.

## Main results

* `coalesced_of_run` — under every interleaving the map has an entry for a request exactly if one
  leader of it is under way, every answer is the inner provider's to the same request or says that
  the leader was dropped, a caller that has its result keeps it, and no waiter is left by a leader
  that has finished.
-/

namespace GemCore.Alien

open Lib

/-- `HttpMethod`. -/
inductive HttpMethod where
  | get | post | put | delete | head | options | patch
  deriving DecidableEq

/-- `String::from` of a method. -/
def HttpMethod.text : HttpMethod → String
  | get => "GET"
  | post => "POST"
  | put => "PUT"
  | delete => "DELETE"
  | head => "HEAD"
  | options => "OPTIONS"
  | patch => "PATCH"

/-- `AlienTarget`. -/
structure AlienTarget where
  url : String
  method : HttpMethod
  headers : Option (List (String × String))
  body : Option (List UInt8)
  deriving DecidableEq

/-- `AlienError`. -/
inductive AlienError where
  | requestError (msg : String)
  | responseError (msg : String)
  | http (status len : ℕ)
  | offline

/-- `RequestKey`. -/
structure RequestKey where
  method : String
  url : String
  body : Option (List UInt8)
  deriving DecidableEq

/-- `RequestKey::new`. -/
def RequestKey.new (target : AlienTarget) : RequestKey :=
  { method := target.method.text, url := target.url, body := target.body }

lemma HttpMethod.text_injective {a b : HttpMethod} (h : a.text = b.text) : a = b := by
  cases a <;> cases b <;> first | rfl | exact absurd h (by decide)

/-- Equal keys are equal methods, urls and bodies. -/
lemma RequestKey.new_eq_iff {a b : AlienTarget} :
    RequestKey.new a = RequestKey.new b ↔
      a.method = b.method ∧ a.url = b.url ∧ a.body = b.body := by
  simp only [RequestKey.new, RequestKey.mk.injEq]
  constructor
  · rintro ⟨hmethod, hurl, hbody⟩
    exact ⟨HttpMethod.text_injective hmethod, hurl, hbody⟩
  · rintro ⟨hmethod, hurl, hbody⟩
    exact ⟨by rw [hmethod], hurl, hbody⟩

/-- What a leader's guard sends when it is dropped. -/
def canceled : AlienError := .requestError "Coalesced request was canceled"

variable {R : Type}

/-- Where a caller stands, with results of type `R`. -/
inductive Stage (R : Type) where
  /-- It awaits the inner provider. -/
  | leading
  /-- It has its result, and these waiters are still to be told. -/
  | delivering (result : Except AlienError R) (waiters : List ℕ)
  /-- It awaits what `leader` will send. -/
  | waiting (leader : ℕ)
  /-- It has been sent a result, and has not been woken yet. -/
  | ready (leader : ℕ) (result : Except AlienError R)
  /-- It has returned: its own result, or the one `leader` has sent. -/
  | finished (leader : Option ℕ) (result : Except AlienError R)
  /-- It was dropped. -/
  | dropped

/-- A caller: what it asks for and where it stands. -/
structure Caller (R : Type) where
  target : AlienTarget
  stage : Stage R

/-- The entry of a request that is under way: its waiters, and who leads it. -/
structure Entry where
  leader : ℕ
  waiters : List ℕ

/-- The map and the callers. -/
structure Config (R : Type) where
  requests : AssocMap RequestKey Entry
  callers : ℕ → Option (Caller R)

/-- What may happen. -/
inductive Event (R : Type) where
  /-- `request` is called, as caller `n`. -/
  | request (n : ℕ) (target : AlienTarget)
  /-- The inner provider has answered leader `n`. -/
  | complete (n : ℕ) (result : Except AlienError R)
  /-- Leader `n` tells its next waiter, or returns if there is none. -/
  | deliver (n : ℕ)
  /-- Waiter `n` is woken. -/
  | receive (n : ℕ)
  /-- Caller `n` is dropped while it awaits. -/
  | drop (n : ℕ)

/-- The callers with one of them at another stage. -/
def Config.set (c : Config R) (n : ℕ) (caller : Caller R) : Config R :=
  { c with callers := Function.update c.callers n (some caller) }

/-- A result is sent to a caller; one that does not wait any more does not take it. -/
def Caller.answer (leader : ℕ) (result : Except AlienError R) (caller : Caller R) : Caller R :=
  match caller.stage with
  | .waiting _ => { caller with stage := .ready leader result }
  | _ => caller

/-- A result is sent to each of the waiters. -/
def Config.answer (c : Config R) (leader : ℕ) (result : Except AlienError R)
    (waiters : List ℕ) : Config R :=
  { c with callers := fun n =>
      if n ∈ waiters then (c.callers n).map (Caller.answer leader result) else c.callers n }

/-- The waiters of a request, whose entry is taken out of the map. -/
def Config.waitersOf (c : Config R) (key : RequestKey) : List ℕ :=
  ((c.requests.lookup key).map (·.waiters)).getD []

/-- A caller registers: it waits if there is an entry, and leads otherwise. -/
def Config.register (c : Config R) (n : ℕ) (target : AlienTarget) : Config R :=
  match c.requests.lookup (.new target) with
  | some entry =>
    ({ c with requests :=
        c.requests.insert (.new target) ⟨entry.leader, entry.waiters ++ [n]⟩ } :
      Config R).set n ⟨target, .waiting entry.leader⟩
  | none =>
    ({ c with requests := c.requests.insert (.new target) ⟨n, []⟩ } : Config R).set n
      ⟨target, .leading⟩

/-- One event of a caller that has registered. -/
def Caller.step (c : Config R) (n : ℕ) (caller : Caller R) : Event R → Option (Config R)
  | .request _ _ => none
  | .complete _ result =>
    match caller.stage with
    | .leading => some (({ c with requests := c.requests.erase (.new caller.target) } :
        Config R).set n
          { caller with stage := .delivering result (c.waitersOf (.new caller.target)) })
    | _ => none
  | .deliver _ =>
    match caller.stage with
    | .delivering result (waiter :: waiters) => some
      ((c.answer n result [waiter]).set n { caller with stage := .delivering result waiters })
    | .delivering result [] => some (c.set n { caller with stage := .finished none result })
    | _ => none
  | .receive _ =>
    match caller.stage with
    | .ready leader result => some
      (c.set n { caller with stage := .finished (some leader) result })
    | _ => none
  | .drop _ =>
    match caller.stage with
    | .leading => some
      ((({ c with requests := c.requests.erase (.new caller.target) } : Config R).answer n
        (.error canceled) (c.waitersOf (.new caller.target))).set n
          { caller with stage := .dropped })
    | .waiting _ | .ready _ _ => some (c.set n { caller with stage := .dropped })
    | _ => none

/-- The caller an event belongs to. -/
def Event.caller : Event R → ℕ
  | .request n _ | .complete n _ | .deliver n | .receive n | .drop n => n

/-- One event. -/
def step (c : Config R) (e : Event R) : Option (Config R) :=
  match c.callers e.caller with
  | none =>
    match e with
    | .request n target => some (c.register n target)
    | _ => none
  | some caller => caller.step c e.caller e

/-- No caller yet. -/
def Config.initial : Config R := ⟨∅, fun _ => none⟩

/-! ## What holds between two events -/

/-- A leader of a request awaits the inner provider. -/
def Config.Leads (c : Config R) (n : ℕ) (key : RequestKey) : Prop :=
  ∃ target, c.callers n = some ⟨target, .leading⟩ ∧ RequestKey.new target = key

/-- The inner provider has answered a leader's target with a result. -/
def Config.HasResult (c : Config R) (n : ℕ) (target : AlienTarget)
    (result : Except AlienError R) : Prop :=
  (∃ waiters, c.callers n = some ⟨target, .delivering result waiters⟩) ∨
    c.callers n = some ⟨target, .finished none result⟩

/-- A caller has been given a result by a leader. -/
def Config.Given (c : Config R) (n : ℕ) (target : AlienTarget) (leader : ℕ)
    (result : Except AlienError R) : Prop :=
  c.callers n = some ⟨target, .ready leader result⟩ ∨
    c.callers n = some ⟨target, .finished (some leader) result⟩

/-- The map has an entry for a request exactly if one leader of it is under way, and no request has
two; what a caller is given is the inner provider's answer to the same method, url and body, or
the error of a leader that was dropped; a caller that waits does so for a leader that is under
way or has it on its list. -/
structure Coalesced (c : Config R) : Prop where
  present : ∀ key, key ∈ c.requests ↔ ∃! n, c.Leads n key
  single : ∀ n m key, c.Leads n key → c.Leads m key → n = m
  given : ∀ n target leader result, c.Given n target leader result →
    (∃ target', c.HasResult leader target' result ∧ target'.method = target.method ∧
      target'.url = target.url ∧ target'.body = target.body) ∨
    (result = .error canceled ∧ ∃ target', c.callers leader = some ⟨target', .dropped⟩)
  awaited : ∀ n target leader, c.callers n = some ⟨target, .waiting leader⟩ →
    c.Leads leader (.new target) ∨ ∃ target' result waiters,
      c.callers leader = some ⟨target', .delivering result waiters⟩ ∧ n ∈ waiters

/-! ## The invariant -/

@[grind =] lemma Config.callers_set (c : Config R) (n m : ℕ) (caller : Caller R) :
    (c.set n caller).callers m = if m = n then some caller else c.callers m := by
  simp [Config.set, Function.update_apply]

@[grind =] lemma Config.requests_set (c : Config R) (n : ℕ) (caller : Caller R) :
    (c.set n caller).requests = c.requests := rfl

/-- The waiters on a leader's list: each is there once, and is dropped or waits for this leader. -/
def Config.Queue (c : Config R) (leader : ℕ) (key : RequestKey) (waiters : List ℕ) : Prop :=
  waiters.Nodup ∧ ∀ w ∈ waiters, ∃ target, RequestKey.new target = key ∧
    (c.callers w = some ⟨target, .waiting leader⟩ ∨ c.callers w = some ⟨target, .dropped⟩)

/-- A list is not touched by what happens to callers that are not on it. -/
lemma Config.Queue.of_callers {c c' : Config R} {leader : ℕ} {key : RequestKey}
    {waiters : List ℕ} (h : c.Queue leader key waiters)
    (hcallers : ∀ w ∈ waiters, c'.callers w = c.callers w) : c'.Queue leader key waiters := by
  refine ⟨h.1, fun w hw => ?_⟩
  rw [hcallers w hw]
  exact h.2 w hw

/-- A caller on a list waits or is dropped. -/
lemma Config.Queue.ne_of_mem {c : Config R} {leader n w : ℕ} {key : RequestKey}
    {waiters : List ℕ} {target : AlienTarget} {stage : Stage R} (h : c.Queue leader key waiters)
    (hw : w ∈ waiters) (hn : c.callers n = some ⟨target, stage⟩)
    (hwaiting : ∀ leader, stage ≠ .waiting leader) (hdropped : stage ≠ .dropped) : w ≠ n := by
  rintro rfl
  obtain ⟨target', -, hwait | hdrop⟩ := h.2 w hw
  · rw [hn] at hwait
    cases hwait
    exact hwaiting _ rfl
  · rw [hn] at hdrop
    cases hdrop
    exact hdropped rfl

/-- A caller that waits for one leader is on no other's list. -/
lemma Config.Queue.leader_eq {c : Config R} {leader leader' w : ℕ} {key : RequestKey}
    {waiters : List ℕ} {target : AlienTarget} (h : c.Queue leader key waiters) (hw : w ∈ waiters)
    (hwait : c.callers w = some ⟨target, .waiting leader'⟩) : leader' = leader := by
  obtain ⟨target', -, hwait' | hdrop⟩ := h.2 w hw
  · rw [hwait] at hwait'
    cases hwait'
    rfl
  · rw [hwait] at hdrop
    cases hdrop

/-- An entry is that of a leader under way, and a leader under way has its entry; who waits is on
the list of the entry or of the leader that has its result, and the lists have only such; what
was given comes from the leader it is said to come from. -/
structure Config.Inv (c : Config R) : Prop where
  entry : ∀ key entry, c.requests.lookup key = some entry → c.Leads entry.leader key ∧
    c.Queue entry.leader key entry.waiters
  leading : ∀ n target, c.callers n = some ⟨target, .leading⟩ →
    ∃ waiters, c.requests.lookup (.new target) = some ⟨n, waiters⟩
  awaited : ∀ n target leader, c.callers n = some ⟨target, .waiting leader⟩ →
    (∃ waiters, c.requests.lookup (.new target) = some ⟨leader, waiters⟩ ∧ n ∈ waiters) ∨
    ∃ target' result waiters,
      c.callers leader = some ⟨target', .delivering result waiters⟩ ∧ n ∈ waiters
  delivering : ∀ n target result waiters,
    c.callers n = some ⟨target, .delivering result waiters⟩ → c.Queue n (.new target) waiters
  given : ∀ n target leader result, c.Given n target leader result →
    (∃ target', c.HasResult leader target' result ∧ RequestKey.new target' = .new target) ∨
    (result = .error canceled ∧ ∃ target', c.callers leader = some ⟨target', .dropped⟩)

namespace Config.Inv

variable {c : Config R} {n : ℕ} {target : AlienTarget}

lemma initial : (Config.initial : Config R).Inv := by
  constructor
  · intro key entry h
    cases h
  all_goals simp [Config.initial, Config.Given]

/-- A waiter that has its result is woken. -/
lemma receive (h : c.Inv) {leader : ℕ} {result : Except AlienError R}
    (hn : c.callers n = some ⟨target, .ready leader result⟩) :
    (c.set n ⟨target, .finished (some leader) result⟩).Inv := by
  obtain ⟨hentry, hleading, hawaited, hdelivering, hgiven⟩ := h
  simp only [Config.Given, Config.HasResult] at hgiven
  constructor
  · grind [Config.Queue, Config.Leads]
  · grind
  · grind
  · grind [Config.Queue]
  · simp only [Config.Given, Config.HasResult]
    grind

/-- A caller that waits or has its result is dropped. -/
lemma drop_waiting (h : c.Inv) {stage : Stage R} (hn : c.callers n = some ⟨target, stage⟩)
    (hstage : (∃ leader, stage = .waiting leader) ∨
      ∃ leader result, stage = .ready leader result) :
    (c.set n ⟨target, .dropped⟩).Inv := by
  obtain ⟨hentry, hleading, hawaited, hdelivering, hgiven⟩ := h
  simp only [Config.Given, Config.HasResult] at hgiven
  constructor
  · grind [Config.Queue, Config.Leads]
  · grind
  · grind
  · grind [Config.Queue]
  · simp only [Config.Given, Config.HasResult]
    grind

/-- A leader that has told all its waiters returns. -/
lemma return_result (h : c.Inv) {result : Except AlienError R}
    (hn : c.callers n = some ⟨target, .delivering result []⟩) :
    (c.set n ⟨target, .finished none result⟩).Inv := by
  obtain ⟨hentry, hleading, hawaited, hdelivering, hgiven⟩ := h
  simp only [Config.Given, Config.HasResult] at hgiven
  constructor
  · grind [Config.Queue, Config.Leads]
  · grind
  · grind
  · grind [Config.Queue]
  · simp only [Config.Given, Config.HasResult]
    grind

/-- A caller registers as a leader. -/
lemma register_leading (h : c.Inv) (hn : c.callers n = none)
    (hnone : c.requests.lookup (.new target) = none) :
    (({ c with requests := c.requests.insert (.new target) ⟨n, []⟩ } : Config R).set n
      ⟨target, .leading⟩).Inv := by
  obtain ⟨hentry, hleading, hawaited, hdelivering, hgiven⟩ := h
  simp only [Config.Given, Config.HasResult] at hgiven
  have hcallers : ({ c with requests := c.requests.insert (.new target) ⟨n, []⟩ } :
    Config R).callers = c.callers := rfl
  constructor
  · grind [Config.Queue, Config.Leads, AssocMap.lookup_insert_eq]
  · grind [AssocMap.lookup_insert_eq]
  · grind [AssocMap.lookup_insert_eq]
  · grind [Config.Queue]
  · simp only [Config.Given, Config.HasResult]
    grind

/-- A caller registers as a waiter. -/
lemma register_waiting (h : c.Inv) (hn : c.callers n = none) {entry : Entry}
    (hsome : c.requests.lookup (.new target) = some entry) :
    (({ c with requests := c.requests.insert (.new target) ⟨entry.leader,
        entry.waiters ++ [n]⟩ } : Config R).set n ⟨target, .waiting entry.leader⟩).Inv := by
  obtain ⟨hentry, hleading, hawaited, hdelivering, hgiven⟩ := h
  simp only [Config.Given, Config.HasResult] at hgiven
  constructor
  · grind [Config.Queue, Config.Leads, AssocMap.lookup_insert_eq]
  · grind [AssocMap.lookup_insert_eq]
  · grind [AssocMap.lookup_insert_eq]
  · grind [Config.Queue]
  · simp only [Config.Given, Config.HasResult]
    grind

/-- The entry of another request than the one whose entry is taken out. -/
lemma entry_erase (h : c.Inv) (hn : c.callers n = some ⟨target, .leading⟩) {key : RequestKey}
    {entry : Entry} (hlookup : (c.requests.erase (.new target)).lookup key = some entry) :
    key ≠ .new target ∧ entry.leader ≠ n ∧ c.Leads entry.leader key ∧
      c.Queue entry.leader key entry.waiters := by
  rw [AssocMap.lookup_erase_eq] at hlookup
  split at hlookup
  · cases hlookup
  · rename_i hkey
    obtain ⟨hleads, hqueue⟩ := h.entry key entry hlookup
    refine ⟨hkey, ?_, hleads, hqueue⟩
    rintro rfl
    obtain ⟨target', htarget', rfl⟩ := hleads
    rw [hn] at htarget'
    cases htarget'
    exact hkey rfl

/-- A leader has its result. -/
lemma complete (h : c.Inv) (hn : c.callers n = some ⟨target, .leading⟩)
    (result : Except AlienError R) :
    (({ c with requests := c.requests.erase (.new target) } : Config R).set n
      ⟨target, .delivering result (c.waitersOf (.new target))⟩).Inv := by
  obtain ⟨waiters, hlookup⟩ := h.leading n target hn
  have hwaiters : c.waitersOf (.new target) = waiters := by simp [Config.waitersOf, hlookup]
  have hqueue := (h.entry _ _ hlookup).2
  have hgiven := h.given
  simp only [Config.Given, Config.HasResult] at hgiven
  rw [hwaiters]
  -- no list has the leader on it
  have frame : ∀ {leader : ℕ} {key : RequestKey} {list : List ℕ}, c.Queue leader key list →
      (({ c with requests := c.requests.erase (.new target) } : Config R).set n
        ⟨target, .delivering result waiters⟩).Queue leader key list := by
    intro leader key list hq
    refine hq.of_callers fun w hw => ?_
    simp [Config.callers_set, hq.ne_of_mem hw hn]
  constructor
  · intro key entry herase
    obtain ⟨-, hne, hleads, hq⟩ := h.entry_erase hn herase
    exact ⟨by grind [Config.Leads], frame hq⟩
  · grind [AssocMap.lookup_erase_eq, h.leading]
  · grind [AssocMap.lookup_erase_eq, h.awaited]
  · intro m target' result' waiters' hm
    rw [Config.callers_set] at hm
    split at hm
    · subst m
      cases hm
      exact frame hqueue
    · exact frame (h.delivering m target' result' waiters' hm)
  · simp only [Config.Given, Config.HasResult]
    grind

/-- A leader passes over a waiter that was dropped. -/
lemma deliver_dropped (h : c.Inv) {result : Except AlienError R} {waiter : ℕ}
    {waiters : List ℕ} (hn : c.callers n = some ⟨target, .delivering result (waiter :: waiters)⟩)
    (hw : ∃ target', c.callers waiter = some ⟨target', .dropped⟩) :
    (c.set n ⟨target, .delivering result waiters⟩).Inv := by
  have hqueue := h.delivering n target result _ hn
  have hgiven := h.given
  simp only [Config.Given, Config.HasResult] at hgiven
  -- the leader is on no list of waiters
  have frame : ∀ {leader : ℕ} {key : RequestKey} {list : List ℕ}, c.Queue leader key list →
      (c.set n ⟨target, .delivering result waiters⟩).Queue leader key list := by
    intro leader key list hq
    refine hq.of_callers fun w hmem => ?_
    simp [Config.callers_set, hq.ne_of_mem hmem hn]
  constructor
  · intro key entry hlookup
    obtain ⟨hleads, hq⟩ := h.entry key entry hlookup
    exact ⟨by grind [Config.Leads], frame hq⟩
  · grind [h.leading]
  · grind [h.awaited]
  · intro m target₁ result₁ waiters₁ hm
    by_cases hmn : m = n
    · subst m
      simp only [Config.callers_set, if_true, Option.some.injEq, Caller.mk.injEq,
        Stage.delivering.injEq] at hm
      obtain ⟨rfl, rfl, rfl⟩ := hm
      exact frame ⟨hqueue.1.tail, fun w hmem => hqueue.2 w (List.mem_cons_of_mem _ hmem)⟩
    · have hold : c.callers m = some ⟨target₁, .delivering result₁ waiters₁⟩ := by grind
      exact frame (h.delivering m target₁ result₁ waiters₁ hold)
  · simp only [Config.Given, Config.HasResult]
    grind

/-- A leader tells a waiter its result. -/
lemma deliver_waiting (h : c.Inv) {result : Except AlienError R} {waiter : ℕ}
    {waiters : List ℕ} {target' : AlienTarget}
    (hn : c.callers n = some ⟨target, .delivering result (waiter :: waiters)⟩)
    (hw : c.callers waiter = some ⟨target', .waiting n⟩)
    (hkey : RequestKey.new target' = .new target) :
    ((c.set waiter ⟨target', .ready n result⟩).set n ⟨target, .delivering result waiters⟩).Inv := by
  have hqueue := h.delivering n target result _ hn
  have hgiven := h.given
  simp only [Config.Given, Config.HasResult] at hgiven
  -- no list of another leader has the waiter or the leader on it
  have frame : ∀ {leader : ℕ} {key : RequestKey} {list : List ℕ}, c.Queue leader key list →
      waiter ∉ list → ((c.set waiter ⟨target', .ready n result⟩).set n
        ⟨target, .delivering result waiters⟩).Queue leader key list := by
    intro leader key list hq hnot
    refine hq.of_callers fun w hmem => ?_
    have hne : w ≠ waiter := fun heq => hnot (heq ▸ hmem)
    simp [Config.callers_set, hq.ne_of_mem hmem hn, hne]
  constructor
  · intro key entry hlookup
    obtain ⟨hleads, hq⟩ := h.entry key entry hlookup
    refine ⟨by grind [Config.Leads], frame hq fun hmem => ?_⟩
    obtain ⟨target₁, hleader, -⟩ := hleads
    rw [← hq.leader_eq hmem hw, hn] at hleader
    cases hleader
  · grind [h.leading]
  · grind [h.awaited]
  · intro m target₁ result₁ waiters₁ hm
    by_cases hmn : m = n
    · subst m
      simp only [Config.callers_set, if_true, Option.some.injEq, Caller.mk.injEq,
        Stage.delivering.injEq] at hm
      obtain ⟨rfl, rfl, rfl⟩ := hm
      have htail : c.Queue n (.new target) waiters :=
        ⟨hqueue.1.tail, fun w hmem => hqueue.2 w (List.mem_cons_of_mem _ hmem)⟩
      exact frame htail (List.nodup_cons.mp hqueue.1).1
    · have hold : c.callers m = some ⟨target₁, .delivering result₁ waiters₁⟩ := by grind
      have hq := h.delivering m target₁ result₁ waiters₁ hold
      exact frame hq fun hmem => hmn (hq.leader_eq hmem hw).symm
  · simp only [Config.Given, Config.HasResult]
    grind

/-- Sending an error to the waiters of a list leaves every caller as it is, or makes one that waits
ready. -/
theorem callers_answer (requests : AssocMap RequestKey Entry) {waiters : List ℕ}
    (hqueue : c.Queue n (.new target) waiters) (result : Except AlienError R) (m : ℕ) :
    (({ c with requests } : Config R).answer n result waiters).callers m = c.callers m ∧
        (m ∈ waiters → ∃ target', c.callers m = some ⟨target', .dropped⟩) ∨
      ∃ target', RequestKey.new target' = .new target ∧ m ∈ waiters ∧
        c.callers m = some ⟨target', .waiting n⟩ ∧
        (({ c with requests } : Config R).answer n result waiters).callers m =
          some ⟨target', .ready n result⟩ := by
  by_cases hm : m ∈ waiters
  · obtain ⟨target', hkey, hwait | hdrop⟩ := hqueue.2 m hm
    · exact .inr ⟨target', hkey, hm, hwait, by simp [Config.answer, hm, hwait, Caller.answer]⟩
    · exact .inl ⟨by simp [Config.answer, hm, hdrop, Caller.answer], fun _ => ⟨target', hdrop⟩⟩
  · exact .inl ⟨by simp [Config.answer, hm], fun h => absurd h hm⟩

/-- A leader is dropped: its waiters are told so. -/
lemma drop_leading (h : c.Inv) (hn : c.callers n = some ⟨target, .leading⟩) :
    ((({ c with requests := c.requests.erase (.new target) } : Config R).answer n
      (.error canceled) (c.waitersOf (.new target))).set n ⟨target, .dropped⟩).Inv := by
  obtain ⟨waiters, hlookup⟩ := h.leading n target hn
  have hwaiters : c.waitersOf (.new target) = waiters := by simp [Config.waitersOf, hlookup]
  have hqueue : c.Queue n (.new target) waiters := (h.entry _ _ hlookup).2
  have hgiven := h.given
  simp only [Config.Given, Config.HasResult] at hgiven
  have htold := callers_answer (c.requests.erase (.new target)) hqueue (.error canceled)
  rw [hwaiters]
  have hrequests : (({ c with requests := c.requests.erase (.new target) } : Config R).answer n
    (.error canceled) waiters).requests = c.requests.erase (.new target) := rfl
  generalize ({ c with requests := c.requests.erase (.new target) } : Config R).answer n
    (.error canceled) waiters = c₁ at htold hrequests ⊢
  -- a list of another leader has only callers on it that stay as they are
  have frame : ∀ {leader : ℕ} {key : RequestKey} {list : List ℕ}, c.Queue leader key list →
      leader ≠ n → (c₁.set n ⟨target, .dropped⟩).Queue leader key list := by
    intro leader key list hq hne
    refine hq.of_callers fun w hmem => ?_
    have hwn : w ≠ n := hq.ne_of_mem hmem hn (by simp) (by simp)
    rw [Config.callers_set, if_neg hwn]
    obtain ⟨hsame, -⟩ | ⟨target', -, -, hwait, -⟩ := htold w
    · exact hsame
    · exact absurd (hq.leader_eq hmem hwait).symm hne
  constructor
  · intro key entry herase
    rw [Config.requests_set, hrequests] at herase
    obtain ⟨-, hne, ⟨target', hleader, hkey⟩, hq⟩ := h.entry_erase hn herase
    refine ⟨⟨target', ?_, hkey⟩, frame hq hne⟩
    rw [Config.callers_set, if_neg hne]
    grind
  · grind [AssocMap.lookup_erase_eq, h.leading]
  · intro m target' leader hm
    rw [Config.requests_set, hrequests]
    grind [AssocMap.lookup_erase_eq, h.awaited]
  · intro m target' result' waiters' hm
    have hold : c.callers m = some ⟨target', .delivering result' waiters'⟩ := by grind
    have hne : m ≠ n := by
      rintro rfl
      rw [hn] at hold
      cases hold
    exact frame (h.delivering m target' result' waiters' hold) hne
  · simp only [Config.Given, Config.HasResult]
    grind

/-- A dropped caller does not take a result. -/
lemma answer_dropped {waiter : ℕ} {target' : AlienTarget} (result : Except AlienError R)
    (hw : c.callers waiter = some ⟨target', .dropped⟩) : c.answer n result [waiter] = c := by
  obtain ⟨requests, callers⟩ := c
  simp only [Config.answer, List.mem_singleton, Config.mk.injEq, true_and]
  funext m
  by_cases hm : m = waiter
  · subst m
    simp only at hw
    simp [hw, Caller.answer]
  · simp [hm]

/-- A caller that waits takes the result. -/
lemma answer_waiting {waiter leader : ℕ} {target' : AlienTarget}
    (result : Except AlienError R) (hw : c.callers waiter = some ⟨target', .waiting leader⟩) :
    c.answer n result [waiter] = c.set waiter ⟨target', .ready n result⟩ := by
  simp only [Config.answer, List.mem_singleton, Config.set, Config.mk.injEq, true_and]
  funext m
  by_cases hm : m = waiter
  · subst m
    simp [hw, Caller.answer]
  · simp [hm]

/-- A leader tells its next waiter, if that still waits. -/
lemma deliver (h : c.Inv) {result : Except AlienError R} {waiter : ℕ} {waiters : List ℕ}
    (hn : c.callers n = some ⟨target, .delivering result (waiter :: waiters)⟩) :
    ((c.answer n result [waiter]).set n ⟨target, .delivering result waiters⟩).Inv := by
  obtain ⟨target', hkey, hwait | hdrop⟩ :=
    (h.delivering n target result _ hn).2 waiter List.mem_cons_self
  · rw [answer_waiting result hwait]
    exact h.deliver_waiting hn hwait hkey
  · rw [answer_dropped result hdrop]
    exact h.deliver_dropped hn ⟨target', hdrop⟩

/-- Every event keeps the invariant. -/
lemma step {c' : Config R} {e : Event R} (h : c.Inv) (hstep : step c e = some c') : c'.Inv := by
  unfold Alien.step at hstep
  split at hstep
  case h_1 hnone =>
    split at hstep
    case h_1 n target =>
      cases hstep
      rw [Config.register]
      split
      case h_1 entry hsome => exact h.register_waiting hnone hsome
      case h_2 hlookup => exact h.register_leading hnone hlookup
    case h_2 => cases hstep
  case h_2 caller hn =>
    obtain ⟨target, stage⟩ := caller
    cases e with
    | request n target => cases hstep
    | complete n result =>
      simp only [Caller.step] at hstep
      split at hstep
      · cases hstep
        exact h.complete hn result
      · cases hstep
    | deliver n =>
      simp only [Caller.step] at hstep
      split at hstep
      · cases hstep
        exact h.deliver hn
      · cases hstep
        exact h.return_result hn
      · cases hstep
    | receive n =>
      simp only [Caller.step] at hstep
      split at hstep
      · cases hstep
        exact h.receive hn
      · cases hstep
    | drop n =>
      simp only [Caller.step] at hstep
      split at hstep
      · cases hstep
        exact h.drop_leading hn
      · cases hstep
        exact h.drop_waiting hn (.inl ⟨_, rfl⟩)
      · cases hstep
        exact h.drop_waiting hn (.inr ⟨_, _, rfl⟩)
      · cases hstep

/-- What the invariant says of the callers. -/
lemma coalesced (h : c.Inv) : Coalesced c := by
  have hsingle : ∀ n m key, c.Leads n key → c.Leads m key → n = m := by
    rintro n m key ⟨target, hn, rfl⟩ ⟨target', hm, hkey⟩
    obtain ⟨waiters, hlookup⟩ := h.leading n target hn
    obtain ⟨waiters', hlookup'⟩ := h.leading m target' hm
    rw [hkey, hlookup] at hlookup'
    cases hlookup'
    rfl
  refine ⟨fun key => ⟨fun hmem => ?_, ?_⟩, hsingle, ?_, ?_⟩
  · obtain ⟨entry, hentry⟩ := Option.isSome_iff_exists.mp (AList.lookup_isSome.mpr hmem)
    have hleads := (h.entry key entry hentry).1
    exact ⟨entry.leader, hleads, fun m hm => hsingle m entry.leader key hm hleads⟩
  · rintro ⟨n, ⟨target, hn, rfl⟩, -⟩
    obtain ⟨waiters, hlookup⟩ := h.leading n target hn
    exact AList.lookup_isSome.mp (by rw [hlookup]; rfl)
  · intro n target leader result hgiven
    obtain ⟨target', hresult, hkey⟩ | hdropped := h.given n target leader result hgiven
    · exact .inl ⟨target', hresult, RequestKey.new_eq_iff.mp hkey⟩
    · exact .inr hdropped
  · intro n target leader hn
    obtain ⟨waiters, hlookup, -⟩ | hdelivering := h.awaited n target leader hn
    · exact .inl (h.entry _ _ hlookup).1
    · exact .inr hdelivering

end Config.Inv

/-! ## Results stay, and waiters get theirs -/

/-- Every caller that has returned has its result still. -/
def KeepsResults (c c' : Config R) : Prop :=
  ∀ n target leader result, c.callers n = some ⟨target, .finished leader result⟩ →
    c'.callers n = some ⟨target, .finished leader result⟩

/-- Sending results does not touch a caller that has returned. -/
lemma keepsResults_answer (c : Config R) (requests : AssocMap RequestKey Entry) (leader : ℕ)
    (result : Except AlienError R) (waiters : List ℕ) :
    KeepsResults c (({ c with requests } : Config R).answer leader result waiters) := by
  intro n target leader' result' hn
  by_cases hm : n ∈ waiters <;> simp [Config.answer, hm, hn, Caller.answer]

/-- Moving on a caller that has not returned does not touch one that has. -/
lemma KeepsResults.set {c c' : Config R} (h : KeepsResults c c') (n : ℕ) (caller : Caller R)
    (hn : ∀ target leader result,
      c.callers n ≠ some ⟨target, .finished leader result⟩) :
    KeepsResults c (c'.set n caller) := by
  intro m target leader result hm
  have hmn : m ≠ n := by
    rintro rfl
    exact hn target leader result hm
  rw [Config.callers_set, if_neg hmn]
  exact h m target leader result hm

/-- Every event leaves the results of the callers that have returned. -/
lemma keepsResults_step {c c' : Config R} {e : Event R} (hstep : step c e = some c') :
    KeepsResults c c' := by
  have same : ∀ requests, KeepsResults c ({ c with requests } : Config R) :=
    fun _ _ _ _ _ hn => hn
  unfold Alien.step at hstep
  split at hstep
  case h_1 hnone =>
    split at hstep
    case h_1 n target =>
      cases hstep
      rw [Config.register]
      have hfree : ∀ target leader result,
          c.callers n ≠ some ⟨target, .finished leader result⟩ := by
        intro target leader result hn
        rw [Event.caller, hn] at hnone
        cases hnone
      split <;> exact (same _).set n _ hfree
    case h_2 => cases hstep
  case h_2 caller hn =>
    obtain ⟨target, stage⟩ := caller
    have moved : (∀ leader result, stage ≠ .finished leader result) → ∀ target leader result,
        c.callers e.caller ≠ some ⟨target, .finished leader result⟩ := by
      intro hstage target' leader result hfinished
      rw [hn] at hfinished
      cases hfinished
      exact hstage leader result rfl
    cases e with
    | request n target => cases hstep
    | complete n result =>
      simp only [Caller.step] at hstep
      split at hstep
      · cases hstep
        exact (same _).set n _ (moved (by simp))
      · cases hstep
    | deliver n =>
      simp only [Caller.step] at hstep
      split at hstep
      · cases hstep
        exact (keepsResults_answer c c.requests n _ _).set n _ (moved (by simp))
      · cases hstep
        exact (same _).set n _ (moved (by simp))
      · cases hstep
    | receive n =>
      simp only [Caller.step] at hstep
      split at hstep
      · cases hstep
        exact (same _).set n _ (moved (by simp))
      · cases hstep
    | drop n =>
      simp only [Caller.step] at hstep
      split at hstep
      · cases hstep
        exact (keepsResults_answer c _ n _ _).set n _ (moved (by simp))
      · cases hstep
        exact (same _).set n _ (moved (by simp))
      · cases hstep
        exact (same _).set n _ (moved (by simp))
      · cases hstep

/-- A leader that has its result tells every one of its waiters, and each that still waits gets the
result. -/
theorem delivered {c : Config R} (h : c.Inv) {leader : ℕ} {target : AlienTarget}
    {result : Except AlienError R} {waiters : List ℕ}
    (hleader : c.callers leader = some ⟨target, .delivering result waiters⟩) {n : ℕ}
    {target' : AlienTarget} (hn : c.callers n = some ⟨target', .waiting leader⟩)
    (hmem : n ∈ waiters) :
    ∃ k c', runEvents step c (List.replicate k (.deliver leader)) = some c' ∧
      c'.callers n = some ⟨target', .ready leader result⟩ := by
  induction waiters generalizing c with
  | nil => cases hmem
  | cons waiter waiters ih =>
    have hstep : step c (.deliver leader) = some ((c.answer leader result [waiter]).set leader
        ⟨target, .delivering result waiters⟩) := by
      simp [Alien.step, Event.caller, hleader, Caller.step]
    have hne : n ≠ leader := by
      rintro rfl
      rw [hn] at hleader
      cases hleader
    by_cases hfirst : n = waiter
    · subst hfirst
      refine ⟨1, _, runEvents_cons_eq_some.mpr ⟨_, hstep, rfl⟩, ?_⟩
      simp [Config.callers_set, hne, Config.answer, hn, Caller.answer]
    · obtain ⟨k, c', hrun, hc'⟩ := ih (h.step hstep) (by simp [Config.callers_set])
        (by simpa [Config.callers_set, hne, Config.answer, hfirst] using hn)
        (by simpa [hfirst] using hmem)
      exact ⟨k + 1, c', runEvents_cons_eq_some.mpr ⟨_, hstep, hrun⟩, hc'⟩

/-- Under every interleaving of callers, answers of the inner provider and drops: the map has an
entry for a request exactly if one leader of it is under way, and then there is only that one;
every result a caller is given is the inner provider's for the same method, url and body, or the
error of a leader that was dropped; a caller that has its result keeps it; and a caller that waits
for a leader that has its result gets it by that leader's next steps.

**Proof sketch.** The map and the leaders, and the lists of waiters and those who wait, agree at
every moment (`Config.Inv`), by the cases of one event. -/
theorem coalesced_of_run (es es' : List (Event R)) (c c' : Config R)
    (hrun : runEvents step .initial es = some c) (hrun' : runEvents step c es' = some c') :
    Coalesced c ∧ KeepsResults c c' ∧
      ∀ n target leader target' result waiters,
        c.callers n = some ⟨target, .waiting leader⟩ →
        c.callers leader = some ⟨target', .delivering result waiters⟩ →
        ∃ k c₁, runEvents step c (List.replicate k (.deliver leader)) = some c₁ ∧
          c₁.callers n = some ⟨target, .ready leader result⟩ := by
  have hinv : c.Inv :=
    runEvents_invariant (P := fun _ _ => True) (fun _ _ _ hI _ hs => Config.Inv.step hI hs)
      .initial (.of_forall (fun _ _ => trivial) _ _) hrun
  refine ⟨hinv.coalesced, ?_, ?_⟩
  · refine runEvents_related (fun _ _ _ _ _ h => h) ?_
      (.of_forall (fun _ _ _ hs => keepsResults_step hs) _ _) hrun'
    intro c₁ c₂ c₃ h h' n target leader result hn
    exact h' n target leader result (h n target leader result hn)
  · intro n target leader target' result waiters hn hleader
    refine delivered hinv hleader hn ?_
    obtain ⟨_, hlookup, -⟩ | ⟨_, _, _, hleader', hmem⟩ := hinv.awaited n target leader hn
    · obtain ⟨_, hleads, -⟩ := (hinv.entry _ _ hlookup).1
      rw [hleader] at hleads
      cases hleads
    · rw [hleader] at hleader'
      cases hleader'
      exact hmem

/-- A request with the given headers. -/
def exampleTarget (headers : Option (List (String × String))) : AlienTarget where
  url := "https://example.com/info"
  method := .get
  headers := headers
  body := none

/-- Two callers ask for one url with different headers, and the first one has its answer. -/
def exampleEvents : List (Event ℕ) :=
  [.request 0 (exampleTarget none),
    .request 1 (exampleTarget (some [("authorization", "b")])),
    .complete 0 (.ok 200), .deliver 0]

/-- The callers of the run agree with the map. -/
theorem coalesced_of_run_example : ∃ c : Config ℕ,
    runEvents step .initial exampleEvents = some c ∧ Coalesced c :=
  ⟨_, rfl, (coalesced_of_run exampleEvents [] _ _ rfl rfl).1⟩

/-- The second caller is given the inner provider's answer to the first one's headers. -/
theorem given_to_other_headers_example : ∃ c : Config ℕ,
    runEvents step .initial exampleEvents = some c ∧
    c.Given 1 (exampleTarget (some [("authorization", "b")])) 0 (.ok 200) ∧
    (∀ target, c.HasResult 0 target (.ok 200) →
      target ≠ exampleTarget (some [("authorization", "b")])) ∧
    ¬ ∃ target, c.callers 0 = some ⟨target, .dropped⟩ := by
  refine ⟨_, rfl, .inl rfl, ?_, ?_⟩
  · rintro target (⟨waiters, h⟩ | h)
    · cases h
      decide
    · cases h
  · rintro ⟨target, h⟩
    cases h

end GemCore.Alien
