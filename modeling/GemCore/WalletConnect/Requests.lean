import GemCore.Lib.Interleave
import GemCore.Lib.Lists
import GemCore.WalletConnect.Authorisation

/-!
# WalletConnect requests at the same time

Requests arrive, other messages are noted, the store of the connections changes, and each request
goes on at its awaits, in any order. The list of seen messages holds texts: a request is noted as
`request-<topic>-<id>`, other messages under texts of their own.

The signer is reached only with authority and at most once for each pair while the pair is
remembered. Whether every request that is no repetition gets its reply depends on these texts: it
does in exactly the runs in which no request arrives whose text is remembered from another message.
Two different pairs can have one text.

## Main definitions

* `State`, `step` — requests at the same time.
* `Sound` — what is expected of a state.
* `Told` — the text of a request is not remembered from another message.

## Main results

* `sound_iff_told` — the runs that are sound throughout.
* `told_of_plain` — topics without a hyphen are told apart.
-/

namespace GemCore.WalletConnect

open Lib

/-- What a remembered text stands for. -/
inductive Source where
  | request (topic requestId : String)
  | message (id : String)
  deriving DecidableEq

/-- The text that is remembered. -/
def Source.text : Source → String
  | .request topic requestId => requestMessageId topic requestId
  | .message id => id

/-- A request as it arrived: how many messages had been recorded, and whether it was new. -/
structure Arrival where
  request : SessionRequest
  arrived : ℕ
  fresh : Bool

/-- The message of an arrival. -/
def Arrival.source (a : Arrival) : Source := .request a.request.topic a.request.requestId

section Types

variable (T : Carrier)

/-- A request under way. -/
structure Job where
  arrival : Arrival
  talk : Talk (Call T) (Answer T) (WalletConnectOutcome T)

/-- The store of the connections with everything it has held, the seen messages with everything
that was ever recorded, and the requests. -/
structure State where
  store : String → Option WalletConnection
  held : List (String → Option WalletConnection)
  seen : List String
  recorded : List Source
  jobs : List (Job T)

/-- What the surroundings answer. -/
structure Weather where
  storeError : Option GemServiceError
  simulation : Except GemServiceError T.SimulationResult
  signature : Except GemServiceError String

/-- What can happen. -/
inductive Event where
  /-- `process_request` is called. -/
  | request (request : SessionRequest)
  /-- `should_process_message` is called for another message. -/
  | message (id : String)
  /-- Sessions are added, updated or deleted. -/
  | store (content : String → Option WalletConnection)
  /-- A request hears the answer it waits for. -/
  | advance (job : ℕ) (weather : Weather T)

end Types

variable {T : Carrier}

/-- The answers at a moment. -/
def respond (content : String → Option WalletConnection) (weather : Weather T) :
    (call : Call T) → Answer T call
  | .getConnection sessionId =>
    match weather.storeError with
    | some e => .error e
    | none => .ok (content sessionId)
  | .simulateSignMessage .. => weather.simulation
  | .simulateSendTransaction .. => weather.simulation
  | .signMessage _ => weather.signature
  | .signTransaction _ => weather.signature

namespace State

/-- The beginning, with any content of the store. -/
def initial (content : String → Option WalletConnection) : State T :=
  { store := content, held := [content], seen := [], recorded := [], jobs := [] }

/-- `should_process_message`. -/
def shouldProcessMessage (s : State T) (source : Source) : Bool × State T :=
  let (fresh, seen) := recordSeenMessage s.seen source.text seenMessagesLimit
  (fresh, { s with seen, recorded := if fresh then s.recorded ++ [source] else s.recorded })

/-- The messages recorded last. -/
def recent (s : State T) : List Source := s.recorded.drop (s.recorded.length - seenMessagesLimit)

/-- The requests as they arrived. -/
def arrivals (s : State T) : List Arrival := s.jobs.map (·.arrival)

end State

/-- One event. -/
def step (lib : WalletConnectLib T) (s : State T) : Event T → Option (State T)
  | .request request =>
    let (fresh, s') := s.shouldProcessMessage (.request request.topic request.requestId)
    some { s' with jobs := s'.jobs ++
      [{ arrival := { request, arrived := s.recorded.length, fresh }
         talk := { dialogue := processRequest lib request fresh, record := [] } }] }
  | .message id => some (s.shouldProcessMessage (.message id)).2
  | .store content => some { s with store := content, held := s.held ++ [content] }
  | .advance j weather => do
    let job ← s.jobs[j]?
    let talk ← job.talk.step (respond s.store weather)
    some { s with jobs := s.jobs.set j { job with talk } }

/-! ## What is expected -/

/-- An arrival repeats an earlier one: the same pair was taken on, and fewer than 512 other messages
were recorded since. -/
def Repeats (arrivals : List Arrival) (j : ℕ) (a : Arrival) : Prop :=
  ∃ i earlier, i < j ∧ arrivals[i]? = some earlier ∧ earlier.fresh = true ∧
    earlier.source = a.source ∧ a.arrived ≤ earlier.arrived + seenMessagesLimit

/-- A request has reached the signer. -/
def Job.ReachesSigner (job : Job T) : Prop :=
  ∃ before call, job.talk.Puts before call ∧ call.signs = true

/-- What is expected of a state. -/
structure Sound (lib : WalletConnectLib T) (s : State T) : Prop where
  /-- The signer is called with authority, and once by each request. -/
  authorised : ∀ job ∈ s.jobs, ∀ before call, job.talk.Puts before call → call.signs = true →
    Authorised lib job.arrival.request before call ∧ ∀ entry ∈ before, entry.1.signs = false
  /-- Connections that were read have been in the store. -/
  held : ∀ job ∈ s.jobs, ∀ topic c, HasRead job.talk.record topic c →
    ∃ content ∈ s.held, content topic = some c
  /-- When two requests of one pair reach the signer, the 512 messages recorded after the first
  are other ones. -/
  once : ∀ (i j : ℕ) (first second : Job T), s.jobs[i]? = some first → s.jobs[j]? = some second → i < j →
    first.arrival.source = second.arrival.source → first.ReachesSigner → second.ReachesSigner →
    first.arrival.arrived + seenMessagesLimit < second.arrival.arrived ∧
    ∀ k source, first.arrival.arrived < k → k ≤ first.arrival.arrived + seenMessagesLimit →
      s.recorded[k]? = some source → source ≠ first.arrival.source
  /-- Only a repetition is taken for one. -/
  apart : ∀ (j : ℕ) (a : Arrival), s.arrivals[j]? = some a → a.fresh = false →
    Repeats s.arrivals j a
  /-- A request that is no repetition waits at most four times, and then has one reply: a rejection
  if it asked for a signature and got none. -/
  replies : ∀ (j : ℕ) (job : Job T), s.jobs[j]? = some job → ¬ Repeats s.arrivals j job.arrival →
    job.talk.record.length ≤ 4 ∧ ∀ outcome, job.talk.dialogue = .done outcome →
      outcome.response.isSome = true ∧
      ((∀ action, ReadAs lib job.arrival.request job.talk.record action → action.signs = true) →
        ¬ Signed job.talk.record → ∃ failure, outcome = .rejected failure)
  /-- A request that waits goes on with any answer. -/
  goesOn : ∀ (j : ℕ) (job : Job T) (weather : Weather T), s.jobs[j]? = some job →
    (∀ outcome, job.talk.dialogue ≠ .done outcome) → (step lib s (.advance j weather)).isSome = true

/-- The text of an arriving request is not remembered from another message. -/
def Told (s : State T) : Event T → Prop
  | .request request => ∀ source ∈ s.recent,
      source.text = requestMessageId request.topic request.requestId →
      source = .request request.topic request.requestId
  | _ => True

/-! ## The seen messages -/

lemma mem_recent_iff {s : State T} {source : Source} :
    source ∈ s.recent ↔
      ∃ p : ℕ, s.recorded[p]? = some source ∧ s.recorded.length ≤ p + seenMessagesLimit := by
  rw [State.recent, List.mem_iff_getElem?]
  simp only [List.getElem?_drop]
  constructor
  · rintro ⟨i, hi⟩
    exact ⟨_, hi, by omega⟩
  · rintro ⟨p, hp, hle⟩
    have hadd : s.recorded.length - seenMessagesLimit
        + (p - (s.recorded.length - seenMessagesLimit)) = p := by omega
    exact ⟨p - (s.recorded.length - seenMessagesLimit), by rw [hadd, hp]⟩

/-- A message whose text is not remembered is recorded. -/
structure Notes (s s' : State T) (source : Source) : Prop where
  new : ∀ earlier ∈ s.recent, earlier.text ≠ source.text
  seen : s'.seen = s'.recent.map Source.text
  recorded : s'.recorded = s.recorded ++ [source]
  store : s'.store = s.store
  held : s'.held = s.held
  jobs : s'.jobs = s.jobs

/-- What `should_process_message` does when the seen messages are the ones recorded last. -/
theorem shouldProcessMessage_cases {s : State T} (hseen : s.seen = s.recent.map Source.text)
    (source : Source) :
    (∃ earlier ∈ s.recent, earlier.text = source.text ∧
      s.shouldProcessMessage source = (false, s)) ∨
    ∃ s', s.shouldProcessMessage source = (true, s') ∧ Notes s s' source := by
  by_cases hmem : source.text ∈ s.seen
  · left
    have hmem' := hmem
    rw [hseen] at hmem'
    obtain ⟨earlier, hearlier, htext⟩ := List.mem_map.mp hmem'
    refine ⟨earlier, hearlier, htext, ?_⟩
    simp [State.shouldProcessMessage, recordSeenMessage, hmem]
  · right
    have hnew : recordSeenMessage s.seen source.text seenMessagesLimit
        = (true, (if s.seen.length ≥ seenMessagesLimit then s.seen.tail else s.seen)
            ++ [source.text]) := by
      rw [recordSeenMessage, if_neg hmem]
    refine ⟨{ s with
      seen := (if s.seen.length ≥ seenMessagesLimit then s.seen.tail else s.seen) ++ [source.text]
      recorded := s.recorded ++ [source] }, ?_, ?_, ?_, rfl, rfl, rfl, rfl⟩
    · rw [State.shouldProcessMessage, hnew]
      rfl
    · intro earlier hearlier htext
      rw [hseen] at hmem
      exact hmem (List.mem_map.mpr ⟨earlier, hearlier, htext⟩)
    · show _ = List.map Source.text ((s.recorded ++ [source]).drop _)
      rw [drop_length_append s.recorded source (by decide), List.map_append,
        apply_ite (List.map Source.text), List.map_tail, hseen, List.length_map]
      rfl

/-! ## One event -/

/-- A request as it starts. -/
def newJob (lib : WalletConnectLib T) (request : SessionRequest) (arrived : ℕ) (fresh : Bool) :
    Job T :=
  { arrival := { request, arrived, fresh }
    talk := { dialogue := processRequest lib request fresh, record := [] } }

/-- **What an event does.** -/
theorem step_cases {lib : WalletConnectLib T} {s s' : State T} {e : Event T}
    (hseen : s.seen = s.recent.map Source.text) (h : step lib s e = some s') :
    (∃ request earlier, e = .request request ∧ earlier ∈ s.recent ∧
      earlier.text = requestMessageId request.topic request.requestId ∧
      s' = { s with jobs := s.jobs ++ [newJob lib request s.recorded.length false] }) ∨
    (∃ request s₁, e = .request request ∧
      Notes s s₁ (.request request.topic request.requestId) ∧
      s' = { s₁ with jobs := s.jobs ++ [newJob lib request s.recorded.length true] }) ∨
    (∃ id, e = .message id ∧ (s' = s ∨ Notes s s' (.message id))) ∨
    (∃ content, e = .store content ∧
      s' = { s with store := content, held := s.held ++ [content] }) ∨
    (∃ j weather job talk, e = .advance j weather ∧ s.jobs[j]? = some job ∧
      job.talk.step (respond s.store weather) = some talk ∧
      s' = { s with jobs := s.jobs.set j { job with talk } }) := by
  cases e with
  | request request =>
    rcases shouldProcessMessage_cases hseen (.request request.topic request.requestId) with
      ⟨earlier, hmem, htext, heq⟩ | ⟨s₁, heq, hnotes⟩
    · rw [step, heq] at h
      cases h
      exact .inl ⟨request, earlier, rfl, hmem, htext, rfl⟩
    · rw [step, heq] at h
      cases h
      rw [← hnotes.jobs]
      exact .inr (.inl ⟨request, s₁, rfl, hnotes, rfl⟩)
  | message id =>
    rcases shouldProcessMessage_cases hseen (.message id) with
      ⟨earlier, hmem, htext, heq⟩ | ⟨s₁, heq, hnotes⟩
    · rw [step, heq] at h
      cases h
      exact .inr (.inr (.inl ⟨id, rfl, .inl rfl⟩))
    · rw [step, heq] at h
      cases h
      exact .inr (.inr (.inl ⟨id, rfl, .inr hnotes⟩))
  | store content =>
    cases h
    exact .inr (.inr (.inr (.inl ⟨content, rfl, rfl⟩)))
  | advance j weather =>
    simp only [step, Option.bind_eq_bind, Option.bind_eq_some_iff] at h
    obtain ⟨job, hjob, talk, htalk, hs⟩ := h
    cases hs
    exact .inr (.inr (.inr (.inr ⟨j, weather, job, talk, rfl, hjob, htalk, rfl⟩)))

/-- What is known about the messages: the seen ones are those recorded last, one text comes back
only after 512 others, and the requests that were taken on are the ones recorded. -/
structure Memory (s : State T) : Prop where
  seen : s.seen = s.recent.map Source.text
  spaced : ∀ (p q : ℕ) (x y : Source), s.recorded[p]? = some x → s.recorded[q]? = some y →
    x.text = y.text → p < q → p + seenMessagesLimit < q
  noted : ∀ (i : ℕ) (a : Arrival), s.arrivals[i]? = some a → a.fresh = true →
    s.recorded[a.arrived]? = some a.source
  taken : ∀ (p : ℕ) (topic requestId : String),
    s.recorded[p]? = some (.request topic requestId) → ∃ (i : ℕ) (a : Arrival),
      s.arrivals[i]? = some a ∧ a.fresh = true ∧ a.arrived = p ∧ a.source = .request topic requestId
  ordered : ∀ (i j : ℕ) (a b : Arrival), s.arrivals[i]? = some a → s.arrivals[j]? = some b →
    i < j → a.fresh = true → a.arrived < b.arrived

/-- A new text keeps the distance. -/
lemma Notes.spaced {s s' : State T} {source : Source} (h : Notes s s' source) (hm : Memory s)
    (p q : ℕ) (x y : Source) (hx : s'.recorded[p]? = some x) (hy : s'.recorded[q]? = some y)
    (htext : x.text = y.text) (hpq : p < q) : p + seenMessagesLimit < q := by
  rw [h.recorded] at hx hy
  have hq : q < (s.recorded ++ [source]).length := (List.getElem?_eq_some_iff.mp hy).1
  rw [List.length_append, List.length_singleton] at hq
  rw [List.getElem?_append_left (by omega)] at hx
  rcases Nat.lt_succ_iff_lt_or_eq.mp hq with hq | rfl
  · rw [List.getElem?_append_left hq] at hy
    exact hm.spaced p q x y hx hy htext hpq
  · rw [List.getElem?_concat_length] at hy
    cases hy
    by_contra hle
    exact h.new x (mem_recent_iff.mpr ⟨p, hx, by omega⟩) htext

/-- An answer changes nothing about the arrivals. -/
lemma arrivals_set {s : State T} {j : ℕ} {job : Job T} {talk} (h : s.jobs[j]? = some job) :
    (s.jobs.set j { job with talk }).map (·.arrival) = s.arrivals := by
  refine List.ext_getElem? fun i => ?_
  rw [State.arrivals, List.getElem?_map, List.getElem?_map]
  by_cases hij : i = j
  · subst hij
    rw [List.getElem?_set_self (List.getElem?_eq_some_iff.mp h).1, h]
    rfl
  · rw [List.getElem?_set_ne (Ne.symm hij)]

lemma memory_initial (content : String → Option WalletConnection) :
    Memory (State.initial content : State T) := by
  refine ⟨by simp [State.initial, State.recent], ?_, ?_, ?_, ?_⟩
  · intro p q x y hx
    exact absurd hx (by simp [State.initial])
  · intro i a ha
    exact absurd ha (by simp [State.initial, State.arrivals])
  · intro p topic requestId hp
    exact absurd hp (by simp [State.initial])
  · intro i j a b ha
    exact absurd ha (by simp [State.initial, State.arrivals])

/-- A request that is taken for a repetition. -/
lemma Memory.ignore {s s' : State T} {a : Arrival} (hm : Memory s)
    (hseen : s'.seen = s.seen) (hrecorded : s'.recorded = s.recorded)
    (harrivals : s'.arrivals = s.arrivals ++ [a]) (hfresh : a.fresh = false)
    (harrived : a.arrived = s.recorded.length) : Memory s' := by
  have hrecent : s'.recent = s.recent := by rw [State.recent, hrecorded, State.recent]
  refine ⟨by rw [hseen, hrecent, hm.seen], ?_, ?_, ?_, ?_⟩
  · rw [hrecorded]
    exact hm.spaced
  · intro i b hb hb'
    rw [harrivals] at hb
    rw [hrecorded]
    rcases getElem?_concat_eq_some hb with hb | ⟨-, rfl⟩
    · exact hm.noted i b hb hb'
    · exact absurd (hfresh.symm.trans hb') (by simp)
  · intro p topic requestId hp
    rw [hrecorded] at hp
    obtain ⟨i, b, hb, hrest⟩ := hm.taken p topic requestId hp
    exact ⟨i, b, harrivals ▸ getElem?_concat_of_eq_some hb, hrest⟩
  · intro i j b c hb hc hij hb'
    rw [harrivals] at hb hc
    rcases getElem?_concat_eq_some hb with hold | ⟨-, rfl⟩
    · rcases getElem?_concat_eq_some hc with hc | ⟨-, rfl⟩
      · exact hm.ordered i j b c hold hc hij hb'
      · rw [harrived]
        exact (List.getElem?_eq_some_iff.mp (hm.noted i b hold hb')).1
    · exact absurd (hfresh.symm.trans hb') (by simp)

/-- A request that is taken on. -/
lemma Memory.accept {s s' : State T} {a : Arrival} (hm : Memory s) {s₁ : State T}
    (hnotes : Notes s s₁ a.source) (hseen : s'.seen = s₁.seen)
    (hrecorded : s'.recorded = s₁.recorded) (harrivals : s'.arrivals = s.arrivals ++ [a])
    (hfresh : a.fresh = true) (harrived : a.arrived = s.recorded.length) : Memory s' := by
  have hrecent : s'.recent = s₁.recent := by rw [State.recent, hrecorded, State.recent]
  have hrecorded' : s'.recorded = s.recorded ++ [a.source] := hrecorded.trans hnotes.recorded
  refine ⟨by rw [hseen, hrecent, hnotes.seen], ?_, ?_, ?_, ?_⟩
  · rw [hrecorded]
    exact hnotes.spaced hm
  · intro i b hb hb'
    rw [harrivals] at hb
    rw [hrecorded']
    rcases getElem?_concat_eq_some hb with hb | ⟨-, rfl⟩
    · exact getElem?_concat_of_eq_some (hm.noted i b hb hb')
    · rw [harrived]
      exact List.getElem?_concat_length
  · intro p topic requestId hp
    rw [hrecorded'] at hp
    rw [harrivals]
    rcases getElem?_concat_eq_some hp with hp | ⟨rfl, hsource⟩
    · obtain ⟨i, b, hb, hrest⟩ := hm.taken p topic requestId hp
      exact ⟨i, b, getElem?_concat_of_eq_some hb, hrest⟩
    · exact ⟨_, a, List.getElem?_concat_length, hfresh, harrived, hsource.symm⟩
  · intro i j b c hb hc hij hb'
    rw [harrivals] at hb hc
    rcases getElem?_concat_eq_some hc with hc | ⟨rfl, rfl⟩
    · rcases getElem?_concat_eq_some hb with hb | ⟨rfl, -⟩
      · exact hm.ordered i j b c hb hc hij hb'
      · have := (List.getElem?_eq_some_iff.mp hc).1
        omega
    · rcases getElem?_concat_eq_some hb with hb | ⟨rfl, -⟩
      · rw [harrived]
        exact (List.getElem?_eq_some_iff.mp (hm.noted i b hb hb')).1
      · exact absurd hij (lt_irrefl _)

/-- Another message that is recorded. -/
lemma Memory.note {s s' : State T} {id : String} (hm : Memory s)
    (hnotes : Notes s s' (.message id)) : Memory s' := by
  have harrivals : s'.arrivals = s.arrivals := by rw [State.arrivals, hnotes.jobs, State.arrivals]
  refine ⟨hnotes.seen, hnotes.spaced hm, ?_, ?_, ?_⟩
  · intro i b hb hb'
    rw [harrivals] at hb
    rw [hnotes.recorded]
    exact getElem?_concat_of_eq_some (hm.noted i b hb hb')
  · intro p topic requestId hp
    rw [hnotes.recorded] at hp
    rw [harrivals]
    rcases getElem?_concat_eq_some hp with hp | ⟨-, hsource⟩
    · exact hm.taken p topic requestId hp
    · cases hsource
  · rw [harrivals]
    exact hm.ordered

/-- Every event keeps what is known about the messages. -/
lemma Memory.step {lib : WalletConnectLib T} {s s' : State T} {e : Event T} (hm : Memory s)
    (h : step lib s e = some s') : Memory s' := by
  rcases step_cases hm.seen h with ⟨request, earlier, rfl, -, -, rfl⟩ |
    ⟨request, s₁, rfl, hnotes, rfl⟩ | ⟨id, rfl, rfl | hnotes⟩ | ⟨content, rfl, rfl⟩ |
    ⟨j, weather, job, talk, rfl, hjob, -, rfl⟩
  · exact hm.ignore (a := (newJob lib request s.recorded.length false).arrival) rfl rfl
      (by simp [State.arrivals, newJob]) rfl rfl
  · exact hm.accept (a := (newJob lib request s.recorded.length true).arrival) hnotes rfl rfl
      (by simp [State.arrivals, newJob]) rfl rfl
  · exact hm
  · exact hm.note hnotes
  · exact ⟨hm.seen, hm.spaced, hm.noted, hm.taken, hm.ordered⟩
  · have harrivals : ({ s with jobs := s.jobs.set j { job with talk } } : State T).arrivals
        = s.arrivals := arrivals_set hjob
    refine ⟨hm.seen, hm.spaced, ?_, ?_, ?_⟩
    · rw [harrivals]
      exact hm.noted
    · rw [harrivals]
      exact hm.taken
    · rw [harrivals]
      exact hm.ordered

/-! ## The requests -/

/-- Every request keeps to its rules, and what it has read was in the store. -/
structure Talks (lib : WalletConnectLib T) (s : State T) : Prop where
  abides : ∀ job ∈ s.jobs, job.talk.Abides
    (Permitted lib job.arrival.request job.arrival.fresh)
    (Replied lib job.arrival.request job.arrival.fresh)
  read : ∀ job ∈ s.jobs, ∀ topic c, HasRead job.talk.record topic c →
    ∃ content ∈ s.held, content topic = some c
  current : s.store ∈ s.held

variable {lib : WalletConnectLib T} {s s' : State T} {e : Event T}

lemma talks_initial (content : String → Option WalletConnection) :
    Talks lib (State.initial content) :=
  ⟨fun _ h => absurd h List.not_mem_nil, fun _ h => absurd h List.not_mem_nil,
    List.mem_singleton_self _⟩

/-- A request that starts. -/
lemma Talks.start (h : Talks lib s) (hstore : s'.store = s.store) (hheld : s'.held = s.held)
    {request : SessionRequest} {arrived : ℕ} {fresh : Bool}
    (hjobs : s'.jobs = s.jobs ++ [newJob lib request arrived fresh]) : Talks lib s' := by
  refine ⟨fun job hjob => ?_, fun job hjob topic c hread => ?_, by rw [hstore, hheld]; exact h.current⟩
  · rw [hjobs] at hjob
    rcases List.mem_append.mp hjob with hjob | hjob
    · exact h.abides job hjob
    · rw [List.mem_singleton.mp hjob]
      exact .start (processRequest_abides lib request fresh)
  · rw [hjobs] at hjob
    rw [hheld]
    rcases List.mem_append.mp hjob with hjob | hjob
    · exact h.read job hjob topic c hread
    · rw [List.mem_singleton.mp hjob] at hread
      exact absurd hread List.not_mem_nil

/-- The connection that a request hears is in the store. -/
lemma hasRead_of_step {job : Job T} {talk} {weather : Weather T}
    {content : String → Option WalletConnection}
    (htalk : job.talk.step (respond content weather) = some talk) {topic : String}
    {c : WalletConnection} (hread : HasRead talk.record topic c) :
    HasRead job.talk.record topic c ∨ content topic = some c := by
  obtain ⟨call, next, -, rfl⟩ := Talk.step_eq_some_iff.mp htalk
  rcases List.mem_append.mp hread with hread | hread
  · exact .inl hread
  · right
    have heq := List.mem_singleton.mp hread
    cases hcall : call with
    | getConnection sessionId =>
      subst hcall
      obtain ⟨rfl⟩ := Call.getConnection.inj (congrArg Sigma.fst heq)
      have hanswer := eq_of_heq (Sigma.mk.inj heq).2
      rw [respond] at hanswer
      split at hanswer
      case h_1 => cases hanswer
      case h_2 => exact (Except.ok.inj hanswer).symm
    | _ =>
      subst hcall
      cases congrArg Sigma.fst heq

/-- Every event keeps the requests to their rules. -/
lemma Talks.step (h : Talks lib s) (hm : Memory s)
    (hstep : WalletConnect.step lib s e = some s') : Talks lib s' := by
  rcases step_cases hm.seen hstep with ⟨request, earlier, rfl, -, -, rfl⟩ |
    ⟨request, s₁, rfl, hnotes, rfl⟩ | ⟨id, rfl, rfl | hnotes⟩ | ⟨content, rfl, rfl⟩ |
    ⟨j, weather, job, talk, rfl, hjob, htalk, rfl⟩
  · exact h.start rfl rfl rfl
  · exact h.start hnotes.store hnotes.held rfl
  · exact h
  · refine ⟨?_, ?_, ?_⟩
    · rw [hnotes.jobs]
      exact h.abides
    · rw [hnotes.jobs, hnotes.held]
      exact h.read
    · rw [hnotes.store, hnotes.held]
      exact h.current
  · refine ⟨h.abides, fun job hjob topic c hread => ?_, List.mem_append_right _ (by simp)⟩
    obtain ⟨content', hmem, hcontent⟩ := h.read job hjob topic c hread
    exact ⟨content', List.mem_append_left _ hmem, hcontent⟩
  · have hmem := List.mem_of_getElem? hjob
    refine ⟨fun other hother => ?_, fun other hother topic c hread => ?_, h.current⟩
    · rcases List.mem_or_eq_of_mem_set hother with hother | rfl
      · exact h.abides other hother
      · exact (h.abides job hmem).step htalk
    · rcases List.mem_or_eq_of_mem_set hother with hother | rfl
      · exact h.read other hother topic c hread
      · rcases hasRead_of_step htalk hread with hold | hnow
        · exact h.read job hmem topic c hold
        · exact ⟨s.store, h.current, hnow⟩

/-- A record has four entries at most. -/
lemma length_record_le {job : Job T} (h : job.talk.Abides
    (Permitted lib job.arrival.request job.arrival.fresh)
    (Replied lib job.arrival.request job.arrival.fresh)) : job.talk.record.length ≤ 4 := by
  rcases List.eq_nil_or_concat job.talk.record with hnil | ⟨before, ⟨call, answer⟩, hlast⟩
  · rw [hnil]
    exact Nat.zero_le _
  · rw [List.concat_eq_append] at hlast
    have hfew := (h.asked before call answer [] hlast).few
    rw [hlast, List.length_append, List.length_singleton]
    omega

/-! ## Repetitions -/

/-- Only repetitions are taken for such. -/
def Apart (s : State T) : Prop :=
  ∀ (j : ℕ) (a : Arrival), s.arrivals[j]? = some a → a.fresh = false → Repeats s.arrivals j a

lemma Repeats.append {arrivals : List Arrival} {j : ℕ} {a : Arrival} (h : Repeats arrivals j a)
    (new : Arrival) : Repeats (arrivals ++ [new]) j a := by
  obtain ⟨i, earlier, hij, hi, hrest⟩ := h
  exact ⟨i, earlier, hij, getElem?_concat_of_eq_some hi, hrest⟩

/-- A request whose text is remembered from the same pair is a repetition. -/
lemma repeats_of_mem_recent (hm : Memory s) {request : SessionRequest}
    (hmem : .request request.topic request.requestId ∈ s.recent) (new : Arrival)
    (hnew : new = { request, arrived := s.recorded.length, fresh := false }) :
    Repeats (s.arrivals ++ [new]) s.arrivals.length new := by
  obtain ⟨p, hp, hle⟩ := mem_recent_iff.mp hmem
  obtain ⟨i, a, ha, hfresh, harrived, hsource⟩ := hm.taken p _ _ hp
  refine ⟨i, a, (List.getElem?_eq_some_iff.mp ha).1, getElem?_concat_of_eq_some ha, hfresh, ?_, ?_⟩
  · rw [hsource, hnew]
    rfl
  · rw [hnew, harrived]
    exact hle

/-- **Every event that is told apart keeps the requests apart.** -/
theorem Apart.step (h : Apart s) (hm : Memory s) (htold : Told s e)
    (hstep : WalletConnect.step lib s e = some s') : Apart s' := by
  have hconcat : ∀ new : Arrival, (new.fresh = false →
      Repeats (s.arrivals ++ [new]) s.arrivals.length new) →
      s'.arrivals = s.arrivals ++ [new] → Apart s' := by
    intro new hnew harrivals j a ha hfresh
    rw [harrivals] at ha ⊢
    rcases getElem?_concat_eq_some ha with ha | ⟨rfl, rfl⟩
    · exact (h j a ha hfresh).append new
    · exact hnew hfresh
  rcases step_cases hm.seen hstep with ⟨request, earlier, rfl, hmem, htext, rfl⟩ |
    ⟨request, s₁, rfl, hnotes, rfl⟩ | ⟨id, rfl, rfl | hnotes⟩ | ⟨content, rfl, rfl⟩ |
    ⟨j, weather, job, talk, rfl, hjob, htalk, rfl⟩
  · refine hconcat (newJob lib request s.recorded.length false).arrival (fun _ => ?_)
      (by simp [State.arrivals])
    have hsame := htold earlier hmem htext
    subst hsame
    exact repeats_of_mem_recent hm hmem _ rfl
  · exact hconcat (newJob lib request s.recorded.length true).arrival (fun hf => by cases hf)
      (by simp [State.arrivals])
  · exact h
  · unfold Apart
    rw [State.arrivals, hnotes.jobs]
    exact h
  · exact h
  · have harrivals : ({ s with jobs := s.jobs.set j { job with talk } } : State T).arrivals
        = s.arrivals := arrivals_set hjob
    unfold Apart
    rw [harrivals]
    exact h

/-- What every event keeps, if the texts of the requests are told apart. -/
structure Inv (lib : WalletConnectLib T) (s : State T) : Prop where
  memory : Memory s
  talks : Talks lib s
  apart : Apart s

lemma inv_initial (content : String → Option WalletConnection) :
    Inv lib (State.initial content) :=
  ⟨memory_initial content, talks_initial content, fun j a ha => absurd ha (by simp [State.initial,
    State.arrivals])⟩

lemma Inv.step (h : Inv lib s) (htold : Told s e)
    (hstep : WalletConnect.step lib s e = some s') : Inv lib s' :=
  ⟨h.memory.step hstep, h.talks.step h.memory hstep, h.apart.step h.memory htold hstep⟩

/-- A request that reaches the signer was taken on. -/
lemma fresh_of_reachesSigner (h : Talks lib s) {job : Job T} (hjob : job ∈ s.jobs)
    (hreach : job.ReachesSigner) : job.arrival.fresh = true := by
  obtain ⟨before, call, hputs, -⟩ := hreach
  exact ((h.abides job hjob).of_puts hputs).fresh

lemma arrivals_of_jobs {j : ℕ} {job : Job T} (h : s.jobs[j]? = some job) :
    s.arrivals[j]? = some job.arrival := by
  rw [State.arrivals, List.getElem?_map, h]
  rfl

/-- The invariant is what is expected. -/
lemma Inv.sound (h : Inv lib s) : Sound lib s where
  authorised job hjob before call hputs hsigns :=
    ((h.talks.abides job hjob).of_puts hputs).signer hsigns
  held := h.talks.read
  once := by
    intro i j first second hi hj hij hsource hfirst hsecond
    have hfresh := fresh_of_reachesSigner h.talks (List.mem_of_getElem? hi) hfirst
    have hfresh' := fresh_of_reachesSigner h.talks (List.mem_of_getElem? hj) hsecond
    have hnoted := h.memory.noted i _ (arrivals_of_jobs hi) hfresh
    have hnoted' := h.memory.noted j _ (arrivals_of_jobs hj) hfresh'
    have hlt := h.memory.ordered i j _ _ (arrivals_of_jobs hi) (arrivals_of_jobs hj) hij hfresh
    refine ⟨h.memory.spaced _ _ _ _ hnoted hnoted' (by rw [hsource]) hlt, ?_⟩
    rintro k source hk hle hsource' rfl
    have := h.memory.spaced _ _ _ _ hnoted hsource' rfl hk
    omega
  apart := h.apart
  replies := by
    intro j job hj hno
    have habides := h.talks.abides job (List.mem_of_getElem? hj)
    refine ⟨length_record_le habides, fun outcome hdone => ?_⟩
    have hfresh : job.arrival.fresh = true := by
      by_contra hfresh
      exact hno (h.apart j _ (arrivals_of_jobs hj) (by simpa using hfresh))
    have hreplied := habides.of_done hdone
    rw [Replied, if_pos hfresh] at hreplied
    exact hreplied
  goesOn := by
    intro j job weather hj hwaits
    have hsome : (job.talk.step (respond s.store weather)).isSome := Talk.step_isSome hwaits
    obtain ⟨talk, htalk⟩ := Option.isSome_iff_exists.mp hsome
    simp [WalletConnect.step, hj, htalk]

/-- A request whose text is remembered from another message is not answered.

**Proof sketch.** It is ignored. If it repeated an earlier one, that one would be remembered too,
and there would be two messages of one text among the last 512. -/
theorem told_of_sound (hm : Memory s) (hstep : WalletConnect.step lib s e = some s')
    (h : Sound lib s') : Told s e := by
  rcases step_cases hm.seen hstep with ⟨request, _, rfl, -, -, rfl⟩ |
    ⟨request, s₁, rfl, hnotes, rfl⟩ | ⟨id, rfl, -⟩ | ⟨content, rfl, -⟩ |
    ⟨j, weather, job, talk, rfl, -, -, -⟩
  · intro source hmem htext
    have harrivals : ({ s with
        jobs := s.jobs ++ [newJob lib request s.recorded.length false] } : State T).arrivals
          = s.arrivals ++ [(newJob lib request s.recorded.length false).arrival] := by
      simp [State.arrivals]
    obtain ⟨i, earlier, hi, hearlier, hfresh, hsource, hle⟩ :=
      h.apart s.arrivals.length _ (harrivals ▸ List.getElem?_concat_length) rfl
    rw [harrivals, List.getElem?_append_left hi] at hearlier
    -- the pair of the request is recorded at `earlier.arrived`, the other message at `p`
    have hnoted := hm.noted i earlier hearlier hfresh
    rw [hsource] at hnoted
    obtain ⟨p, hp, hlast⟩ := mem_recent_iff.mp hmem
    have hlt := (List.getElem?_eq_some_iff.mp hp).1
    have hlt' := (List.getElem?_eq_some_iff.mp hnoted).1
    have hle' : s.recorded.length ≤ earlier.arrived + seenMessagesLimit := hle
    rcases lt_trichotomy p earlier.arrived with hpq | rfl | hpq
    · have := hm.spaced _ _ _ _ hp hnoted htext hpq
      omega
    · rw [hp] at hnoted
      exact Option.some.inj hnoted
    · have := hm.spaced _ _ _ _ hnoted hp htext.symm hpq
      omega
  · intro source hmem htext
    exact absurd htext (hnotes.new source hmem)
  · trivial
  · trivial
  · trivial

/-- Runs that are sound throughout, from any state with the invariant. -/
lemma Inv.soundThroughout_iff (h : Inv lib s) (events : List (Event T)) :
    (∀ before after s', events = before ++ after →
      runEvents (WalletConnect.step lib) s before = some s' → Sound lib s') ↔
    Along (WalletConnect.step lib) Told s events := by
  constructor
  · intro hsound
    induction events generalizing s with
    | nil => trivial
    | cons e events ih =>
      have htold : ∀ s', WalletConnect.step lib s e = some s' → Told s e := by
        intro s' hstep
        refine told_of_sound h.memory hstep (hsound [e] events s' rfl ?_)
        simp [runEvents, hstep]
      refine ⟨?_, fun s' hstep => ih (h.step (htold s' hstep) hstep) ?_⟩
      · cases e with
        | request request => exact htold _ rfl
        | message id | store content | advance j weather => trivial
      · intro before after s₂ heq hrun
        refine hsound (e :: before) after s₂ (by rw [heq]; rfl) ?_
        exact runEvents_cons_eq_some.mpr ⟨s', hstep, hrun⟩
  · rintro halong before after s' rfl hrun
    exact (runEvents_invariant (fun _ _ _ hI hP hs => hI.step hP hs) h halong.left_of_append
      hrun).sound

/-- **The runs in which every request is authorised, reaches the signer once and has its reply**
are exactly the ones in which no request arrives whose text is remembered from another message.

**Proof sketch.** Three invariants carry it: the last 512 recorded messages are the seen ones, with
different texts; every request keeps to the rules of its own tree; and a request that is ignored
repeats an earlier one. Only the last one needs the texts to be told apart. -/
theorem sound_iff_told (lib : WalletConnectLib T) (content : String → Option WalletConnection)
    (events : List (Event T)) :
    (∀ before after s, events = before ++ after →
      runEvents (step lib) (.initial content) before = some s → Sound lib s) ↔
    Along (step lib) Told (.initial content) events :=
  (inv_initial content).soundThroughout_iff events

/-- Topics without a hyphen: the text of a request tells its pair. -/
lemma requestMessageId_injective {topic topic' requestId requestId' : String}
    (htopic : '-' ∉ topic.toList) (htopic' : '-' ∉ topic'.toList)
    (h : requestMessageId topic requestId = requestMessageId topic' requestId') :
    topic = topic' ∧ requestId = requestId' := by
  have hlist := congrArg String.toList h
  simp only [requestMessageId, String.toList_append, List.append_assoc,
    List.append_cancel_left_eq] at hlist
  obtain ⟨h₁, h₂⟩ := (append_separator_inj htopic htopic').mp hlist
  exact ⟨String.toList_inj.mp h₁, String.toList_inj.mp h₂⟩

/-- Sources whose texts cannot be confused: topics without a hyphen, and other messages that are not
written like a request. -/
def Source.Plain : Source → Prop
  | .request topic _ => '-' ∉ topic.toList
  | .message id => ¬ "request-".toList <+: id.toList

/-- Requests are told apart as long as all sources are plain, as they are with the topics of the
protocol, which are hexadecimal. -/
theorem told_of_plain {request : SessionRequest} (hrecorded : ∀ source ∈ s.recorded, source.Plain)
    (htopic : '-' ∉ request.topic.toList) : Told s (.request request) := by
  intro source hmem htext
  have hplain := hrecorded source (List.mem_of_mem_drop hmem)
  cases source with
  | request topic requestId =>
    obtain ⟨rfl, rfl⟩ := requestMessageId_injective hplain htopic htext
    rfl
  | message id =>
    refine absurd ?_ hplain
    rw [show id = requestMessageId request.topic request.requestId from htext, requestMessageId,
      String.toList_append, String.toList_append, String.toList_append, List.append_assoc,
      List.append_assoc]
    exact List.prefix_append _ _

/-- An event whose source, if it has one, is plain. -/
def Event.Plain : Event T → Prop
  | .request call => '-' ∉ call.topic.toList
  | .message id => (Source.message id).Plain
  | _ => True

/-- Only the source of an event is recorded. -/
lemma plain_of_step {lib : WalletConnectLib T} {e : Event T}
    (hrecorded : ∀ source ∈ s.recorded, source.Plain) (he : e.Plain)
    (h : step lib s e = some s') : ∀ source ∈ s'.recorded, source.Plain := by
  have hadd : ∀ source : Source, source.Plain →
      ∀ x ∈ (s.shouldProcessMessage source).2.recorded, x.Plain := by
    intro source hsource x hx
    change x ∈ (if (recordSeenMessage s.seen source.text seenMessagesLimit).1 then
      s.recorded ++ [source] else s.recorded) at hx
    generalize (recordSeenMessage s.seen source.text seenMessagesLimit).1 = fresh at hx
    cases fresh with
    | false => exact hrecorded x hx
    | true =>
      rcases List.mem_append.mp hx with hx | hx
      · exact hrecorded x hx
      · exact List.mem_singleton.mp hx ▸ hsource
  cases e with
  | request request =>
    cases h
    exact hadd (.request request.topic request.requestId) he
  | message id =>
    cases h
    exact hadd (.message id) he
  | store content =>
    cases h
    exact hrecorded
  | advance j weather =>
    simp only [step, Option.bind_eq_bind, Option.bind_eq_some_iff] at h
    obtain ⟨job, -, talk, -, heq⟩ := h
    cases heq
    exact hrecorded

/-- **With the topics of the protocol nothing is taken for anything else**: in every run whose topics
have no hyphen, and whose other messages are not written like a request, all that is expected of a
state holds throughout. -/
theorem sound_of_plain (lib : WalletConnectLib T) (content : String → Option WalletConnection)
    {events : List (Event T)} (hplain : ∀ e ∈ events, e.Plain) {before after : List (Event T)}
    (hevents : events = before ++ after)
    (hrun : runEvents (step lib) (.initial content) before = some s) : Sound lib s := by
  refine ((inv_initial content).soundThroughout_iff events).mpr ?_ before after s hevents hrun
  have halong : ∀ (es : List (Event T)) (s : State T), (∀ e ∈ es, e.Plain) →
      Along (step lib) (fun _ e => e.Plain) s es := by
    intro es
    induction es with
    | nil => exact fun _ _ => trivial
    | cons e es ih =>
      exact fun s hes => ⟨hes e List.mem_cons_self, fun s' _ =>
        ih s' fun e he => hes e (List.mem_cons_of_mem _ he)⟩
  refine along_of_along (I := fun s => ∀ source ∈ s.recorded, source.Plain)
    (fun s e s' hI hP hstep => plain_of_step hI hP hstep) (fun s e hI hP => ?_)
    (fun _ hmem => absurd hmem List.not_mem_nil) (halong events _ hplain)
  cases e with
  | request request => exact told_of_plain hI hP
  | message id => trivial
  | store content => trivial
  | advance j weather => trivial

/-- Two requests of different pairs. -/
def twoPairs : List SessionRequest :=
  [("a-b", "c"), ("a", "b-c")].map fun (topic, requestId) =>
    { topic, requestId, method := "personal_sign", params := "", chainId := some "eip155:1"
      origin := none, validation := .unknown }

/-- A carrier without content. -/
def plainCarrier : Carrier :=
  { SignDigestType := Unit, WalletConnectTransactionType := Unit, EvmTransactionKind := Unit
    EncodedTransaction := Unit, SimulationResult := Unit, SignMessage := Unit
    GemTransferData := Unit, WalletConnectResponseType := String }

/-- Everything is read as a message to sign. -/
def plainLib : WalletConnectLib plainCarrier where
  host := id
  parseRequest _ _ params _ _ := .ok (.signMessage .ethereum () params)
  decodeSignMessage _ _ _ := ()
  decodeSendTransaction _ _ := .error "not a transaction"
  transferData _ _ _ _ := .ok ()
  encodeSignMessage _ signature := signature
  encodeSignTransaction _ signature := signature
  encodeSignAllTransactions signatures := String.join signatures
  encodeSendTransaction _ id := id
  encodeGetAccounts _ _ := ""

/-- A session whose wallet has an Ethereum account. -/
def sampleConnection : WalletConnection where
  session :=
    { id := "a1", sessionId := "a1", state := .active, chains := [.ethereum], createdAt := 0
      expireAt := 1
      metadata := { name := "", description := "", url := "https://a.example", icon := "" } }
  wallet :=
    { id := .multicoin "0x01", externalId := none, name := "", index := 0, walletType := .multicoin
      accounts := [{ chain := .ethereum, address := "0x01", derivationPath := ""
                     extendedPublicKey := none }]
      isPinned := false, imageUrl := none, source := .create }

/-- A message to sign. -/
def sampleRequest : SessionRequest where
  topic := "a1"
  requestId := "1"
  method := "personal_sign"
  params := "0x00"
  chainId := some "eip155:1"
  origin := some "https://a.example"
  validation := .verified

/-- The session is added, the message is signed, and its request comes again. Meanwhile the session
is deleted. -/
def sampleEvents : List (Event plainCarrier) :=
  let fine : Event plainCarrier :=
    .advance 0 { storeError := none, simulation := .ok (), signature := .ok "0x02" }
  [.store fun topic => if topic = "a1" then some sampleConnection else none, .request sampleRequest,
    fine, fine, .message "delete-a1", .store fun _ => none, fine, .request sampleRequest, fine]

theorem sound_of_plain_sample :
    ∃ s, runEvents (step plainLib) (.initial fun _ => none) sampleEvents = some s ∧
      s.jobs.map (fun job => (job.arrival.fresh, job.talk.record.map fun entry => entry.1.signs)) =
        [(true, [false, false, false, true]), (false, [])] ∧
      (∃ job, s.jobs[0]? = some job ∧ job.talk.dialogue = .done ⟨some (.response "0x02"), none⟩) ∧
      Sound plainLib s := by
  obtain ⟨s, hrun, hjobs, hdone⟩ : ∃ s,
      runEvents (step plainLib) (.initial fun _ => none) sampleEvents = some s ∧
      s.jobs.map (fun job => (job.arrival.fresh, job.talk.record.map fun entry => entry.1.signs)) =
        [(true, [false, false, false, true]), (false, [])] ∧
      ∃ job, s.jobs[0]? = some job ∧ job.talk.dialogue = .done ⟨some (.response "0x02"), none⟩ :=
    ⟨_, rfl, rfl, _, rfl, rfl⟩
  have hplain : ∀ e ∈ sampleEvents, e.Plain := by
    simp only [sampleEvents, List.forall_mem_cons, List.not_mem_nil, false_imp_iff, implies_true,
      Event.Plain, Source.Plain, true_and, and_true]
    decide
  exact ⟨s, hrun, hjobs, hdone, sound_of_plain plainLib _ hplain (List.append_nil _).symm hrun⟩

/-- The second of two different pairs is taken for the first one, and is over without a reply. -/
theorem exists_pair_without_reply :
    ∃ s, runEvents (step plainLib) (.initial fun _ => none) (twoPairs.map .request) = some s ∧
      (∃ job, s.jobs[1]? = some job ∧ job.talk.dialogue = .done .ignored) ∧ ¬ Sound plainLib s := by
  obtain ⟨s, a, b, hrun, hignored, harrivals, hfresh, ha, hb⟩ : ∃ s a b,
      runEvents (step plainLib) (.initial fun _ => none) (twoPairs.map .request) = some s ∧
      (∃ job, s.jobs[1]? = some job ∧ job.talk.dialogue = .done .ignored) ∧
      s.arrivals = [a, b] ∧ b.fresh = false ∧
      a.source = .request "a-b" "c" ∧ b.source = .request "a" "b-c" := by
    refine ⟨_, _, _, rfl, ⟨_, rfl, ?_⟩, rfl, ?_, rfl, rfl⟩
    · rfl
    · rfl
  refine ⟨s, hrun, hignored, fun h => ?_⟩
  obtain ⟨i, earlier, hi, hearlier, -, hsource, -⟩ := h.apart 1 b (by rw [harrivals]; rfl) hfresh
  obtain rfl : i = 0 := by omega
  rw [harrivals] at hearlier
  cases hearlier
  rw [ha, hb] at hsource
  exact absurd hsource (by decide)

end GemCore.WalletConnect
