import GemCore.Lib.AssocMap
import GemCore.Lib.Interleave

/-!
# Tasks over a shared map

Tasks that run at the same time, read and write a shared map one entry at a time and put questions
to somebody outside. A task is a tree: each node is one atomic operation, with one branch for each
answer. A pool holds the map and the tasks; its events start a task, let one of them do its next
operation, and take an entry out of the map, as a cache does on its own. Each task keeps a log of
what it has done.

What a task promises, about each value it writes and about its result, is a judgement on its tree
alone: `Task.Meets`. In every run of the pool each task then keeps its promise, and whatever is in
the map, or was read from it, has been written by some task of the pool.

## Main definitions

* `Task` — tasks, with a `Monad` instance.
* `Task.answeredBy` — the result of a task that only asks.
* `Op` — the entries of a log.
* `Task.Meets` — what a task promises.
* `Pool`, `Pool.step` — tasks at the same time.
* `Pool.Accounted` — every value in the map, and every value read, was written.

## Main results

* `Task.Meets.bind` — the rule for a sequence.
* `Pool.meets_of_run` — every task of every run keeps its promise.
* `Pool.accounted_of_run` — every run is accounted for.
-/

namespace Lib

variable {κ ν Q A α β ρ : Type}

/-- A task over a map from `κ` to `ν` that asks questions `Q` with answers `A`. -/
inductive Task (κ ν Q A α : Type) where
  | done (a : α)
  | get (key : κ) (next : Option ν → Task κ ν Q A α)
  | put (key : κ) (value : ν) (next : Task κ ν Q A α)
  | ask (question : Q) (next : A → Task κ ν Q A α)

/-- What a task has done. -/
inductive Op (κ ν Q A : Type) where
  | read (key : κ) (value : Option ν)
  | wrote (key : κ) (value : ν)
  | asked (question : Q) (answer : A)

namespace Task

/-- Sequencing. -/
protected def bind : Task κ ν Q A α → (α → Task κ ν Q A β) → Task κ ν Q A β
  | done a, f => f a
  | get key next, f => get key fun v => (next v).bind f
  | put key value next, f => put key value (next.bind f)
  | ask question next, f => ask question fun a => (next a).bind f

instance : Monad (Task κ ν Q A) where
  pure := done
  bind := Task.bind

/-- Read an entry. -/
def read (key : κ) : Task κ ν Q A (Option ν) := get key done

/-- Write an entry. -/
def write (key : κ) (value : ν) : Task κ ν Q A Unit := put key value (done ())

/-- Put a question. -/
def query (question : Q) : Task κ ν Q A A := ask question done

/-- The result of a task that only asks, when each question has its fixed answer. -/
def answeredBy (answers : Q → A) : Task Empty ν Q A α → α
  | done a => a
  | ask question next => (next (answers question)).answeredBy answers

@[simp] lemma answeredBy_pure (answers : Q → A) (a : α) :
    (pure a : Task Empty ν Q A α).answeredBy answers = a := rfl

@[simp] lemma answeredBy_bind (answers : Q → A) (t : Task Empty ν Q A α)
    (f : α → Task Empty ν Q A β) :
    (t >>= f).answeredBy answers = (f (t.answeredBy answers)).answeredBy answers := by
  show (t.bind f).answeredBy answers = _
  induction t with
  | done a => rfl
  | get key next | put key value next => exact key.elim
  | ask question next ih => exact ih (answers question)

@[simp] lemma answeredBy_query (answers : Q → A) (question : Q) :
    (query question : Task Empty ν Q A A).answeredBy answers = answers question := rfl

/-- What a task promises after a log: each value it writes meets `may` with the log so far, and its
result meets `post` with the whole log. -/
def Meets (may : List (Op κ ν Q A) → κ → ν → Prop) (post : List (Op κ ν Q A) → α → Prop) :
    List (Op κ ν Q A) → Task κ ν Q A α → Prop
  | log, done a => post log a
  | log, get key next => ∀ v, Meets may post (log ++ [.read key v]) (next v)
  | log, put key value next => may log key value ∧ Meets may post (log ++ [.wrote key value]) next
  | log, ask question next => ∀ a, Meets may post (log ++ [.asked question a]) (next a)

variable {may : List (Op κ ν Q A) → κ → ν → Prop} {post post' : List (Op κ ν Q A) → α → Prop}
  {log : List (Op κ ν Q A)}

lemma Meets.pure {a : α} (h : post log a) :
    Meets may post log (Pure.pure a : Task κ ν Q A α) := h

/-- A weaker promise about the result. -/
lemma Meets.mono {t : Task κ ν Q A α} (h : Meets may post log t)
    (hpost : ∀ log a, post log a → post' log a) : Meets may post' log t := by
  induction t generalizing log with
  | done a => exact hpost log a h
  | get key next ih => exact fun v => ih v (h v)
  | put key value next ih => exact ⟨h.1, ih h.2⟩
  | ask question next ih => exact fun a => ih a (h a)

/-- **A sequence**: the second part starts from what the first one promises. -/
theorem Meets.bind {t : Task κ ν Q A α} {f : α → Task κ ν Q A β}
    {post' : List (Op κ ν Q A) → β → Prop} (h : Meets may post log t)
    (hf : ∀ log a, post log a → Meets may post' log (f a)) : Meets may post' log (t >>= f) := by
  show Meets may post' log (t.bind f)
  induction t generalizing log with
  | done a => exact hf log a h
  | get key next ih => exact fun v => ih v (h v)
  | put key value next ih => exact ⟨h.1, ih h.2⟩
  | ask question next ih => exact fun a => ih a (h a)

lemma Meets.read {key : κ} {post : List (Op κ ν Q A) → Option ν → Prop}
    (h : ∀ v, post (log ++ [.read key v]) v) : Meets may post log (Task.read key) := h

lemma Meets.write {key : κ} {value : ν} {post : List (Op κ ν Q A) → Unit → Prop}
    (hmay : may log key value) (h : post (log ++ [.wrote key value]) ()) :
    Meets may post log (Task.write key value) := ⟨hmay, h⟩

lemma Meets.query (question : Q) :
    Meets may (fun log' a => log' = log ++ [.asked question a]) log (Task.query question) :=
  fun _ => rfl

end Task

/-- A task under way for a request `ρ`, with what it has done. -/
structure Job (κ ν Q A ρ α : Type) where
  request : ρ
  task : Task κ ν Q A α
  log : List (Op κ ν Q A)

/-- The shared map and the tasks. -/
structure Pool (κ ν Q A ρ α : Type) where
  map : AssocMap κ ν
  jobs : List (Job κ ν Q A ρ α)

/-- What can happen to a pool. -/
inductive PoolEvent (κ A ρ : Type) where
  /-- A request arrives. -/
  | start (request : ρ)
  /-- A task does its next operation; a question gets this answer. -/
  | advance (job : ℕ) (answer : Option A)
  /-- An entry leaves the map. -/
  | drop (key : κ)

namespace Pool

variable [DecidableEq κ]

/-- No entry and no task. -/
def empty : Pool κ ν Q A ρ α := { map := ∅, jobs := [] }

/-- The job after an operation. -/
def Job.next (job : Job κ ν Q A ρ α) (task : Task κ ν Q A α) (op : Op κ ν Q A) :
    Job κ ν Q A ρ α :=
  { job with task := task, log := job.log ++ [op] }

/-- One operation of a task: the map and the job afterwards. -/
def operate (map : AssocMap κ ν) (job : Job κ ν Q A ρ α) (answer : Option A) :
    Option (AssocMap κ ν × Job κ ν Q A ρ α) :=
  match job.task, answer with
  | .done _, _ => none
  | .get key next, _ =>
    some (map, Job.next job (next (map.lookup key)) (.read key (map.lookup key)))
  | .put key value next, _ =>
    some (map.insert key value, Job.next job next (.wrote key value))
  | .ask question next, some a => some (map, Job.next job (next a) (.asked question a))
  | .ask _ _, none => none

/-- One event. -/
def step (spawn : ρ → Task κ ν Q A α) (s : Pool κ ν Q A ρ α) :
    PoolEvent κ A ρ → Option (Pool κ ν Q A ρ α)
  | .start request =>
    some { s with jobs := s.jobs ++ [{ request := request, task := spawn request, log := [] }] }
  | .advance i answer => do
    let job ← s.jobs[i]?
    let (map, job') ← operate s.map job answer
    some { map := map, jobs := s.jobs.set i job' }
  | .drop key => some { s with map := s.map.erase key }

variable {spawn : ρ → Task κ ν Q A α} {s s' : Pool κ ν Q A ρ α}

/-- **What an operation does**: one entry is appended to the log, it is the one the task's tree
allows, and the map changes with a write only. -/
theorem operate_cases {map map' : AssocMap κ ν} {job job' : Job κ ν Q A ρ α} {answer : Option A}
    (h : operate map job answer = some (map', job')) :
    (∃ key next, job.task = .get key next ∧ map' = map ∧
      job' = Job.next job (next (map.lookup key)) (.read key (map.lookup key))) ∨
    (∃ key value next, job.task = .put key value next ∧ map' = map.insert key value ∧
      job' = Job.next job next (.wrote key value)) ∨
    (∃ question next a, job.task = .ask question next ∧ map' = map ∧
      job' = Job.next job (next a) (.asked question a)) := by
  unfold operate at h
  split at h
  case h_1 => exact absurd h (by simp)
  case h_2 key next htask =>
    cases h
    exact .inl ⟨key, next, htask, rfl, rfl⟩
  case h_3 key value next htask =>
    cases h
    exact .inr (.inl ⟨key, value, next, htask, rfl, rfl⟩)
  case h_4 question next a htask =>
    cases h
    exact .inr (.inr ⟨question, next, a, htask, rfl, rfl⟩)
  case h_5 => exact absurd h (by simp)

/-- **What an event does**: it adds a task that has done nothing, replaces one task by the same one
after an operation, or takes an entry away. -/
theorem step_cases {e : PoolEvent κ A ρ} (h : step spawn s e = some s') :
    (∃ request, s' = { s with
      jobs := s.jobs ++ [{ request := request, task := spawn request, log := [] }] }) ∨
    (∃ i job answer map job', s.jobs[i]? = some job ∧
      operate s.map job answer = some (map, job') ∧
      s' = { map := map, jobs := s.jobs.set i job' }) ∨
    (∃ key, s' = { s with map := s.map.erase key }) := by
  cases e with
  | start request =>
    cases h
    exact .inl ⟨request, rfl⟩
  | advance i answer =>
    simp only [step, Option.bind_eq_bind, Option.bind_eq_some_iff] at h
    obtain ⟨job, hjob, ⟨map, job'⟩, hop, hs⟩ := h
    cases hs
    exact .inr (.inl ⟨i, job, answer, map, job', hjob, hop, rfl⟩)
  | drop key =>
    cases h
    exact .inr (.inr ⟨key, rfl⟩)

/-! ## Promises along a run -/

section Promises

variable (may : ρ → List (Op κ ν Q A) → κ → ν → Prop) (post : ρ → List (Op κ ν Q A) → α → Prop)

/-- A job is on its way to keep its promise, and what it has written so far met it. -/
def Keeps (job : Job κ ν Q A ρ α) : Prop :=
  (job.task).Meets (may job.request) (post job.request) job.log ∧
    ∀ key value, .wrote key value ∈ job.log → may job.request job.log key value

variable {may post}

/-- An operation of a task keeps its promise, if what may be written stays so with a longer log. -/
theorem Keeps.operate {map map' : AssocMap κ ν} {job job' : Job κ ν Q A ρ α} {answer : Option A}
    (hmono : ∀ request log op key value, may request log key value →
      may request (log ++ [op]) key value)
    (h : Keeps may post job) (hop : operate map job answer = some (map', job')) :
    Keeps may post job' := by
  obtain ⟨hmeets, hwrote⟩ := h
  rcases operate_cases hop with ⟨key, next, htask, rfl, rfl⟩ |
    ⟨key, value, next, htask, rfl, rfl⟩ | ⟨question, next, a, htask, rfl, rfl⟩
  · rw [htask] at hmeets
    refine ⟨hmeets _, fun k v hmem => ?_⟩
    simp only [Job.next, List.mem_append, List.mem_singleton, reduceCtorEq, or_false] at hmem
    exact hmono _ _ _ _ _ (hwrote k v hmem)
  · rw [htask] at hmeets
    refine ⟨hmeets.2, fun k v hmem => ?_⟩
    simp only [Job.next, List.mem_append, List.mem_singleton, Op.wrote.injEq] at hmem
    rcases hmem with hmem | ⟨rfl, rfl⟩
    · exact hmono _ _ _ _ _ (hwrote k v hmem)
    · exact hmono _ _ _ _ _ hmeets.1
  · rw [htask] at hmeets
    refine ⟨hmeets a, fun k v hmem => ?_⟩
    simp only [Job.next, List.mem_append, List.mem_singleton, reduceCtorEq, or_false] at hmem
    exact hmono _ _ _ _ _ (hwrote k v hmem)

/-- **Every task of every run keeps its promise**, if every task that can be started does. -/
theorem meets_of_run
    (hmono : ∀ request log op key value, may request log key value →
      may request (log ++ [op]) key value)
    (hspawn : ∀ request, (spawn request).Meets (may request) (post request) [])
    {events : List (PoolEvent κ A ρ)} (hrun : runEvents (step spawn) empty events = some s) :
    ∀ job ∈ s.jobs, Keeps may post job := by
  have hinit : ∀ job ∈ (empty : Pool κ ν Q A ρ α).jobs, Keeps may post job := by
    intro job hjob
    cases hjob
  refine runEvents_invariant (P := fun _ _ => True) (I := fun s => ∀ job ∈ s.jobs, Keeps may post job)
    ?_ hinit (.of_forall (fun _ _ => trivial) _ _) hrun
  intro s e s' hI _ hstep job hjob
  rcases step_cases hstep with ⟨request, rfl⟩ | ⟨i, old, answer, map, new, hold, hop, rfl⟩ |
    ⟨key, rfl⟩
  · rcases List.mem_append.mp hjob with hjob | hjob
    · exact hI job hjob
    · rw [List.mem_singleton.mp hjob]
      exact ⟨hspawn request, fun _ _ hmem => absurd hmem List.not_mem_nil⟩
  · rcases List.mem_or_eq_of_mem_set hjob with hjob | rfl
    · exact hI job hjob
    · exact (hI old (List.mem_of_getElem? hold)).operate hmono hop
  · exact hI job hjob

end Promises

/-! ## Where values come from -/

/-- Some task of the pool has written this entry. -/
def Written (s : Pool κ ν Q A ρ α) (key : κ) (value : ν) : Prop :=
  ∃ job ∈ s.jobs, .wrote key value ∈ job.log

/-- Every value in the map, and every value read from it, was written by a task of the pool. -/
structure Accounted (s : Pool κ ν Q A ρ α) : Prop where
  map : ∀ key value, s.map.lookup key = some value → Written s key value
  reads : ∀ job ∈ s.jobs, ∀ key value, .read key (some value) ∈ job.log → Written s key value

/-- Logs only grow. -/
lemma Written.step {e : PoolEvent κ A ρ} (h : step spawn s e = some s') {key : κ} {value : ν}
    (hw : Written s key value) : Written s' key value := by
  obtain ⟨job, hjob, hmem⟩ := hw
  rcases step_cases h with ⟨request, rfl⟩ | ⟨i, old, answer, map, new, hold, hop, rfl⟩ | ⟨k, rfl⟩
  · exact ⟨job, List.mem_append_left _ hjob, hmem⟩
  · obtain ⟨n, hn⟩ := List.mem_iff_getElem?.mp hjob
    by_cases heq : n = i
    · subst heq
      obtain rfl : old = job := Option.some.inj (hold.symm.trans hn)
      have hlen : n < s.jobs.length := (List.getElem?_eq_some_iff.mp hn).1
      refine ⟨new, List.mem_set hlen new, ?_⟩
      rcases operate_cases hop with ⟨_, _, _, _, rfl⟩ | ⟨_, _, _, _, _, rfl⟩ | ⟨_, _, _, _, _, rfl⟩
      · exact List.mem_append_left _ hmem
      · exact List.mem_append_left _ hmem
      · exact List.mem_append_left _ hmem
    · refine ⟨job, ?_, hmem⟩
      refine List.mem_iff_getElem?.mpr ⟨n, ?_⟩
      rw [List.getElem?_set_ne (Ne.symm heq), hn]
  · exact ⟨job, hjob, hmem⟩

/-- **Every run is accounted for.**

**Proof sketch.** A read copies an entry of the map, and a write puts into the map what it puts
into the log; all that has been written stays so, since logs only grow. -/
theorem accounted_of_run {events : List (PoolEvent κ A ρ)}
    (hrun : runEvents (step spawn) empty events = some s) : Accounted s := by
  have hinit : Accounted (empty : Pool κ ν Q A ρ α) := by
    refine ⟨fun key value h => ?_, fun job hjob => absurd hjob List.not_mem_nil⟩
    exact absurd h (by simp [empty])
  refine runEvents_invariant (P := fun _ _ => True) (I := Accounted) ?_ hinit
    (.of_forall (fun _ _ => trivial) _ _) hrun
  intro s e s' hI _ hstep
  have hgrow : ∀ {key : κ} {value : ν}, Written s key value → Written s' key value :=
    fun hw => hw.step hstep
  rcases step_cases hstep with ⟨request, rfl⟩ | ⟨i, old, answer, map, new, hold, hop, rfl⟩ |
    ⟨k, rfl⟩
  · refine ⟨fun key value h => hgrow (hI.map key value h), fun job hjob key value hmem => ?_⟩
    rcases List.mem_append.mp hjob with hjob | hjob
    · exact hgrow (hI.reads job hjob key value hmem)
    · rw [List.mem_singleton.mp hjob] at hmem
      exact absurd hmem List.not_mem_nil
  · have hnew : new ∈ s.jobs.set i new :=
      List.mem_set (List.getElem?_eq_some_iff.mp hold).1 new
    have hreads : ∀ key value, .read key (some value) ∈ new.log →
        s.map.lookup key = some value ∨ .read key (some value) ∈ old.log := by
      intro key value hmem
      rcases operate_cases hop with ⟨k, _, _, _, rfl⟩ | ⟨_, _, _, _, _, rfl⟩ |
        ⟨_, _, _, _, _, rfl⟩ <;>
        simp only [Job.next, List.mem_append, List.mem_singleton, reduceCtorEq, or_false,
          Op.read.injEq] at hmem
      · rcases hmem with hmem | ⟨rfl, hv⟩
        · exact .inr hmem
        · exact .inl hv.symm
      · exact .inr hmem
      · exact .inr hmem
    constructor
    · intro key value h
      rcases operate_cases hop with ⟨_, _, _, rfl, _⟩ | ⟨k, v, _, _, rfl, hjob⟩ |
        ⟨_, _, _, _, rfl, _⟩
      · exact hgrow (hI.map key value h)
      · simp only [AssocMap.lookup_insert_eq] at h
        split_ifs at h with hk
        · cases h
          subst hk
          refine ⟨new, hnew, ?_⟩
          rw [hjob]
          exact List.mem_append_right _ (List.mem_singleton_self _)
        · exact hgrow (hI.map key value h)
      · exact hgrow (hI.map key value h)
    · intro job hjob key value hmem
      rcases List.mem_or_eq_of_mem_set hjob with hjob | rfl
      · exact hgrow (hI.reads job hjob key value hmem)
      · rcases hreads key value hmem with h | h
        · exact hgrow (hI.map key value h)
        · exact hgrow (hI.reads old (List.mem_of_getElem? hold) key value h)
  · refine ⟨fun key value h => ?_, hI.reads⟩
    simp only [AssocMap.lookup_erase_eq] at h
    split_ifs at h with hk
    exact hgrow (hI.map key value h)

end Pool

end Lib
