import Tangerine.Types

/-!
# The non-blocking dispatcher

`nonBlocking` (`core/nonblocking.go`) makes the application's `BlockConfirmed` and
`BlockDelivered` return at once: each call appends an event to `events` under the mutex
of the condition `eventsChange`, and one worker goroutine (`run`) pops the events one at
a time and makes the application call. `wait` blocks until the queue is empty and no
event is being dispatched.

The system is modelled by its steps, any of which may come next, with any number of
producers and of `wait` callers:

- a producer's whole `addEvent`, and the worker's pop with its `running.Add(1)`, are
  critical sections: each is one step, taken only while no `wait` caller holds the mutex;
- the worker's other steps are the application call, its return, and `running.Done()`;
- a `wait` caller holds the mutex across steps: it takes it, tests the queue, and either
  sleeps in `eventsChange.Wait()`, giving the mutex back, or, the queue being empty,
  blocks in `running.Wait()` with the mutex held, and returns when the count is zero.

A sleeping caller may take the mutex again at any step, which covers every wake-up a
`Broadcast` causes, and more. Three logs the code does not keep record the history:
the events in the order their `addEvent` ran, those passed to the application, and those
whose application call has returned.
-/

/-- The events the dispatcher queues. -/
inductive Event
  /-- `blockConfirmedEvent`, for `app.BlockConfirmed`. -/
  | blockConfirmed (block : Block)
  /-- `blockDeliveredEvent`, for `app.BlockDelivered`. -/
  | blockDelivered (blockHash : Hash) (blockPosition : Position) (rand : Bytes)
deriving DecidableEq

/-- Where the worker is in its loop. -/
inductive Worker
  /-- At the top of the loop: it takes the mutex and pops when the queue is not empty. -/
  | idle
  /-- It has popped `event` and not yet passed it to the application. -/
  | popped (event : Event)
  /-- In the application call for `event`. -/
  | calling (event : Event)
  /-- The application call has returned; `running.Done()` is next. -/
  | returned
deriving DecidableEq

namespace Worker

/-- The event popped and not yet passed to the application. -/
def inFlight : Worker → List Event
  | popped e => [e]
  | _ => []

/-- The event whose application call has not returned. -/
def inCall : Worker → List Event
  | calling e => [e]
  | _ => []

/-- What the worker adds to the wait group. -/
def busy : Worker → ℕ
  | idle => 0
  | _ => 1

end Worker

/-- Where a `wait` caller is. `mark` is the number of events submitted when it called. -/
inductive Waiter
  /-- Not called. -/
  | idle
  /-- Called, about to take the mutex. -/
  | locking (mark : ℕ)
  /-- Holds the mutex and tests `len(nb.events) > 0`. -/
  | checking (mark : ℕ)
  /-- In `eventsChange.Wait()`, the mutex given back. -/
  | sleeping (mark : ℕ)
  /-- Holds the mutex, in `running.Wait()`. -/
  | draining (mark : ℕ)
  /-- `wait` has returned. -/
  | finished (mark : ℕ)
deriving DecidableEq

namespace Waiter

/-- The mark of a caller, `0` before the call. -/
def mark : Waiter → ℕ
  | idle => 0
  | locking m | checking m | sleeping m | draining m | finished m => m

/-- The caller holds the mutex. -/
def HoldsLock : Waiter → Prop
  | checking _ | draining _ => True
  | _ => False

end Waiter

/-- The dispatcher, the state of its `wait` callers, and the three history logs. -/
structure NonBlocking where
  /-- `nb.events`. -/
  events : List Event
  /-- The count of `nb.running`. -/
  running : ℕ
  /-- The worker goroutine. -/
  worker : Worker
  /-- The `wait` callers. -/
  waiters : ℕ → Waiter
  /-- The `wait` caller holding `eventsChange.L` between steps, if any. -/
  holder : Option ℕ
  /-- The events, in the order their `addEvent` ran. -/
  submitted : List Event
  /-- The events passed to the application, in order. -/
  delivered : List Event
  /-- The events whose application call has returned, in order. -/
  returned : List Event

namespace NonBlocking

/-- A step of one goroutine. -/
inductive Action
  /-- A producer's `addEvent(event)`, from `BlockConfirmed` or `BlockDelivered`. -/
  | addEvent (event : Event)
  /-- The worker pops the first event and calls `running.Add(1)`. -/
  | pop
  /-- The worker calls the application with the popped event. -/
  | call
  /-- The application call returns. -/
  | ret
  /-- The worker calls `running.Done()`. -/
  | done
  /-- Caller `w` calls `wait()`. -/
  | waitCall (w : ℕ)
  /-- Caller `w` takes the mutex, first or on waking. -/
  | waitLock (w : ℕ)
  /-- Caller `w` tests the queue: it sleeps if there are events, else drains. -/
  | waitCheck (w : ℕ)
  /-- `running.Wait()` returns to caller `w`, which gives the mutex back and returns. -/
  | waitReturn (w : ℕ)

/-- The event a step submits: that of an `addEvent`, none for the other steps. -/
def Action.added : Action → Option Event
  | .addEvent e => some e
  | _ => none

/-- `newNonBlocking`: nothing queued, nothing running. -/
def init : NonBlocking := ⟨[], 0, .idle, fun _ => .idle, none, [], [], []⟩

/-- The dispatcher after a step, `none` if the step cannot be taken. -/
def step (s : NonBlocking) : Action → Option NonBlocking
  | .addEvent e =>
    if s.holder = none then
      some { s with events := s.events ++ [e], submitted := s.submitted ++ [e] }
    else none
  | .pop =>
    match s.holder, s.worker, s.events with
    | none, .idle, e :: rest =>
      some { s with events := rest, running := s.running + 1, worker := .popped e }
    | _, _, _ => none
  | .call =>
    match s.worker with
    | .popped e => some { s with worker := .calling e, delivered := s.delivered ++ [e] }
    | _ => none
  | .ret =>
    match s.worker with
    | .calling e => some { s with worker := .returned, returned := s.returned ++ [e] }
    | _ => none
  | .done =>
    match s.worker with
    | .returned => some { s with worker := .idle, running := s.running - 1 }
    | _ => none
  | .waitCall w =>
    match s.waiters w with
    | .idle => some { s with waiters := Function.update s.waiters w (.locking s.submitted.length) }
    | _ => none
  | .waitLock w =>
    match s.holder, s.waiters w with
    | none, .locking m | none, .sleeping m =>
      some { s with holder := some w, waiters := Function.update s.waiters w (.checking m) }
    | _, _ => none
  | .waitCheck w =>
    match s.waiters w with
    | .checking m =>
      if s.events = [] then
        some { s with waiters := Function.update s.waiters w (.draining m) }
      else some { s with holder := none, waiters := Function.update s.waiters w (.sleeping m) }
    | _ => none
  | .waitReturn w =>
    match s.waiters w with
    | .draining m =>
      if s.running = 0 then
        some { s with holder := none, waiters := Function.update s.waiters w (.finished m) }
      else none
    | _ => none

/-- **The reachable states**: those `newNonBlocking` leads to by steps. -/
inductive Reachable : NonBlocking → Prop
  | init : Reachable init
  | step {s s' : NonBlocking} {a : Action} : Reachable s → s.step a = some s' → Reachable s'

/-- A schedule of steps. -/
def run (acts : List Action) (s : NonBlocking) : Option NonBlocking :=
  acts.foldlM step s

theorem reachable_run :
    ∀ {acts : List Action} {s s' : NonBlocking}, Reachable s → run acts s = some s' →
      Reachable s'
  | [], _, _, hs, h => by cases h; exact hs
  | a :: acts, s, s', hs, h => by
    obtain ⟨s₁, h₁, h₂⟩ := Option.bind_eq_some.1 h
    exact reachable_run (.step hs h₁) h₂


/-! ## What a step can do -/

variable {s s' : NonBlocking}

/-- **The steps, inverted**: each step that can be taken, with its guard and the state it
leads to. Every property of steps below is proved from this lemma alone. -/
theorem step_cases {a : Action} (h : s.step a = some s') :
    (∃ e, s.holder = none ∧
      s' = { s with events := s.events ++ [e], submitted := s.submitted ++ [e] }) ∨
    (∃ e rest, s.holder = none ∧ s.worker = .idle ∧ s.events = e :: rest ∧
      s' = { s with events := rest, running := s.running + 1, worker := .popped e }) ∨
    (∃ e, s.worker = .popped e ∧
      s' = { s with worker := .calling e, delivered := s.delivered ++ [e] }) ∨
    (∃ e, s.worker = .calling e ∧
      s' = { s with worker := .returned, returned := s.returned ++ [e] }) ∨
    (s.worker = .returned ∧ s' = { s with worker := .idle, running := s.running - 1 }) ∨
    (∃ w, s.waiters w = .idle ∧
      s' = { s with waiters := Function.update s.waiters w (.locking s.submitted.length) }) ∨
    (∃ w m, s.holder = none ∧ (s.waiters w = .locking m ∨ s.waiters w = .sleeping m) ∧
      s' = { s with holder := some w, waiters := Function.update s.waiters w (.checking m) }) ∨
    (∃ w m, s.waiters w = .checking m ∧ s.events = [] ∧
      s' = { s with waiters := Function.update s.waiters w (.draining m) }) ∨
    (∃ w m, s.waiters w = .checking m ∧ s.events ≠ [] ∧
      s' = { s with holder := none, waiters := Function.update s.waiters w (.sleeping m) }) ∨
    (∃ w m, s.waiters w = .draining m ∧ s.running = 0 ∧
      s' = { s with holder := none, waiters := Function.update s.waiters w (.finished m) }) := by
  cases a with
  | addEvent e =>
    simp only [NonBlocking.step] at h
    split_ifs at h with hf
    cases h
    exact .inl ⟨e, hf, rfl⟩
  | pop =>
    simp only [NonBlocking.step] at h
    split at h <;> cases h
    rename_i e rest hf hw hev
    exact .inr (.inl ⟨e, rest, hf, hw, hev, rfl⟩)
  | call =>
    simp only [NonBlocking.step] at h
    split at h <;> cases h
    exact .inr (.inr (.inl ⟨_, ‹_›, rfl⟩))
  | ret =>
    simp only [NonBlocking.step] at h
    split at h <;> cases h
    exact .inr (.inr (.inr (.inl ⟨_, ‹_›, rfl⟩)))
  | done =>
    simp only [NonBlocking.step] at h
    split at h <;> cases h
    exact .inr (.inr (.inr (.inr (.inl ⟨‹_›, rfl⟩))))
  | waitCall w =>
    simp only [NonBlocking.step] at h
    split at h <;> cases h
    exact .inr (.inr (.inr (.inr (.inr (.inl ⟨w, ‹_›, rfl⟩)))))
  | waitLock w =>
    simp only [NonBlocking.step] at h
    split at h
    all_goals first
      | (cases h; done)
      | (rename_i m hf hw
         cases h
         exact .inr (.inr (.inr (.inr (.inr (.inr (.inl ⟨w, m, hf, by simp [hw], rfl⟩)))))))
  | waitCheck w =>
    simp only [NonBlocking.step] at h
    split at h <;> try cases h
    rename_i m hw
    split_ifs at h with he <;> cases h
    · exact .inr (.inr (.inr (.inr (.inr (.inr (.inr (.inl ⟨w, m, hw, he, rfl⟩)))))))
    · exact .inr (.inr (.inr (.inr (.inr (.inr (.inr (.inr (.inl ⟨w, m, hw, he, rfl⟩))))))))
  | waitReturn w =>
    simp only [NonBlocking.step] at h
    split at h <;> try cases h
    rename_i m hw
    split_ifs at h with hr
    cases h
    exact .inr (.inr (.inr (.inr (.inr (.inr (.inr (.inr (.inr ⟨w, m, hw, hr, rfl⟩))))))))

/-! ## The invariant -/

/-- **The dispatcher invariant.** -/
structure Inv (s : NonBlocking) : Prop where
  /-- What was passed to the application, the event in flight, and the queue make up
  the submitted events, in order. -/
  inOrder : s.delivered ++ s.worker.inFlight ++ s.events = s.submitted
  /-- What returned, then the event in the application call, is what was passed. -/
  inCall : s.returned ++ s.worker.inCall = s.delivered
  /-- The wait group counts the worker's event. -/
  running : s.running = s.worker.busy
  /-- A caller testing the queue or draining holds the mutex. -/
  holds : ∀ w, (s.waiters w).HoldsLock → s.holder = some w
  /-- A draining caller saw the queue empty, and it stays so. -/
  drained : ∀ w m, s.waiters w = .draining m → s.events = []
  /-- A mark counts events already submitted. -/
  marks : ∀ w, (s.waiters w).mark ≤ s.submitted.length
  /-- A caller whose `wait` returned saw every event submitted before its call return. -/
  finished : ∀ w m, s.waiters w = .finished m → s.submitted.take m <+: s.returned

theorem inv_init : Inv init where
  inOrder := rfl
  inCall := rfl
  running := rfl
  holds _ h := nomatch h
  drained _ _ h := nomatch h
  marks _ := Nat.zero_le _
  finished _ _ h := nomatch h

/-- No caller holds the mutex while it is free. -/
theorem Inv.not_holdsLock (hi : Inv s) (hf : s.holder = none) (w : ℕ) :
    ¬ (s.waiters w).HoldsLock := fun h => by
  have := hi.holds w h
  simp_all

/-- The worker's steps and the producers' keep the callers' part of the invariant when
the queue changes only while the mutex is free and the logs only grow. -/
theorem Inv.worker_step (hi : Inv s) {s' : NonBlocking}
    (hw : s'.waiters = s.waiters) (hh : s'.holder = s.holder)
    (hev : s.holder ≠ none → s'.events = s.events)
    (hsub : s.submitted <+: s'.submitted) (hret : s.returned <+: s'.returned)
    (hflow : s'.delivered ++ s'.worker.inFlight ++ s'.events = s'.submitted ∧
      s'.returned ++ s'.worker.inCall = s'.delivered ∧ s'.running = s'.worker.busy) :
    Inv s' := by
  obtain ⟨l, hl⟩ := hsub
  refine ⟨hflow.1, hflow.2.1, hflow.2.2, fun w h => ?_, fun w m h => ?_, fun w => ?_,
    fun w m h => ?_⟩ <;> rw [hw] at *
  · rw [hh]; exact hi.holds w h
  · by_cases hf : s.holder = none
    · exact absurd (by rw [h]; trivial) (hi.not_holdsLock hf w)
    · rw [hev hf]; exact hi.drained w m h
  · rw [← hl, List.length_append]; exact (hi.marks w).trans (Nat.le_add_right _ _)
  · have hm : m ≤ s.submitted.length := by simpa [h, Waiter.mark] using hi.marks w
    rw [← hl, List.take_append_of_le_length hm]
    exact (hi.finished w m h).trans hret

/-- A caller's step, which moves caller `w` to `p` and sets the holder of the mutex,
keeps the invariant when `p` and the holder agree, the other callers that hold the
mutex still do, and `p` is a state the callers' part of the invariant allows. -/
theorem Inv.waiter_step (hi : Inv s) (w : ℕ) (p : Waiter) (holder : Option ℕ)
    (hholds : p.HoldsLock → holder = some w)
    (hothers : ∀ w', w' ≠ w → (s.waiters w').HoldsLock → holder = some w')
    (hdrained : ∀ m, p = .draining m → s.events = [])
    (hmark : p.mark ≤ s.submitted.length)
    (hfin : ∀ m, p = .finished m → s.submitted.take m <+: s.returned) :
    Inv { s with waiters := Function.update s.waiters w p, holder := holder } := by
  refine ⟨hi.inOrder, hi.inCall, hi.running, fun w' h => ?_, fun w' m h => ?_, fun w' => ?_,
    fun w' m h => ?_⟩ <;> rcases eq_or_ne w' w with rfl | hw
  · exact hholds (by simpa using h)
  · exact hothers w' hw (by simpa [hw] using h)
  · exact hdrained m (by simpa using h)
  · exact hi.drained w' m (by simpa [hw] using h)
  · simpa using hmark
  · simpa [hw] using hi.marks w'
  · exact hfin m (by simpa using h)
  · exact hi.finished w' m (by simpa [hw] using h)

/-- Only the caller holding the mutex is in a state that holds it. -/
theorem Inv.holder_unique (hi : Inv s) {w w' : ℕ} (hh : s.holder = some w) (hw' : w' ≠ w) :
    ¬ (s.waiters w').HoldsLock :=
  fun h => hw' (Option.some.inj ((hi.holds w' h).symm.trans hh))

/-- **Every step keeps the invariant.** -/
theorem Inv.step (hi : Inv s) {a : Action} (h : s.step a = some s') : Inv s' := by
  have ho := hi.inOrder
  have hc := hi.inCall
  have hr := hi.running
  rcases step_cases h with ⟨e, hf, rfl⟩ | ⟨e, rest, hf, hw, hev, rfl⟩ | ⟨e, hw, rfl⟩ |
    ⟨e, hw, rfl⟩ | ⟨hw, rfl⟩ | ⟨w, hw, rfl⟩ | ⟨w, m, hf, hw, rfl⟩ |
    ⟨w, m, hw, he, rfl⟩ | ⟨w, m, hw, he, rfl⟩ | ⟨w, m, hw, hz, rfl⟩
  · -- a producer's `addEvent`
    exact hi.worker_step rfl rfl (absurd hf) (List.prefix_append _ _) (List.prefix_refl _)
      ⟨by simp [← ho], hc, hr⟩
  · -- the worker pops
    rw [hw] at ho hc hr
    exact hi.worker_step rfl rfl (absurd hf) (List.prefix_refl _) (List.prefix_refl _)
      ⟨by simpa [Worker.inFlight, hev] using ho, by simpa [Worker.inCall] using hc,
        by simp_all [Worker.busy]⟩
  · -- the application call
    rw [hw] at ho hc hr
    exact hi.worker_step rfl rfl (fun _ => rfl) (List.prefix_refl _) (List.prefix_refl _)
      ⟨by simpa [Worker.inFlight] using ho, by simpa [Worker.inCall] using hc, hr⟩
  · -- its return
    rw [hw] at ho hc hr
    exact hi.worker_step rfl rfl (fun _ => rfl) (List.prefix_refl _) (List.prefix_append _ _)
      ⟨by simpa [Worker.inFlight] using ho, by simpa [Worker.inCall] using hc, hr⟩
  · -- `running.Done()`
    rw [hw] at ho hc hr
    exact hi.worker_step rfl rfl (fun _ => rfl) (List.prefix_refl _) (List.prefix_refl _)
      ⟨by simpa [Worker.inFlight] using ho, by simpa [Worker.inCall] using hc,
        by simp_all [Worker.busy]⟩
  · -- `wait()` is called
    exact hi.waiter_step w _ s.holder nofun (fun w' _ => hi.holds w') nofun le_rfl nofun
  · -- the caller takes the mutex
    exact hi.waiter_step w _ (some w) (fun _ => rfl)
      (fun w' _ h => absurd h (hi.not_holdsLock hf w')) nofun
      (by rcases hw with hw | hw <;> simpa [hw, Waiter.mark] using hi.marks w) nofun
  · -- it finds the queue empty and drains
    have hh := hi.holds w (by rw [hw]; trivial)
    exact hi.waiter_step w _ s.holder (fun _ => hh) (fun w' _ => hi.holds w')
      (fun _ _ => he) (by simpa [hw, Waiter.mark] using hi.marks w) nofun
  · -- it finds events and sleeps
    have hh := hi.holds w (by rw [hw]; trivial)
    exact hi.waiter_step w _ none nofun (fun _ hw' h => absurd h (hi.holder_unique hh hw')) nofun
      (by simpa [hw, Waiter.mark] using hi.marks w) nofun
  · -- `running.Wait()` returns
    have hh := hi.holds w (by rw [hw]; trivial)
    refine hi.waiter_step w _ none nofun (fun _ hw' h => absurd h (hi.holder_unique hh hw')) nofun
      (by simpa [hw, Waiter.mark] using hi.marks w) fun m' hm' => ?_
    cases hm'
    have hidle : s.worker = .idle := by
      cases hwk : s.worker <;> simp_all [Worker.busy]
    rw [hidle, hi.drained w m hw] at ho
    rw [hidle] at hc
    simp only [Worker.inFlight, Worker.inCall, List.append_nil] at ho hc
    rw [← ho, ← hc]
    exact List.take_prefix _ _

theorem inv_of_reachable (h : Reachable s) : Inv s := by
  induction h with
  | init => exact inv_init
  | step _ hs hi => exact hi.step hs

/-! ## What a step keeps of the history -/

/-- **A step only appends to the submitted events**, and a caller that has called `wait`
keeps its mark. -/
theorem step_history {a : Action} (h : s.step a = some s') :
    s.submitted <+: s'.submitted ∧ ∀ w, s.waiters w ≠ .idle →
      s'.waiters w ≠ .idle ∧ (s'.waiters w).mark = (s.waiters w).mark := by
  have hsame : ∀ (w : ℕ) (p : Waiter), p ≠ .idle → p.mark = (s.waiters w).mark →
      ∀ w', s.waiters w' ≠ .idle → Function.update s.waiters w p w' ≠ .idle ∧
        (Function.update s.waiters w p w').mark = (s.waiters w').mark := by
    intro w p hp hm w' hw'
    rcases eq_or_ne w' w with rfl | hne
    · simpa using ⟨hp, hm⟩
    · simpa [hne] using hw'
  have hkeep : ∀ w, s.waiters w ≠ .idle → s.waiters w ≠ .idle ∧
      (s.waiters w).mark = (s.waiters w).mark := fun _ hw => ⟨hw, rfl⟩
  rcases step_cases h with ⟨e, -, rfl⟩ | ⟨-, -, -, -, -, rfl⟩ | ⟨-, -, rfl⟩ |
    ⟨-, -, rfl⟩ | ⟨-, rfl⟩ | ⟨w, hw, rfl⟩ | ⟨w, m, -, hw, rfl⟩ | ⟨w, m, hw, -, rfl⟩ |
    ⟨w, m, hw, -, rfl⟩ | ⟨w, m, hw, -, rfl⟩
  · exact ⟨List.prefix_append _ _, hkeep⟩
  · exact ⟨List.prefix_refl _, hkeep⟩
  · exact ⟨List.prefix_refl _, hkeep⟩
  · exact ⟨List.prefix_refl _, hkeep⟩
  · exact ⟨List.prefix_refl _, hkeep⟩
  · refine ⟨List.prefix_refl _, fun w' hw' => ?_⟩
    rcases eq_or_ne w' w with rfl | hne
    · exact absurd hw hw'
    · simpa [hne] using hw'
  · exact ⟨List.prefix_refl _,
      hsame w _ nofun (by rcases hw with hw | hw <;> simp [hw, Waiter.mark])⟩
  all_goals exact ⟨List.prefix_refl _, hsame w _ nofun (by simp [hw, Waiter.mark])⟩

theorem run_history :
    ∀ {acts : List Action} {s s' : NonBlocking}, run acts s = some s' →
      s.submitted <+: s'.submitted ∧
        ∀ w, s.waiters w ≠ .idle → s'.waiters w ≠ .idle ∧ (s'.waiters w).mark = (s.waiters w).mark
  | [], _, _, h => by cases h; exact ⟨List.prefix_refl _, fun w hw => ⟨hw, rfl⟩⟩
  | a :: acts, s, s', h => by
    obtain ⟨s₁, h₁, h₂⟩ := Option.bind_eq_some.1 h
    obtain ⟨hp₁, hw₁⟩ := step_history h₁
    obtain ⟨hp₂, hw₂⟩ := run_history h₂
    refine ⟨hp₁.trans hp₂, fun w hw => ?_⟩
    obtain ⟨hw₁', hm₁⟩ := hw₁ w hw
    obtain ⟨hw₂', hm₂⟩ := hw₂ w hw₁'
    exact ⟨hw₂', hm₂.trans hm₁⟩

/-- **The submitted log records exactly the `addEvent` steps**: a step appends the event
of an `addEvent`, and nothing else. -/
theorem step_submitted {a : Action} (h : s.step a = some s') :
    s'.submitted = s.submitted ++ a.added.toList := by
  cases a <;> simp only [NonBlocking.step] at h <;> (try split_ifs at h) <;> (try split at h) <;>
    first | (cases h; simp [Action.added]) | cases h

theorem run_submitted :
    ∀ {acts : List Action} {s s' : NonBlocking}, run acts s = some s' →
      s'.submitted = s.submitted ++ acts.filterMap Action.added
  | [], _, _, h => by cases h; simp
  | a :: acts, s, s', h => by
    obtain ⟨s₁, h₁, h₂⟩ := Option.bind_eq_some.1 h
    rw [run_submitted h₂, step_submitted h₁, List.filterMap_cons, List.append_assoc]
    cases a.added <;> rfl

/-! ## Delivery in order, and `wait` -/

/-- **Events reach the application in submission order, each at most once.** In every
reachable state, under every interleaving of producers, the worker and `wait` callers,
the events passed to the application, then the event in flight, then the queue, are
the submitted events in the order their `addEvent` ran; so the application has received
a prefix of that order. The submitted events are those of the schedule's `addEvent` steps,
in the schedule's order. -/
theorem delivered_in_submission_order (h : Reachable s) :
    (s.delivered ++ s.worker.inFlight ++ s.events = s.submitted ∧
      s.delivered <+: s.submitted) ∧
    ∀ acts, run acts init = some s → s.submitted = acts.filterMap Action.added := by
  have ho := (inv_of_reachable h).inOrder
  refine ⟨⟨ho, ?_⟩, fun acts hrun => by rw [run_submitted hrun]; rfl⟩
  rw [← ho, List.append_assoc]
  exact List.prefix_append _ _

/-- Two events submitted, the first popped and passed on. -/
theorem delivered_in_submission_order_two_events :
    ∃ s, run [.addEvent (.blockDelivered Hash.zero ⟨0, 0⟩ []),
        .addEvent (.blockDelivered Hash.zero ⟨0, 1⟩ []), .pop, .call] init = some s ∧
      (s.delivered ++ s.worker.inFlight ++ s.events = s.submitted ∧
        s.delivered <+: s.submitted) ∧
      ∀ acts, run acts init = some s → s.submitted = acts.filterMap Action.added :=
  ⟨_, rfl, delivered_in_submission_order (@reachable_run [.addEvent (.blockDelivered Hash.zero
    ⟨0, 0⟩ []), .addEvent (.blockDelivered Hash.zero ⟨0, 1⟩ []), .pop, .call] _ _ .init rfl)⟩

/-- **`wait` drains.** From any reachable state, if caller `w` calls `wait()` and, after
any interleaving of the other goroutines' steps, its `wait` returns, every event
submitted before the call has been passed to the application, and its application
call has returned. -/
theorem wait_drains {acts : List Action} {w m : ℕ} (hs : Reachable s)
    (hidle : s.waiters w = .idle) (hrun : run (.waitCall w :: acts) s = some s')
    (hfin : s'.waiters w = .finished m) :
    s.submitted <+: s'.delivered ∧ s.submitted <+: s'.returned := by
  obtain ⟨s₁, h₁, h₂⟩ := Option.bind_eq_some.1 hrun
  have hw₁ : s₁.waiters w = .locking s.submitted.length ∧ s₁.submitted = s.submitted := by
    simp only [NonBlocking.step, hidle] at h₁
    cases h₁
    simp
  obtain ⟨hsub, hmark⟩ := run_history h₂
  have hm : m = s.submitted.length := by
    have := (hmark w (by rw [hw₁.1]; nofun)).2
    rwa [hfin, hw₁.1] at this
  have hi := inv_of_reachable (reachable_run (.step hs h₁) h₂)
  have hret := hi.finished w m hfin
  rw [hm, ← hw₁.2, ← List.prefix_iff_eq_take.1 hsub, hw₁.2] at hret
  refine ⟨hret.trans ?_, hret⟩
  rw [← hi.inCall]
  exact List.prefix_append _ _

/-- An event submitted before `wait()` has been delivered and returned when it returns. -/
theorem wait_drains_one_event :
    ∃ s s', run [.addEvent (.blockDelivered Hash.zero ⟨0, 0⟩ [])] init = some s ∧
      s.waiters 0 = .idle ∧
      run [.waitCall 0, .pop, .call, .ret, .done, .waitLock 0, .waitCheck 0, .waitReturn 0] s =
        some s' ∧ s'.waiters 0 = .finished 1 ∧
      s.submitted <+: s'.delivered ∧ s.submitted <+: s'.returned :=
  ⟨_, _, rfl, rfl, rfl, rfl, @wait_drains _ _ [.pop, .call, .ret, .done, .waitLock 0,
    .waitCheck 0, .waitReturn 0] 0 _
    (@reachable_run [.addEvent (.blockDelivered Hash.zero ⟨0, 0⟩ [])] _ _ .init rfl) rfl rfl rfl⟩

end NonBlocking
