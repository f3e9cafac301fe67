import SteadyAdjoint.Proofs.Trips
import SteadyAdjoint.Proofs.AdjointCache
import SteadyAdjoint.Proofs.ForwardPhase
import SteadyAdjoint.Binary64.Double
import SteadyAdjoint.Model.Logistic
import SteadyAdjoint.Model.Poly

/-!
# Observers of a run

A call of `advance` reports each accepted step as an event and lets its caller stop the run
at an accepted state. This module shows what a caller sees and what it can change:

* the events of a call are its accepted steps in order: the history afterwards is the one
  before with the events' states pushed one by one, the events are numbered one step after
  the other, and each carries the norm of its state's time derivative;
* a run that is asked to stop goes exactly as the run that is not asked, up to the first
  accepted state that is asked to stop and is not steady: there it ends, failed, with the
  continuation the other run goes on from.

## Main statements

* `PushedEvents`: the events of a run against its history.
* `Continuation.advance_pushedEvents`: every call pushes exactly its events.
* `Continuation.ObservedAgrees`: the run asked to stop against the run that is not.
-/

namespace SteadyAdjoint.Integrator

/-! ## §1 Events pushed on a history -/

namespace History

variable {R : Type}

/-- The history with the states of `events` pushed in order. -/
def pushEvents (h : History R) (events : List (Event R)) : History R :=
  events.foldl (fun h e => h.push e.state) h

@[simp] theorem pushEvents_nil (h : History R) : h.pushEvents [] = h := rfl

@[simp] theorem pushEvents_append (h : History R) (events more : List (Event R)) :
    h.pushEvents (events ++ more) = (h.pushEvents events).pushEvents more :=
  List.foldl_append

@[simp] theorem pushEvents_singleton (h : History R) (e : Event R) :
    h.pushEvents [e] = h.push e.state := rfl

@[simp] theorem limit_push (h : History R) (s : SolutionState R) : (h.push s).limit = h.limit := by
  simp only [push]
  split
  · split <;> rfl
  · rfl

@[simp] theorem limit_pushEvents (h : History R) (events : List (Event R)) :
    (h.pushEvents events).limit = h.limit := by
  induction events using List.reverseRecOn with
  | nil => rfl
  | append_singleton events e ih => simp [ih]

/-- Without a storage limit, pushing events appends their states. -/
theorem toList_pushEvents_of_capacity_none (h : History R) (events : List (Event R))
    (hc : capacity h.limit = none) :
    (h.pushEvents events).toList = h.toList ++ events.map (·.state) := by
  induction events using List.reverseRecOn with
  | nil => simp
  | append_singleton events e ih =>
    rw [pushEvents_append, pushEvents_singleton,
      toList_push_of_capacity_none _ _ (by rwa [limit_pushEvents]), ih]
    simp

/-- After pushing events, the current state is the last event's. -/
theorem current_pushEvents_concat (h : History R) (events : List (Event R)) (e : Event R) :
    (h.pushEvents (events ++ [e])).current = some e.state := by
  rw [pushEvents_append, pushEvents_singleton, current_push]

end History

variable {R : Type} [Scalar R] {ε : Type}

/-- The events of a run against its history: the history `h` is `h₀` with the events' states
pushed in order, the events are the steps numbered one after the other from the one after
`i₀`, and each carries the norm of its state's time derivative. -/
structure PushedEvents (h₀ : History R) (i₀ : Nat) (h : History R) (events : List (Event R)) :
    Prop where
  history : h = h₀.pushEvents events
  indices : events.map (·.state.index) = List.range' (i₀ + 1) events.length
  rates : ∀ e ∈ events, e.rate = e.state.xDot.norm

namespace PushedEvents

variable {h₀ h : History R} {i₀ : Nat} {events : List (Event R)}

theorem nil (h₀ : History R) (i₀ : Nat) : PushedEvents h₀ i₀ h₀ [] :=
  ⟨rfl, rfl, by simp⟩

/-- One more accepted state, the step after the last one, pushed with its event. -/
theorem push (hp : PushedEvents h₀ i₀ h events) (e : Event R)
    (hIndex : e.state.index = i₀ + events.length + 1) (hRate : e.rate = e.state.xDot.norm) :
    PushedEvents h₀ i₀ (h.push e.state) (events ++ [e]) where
  history := by rw [hp.history, History.pushEvents_append, History.pushEvents_singleton]
  indices := by
    rw [List.map_append, hp.indices, List.length_append, List.length_singleton,
      List.range'_concat]
    simp only [List.map_cons, List.map_nil, hIndex, List.append_cancel_left_eq, List.cons.injEq,
      and_true]
    omega
  rates := by
    intro e' he'
    rcases List.mem_append.1 he' with he' | he'
    · exact hp.rates e' he'
    · rw [List.mem_singleton.1 he']
      exact hRate

/-- The step number of the current state, counted on from `i₀`: one per event. -/
theorem index_eq (hp : PushedEvents h₀ i₀ h events)
    (hStart : (h₀.current.map (·.index)).getD 0 = i₀) :
    (h.current.map (·.index)).getD 0 = i₀ + events.length := by
  rw [hp.history]
  rcases List.eq_nil_or_concat events with rfl | ⟨events', e, rfl⟩
  · simpa using hStart
  · rw [List.concat_eq_append] at hp ⊢
    have hLast := hp.indices
    rw [History.current_pushEvents_concat]
    simp only [List.map_append, List.map_cons, List.map_nil, List.length_append,
      List.length_singleton, List.range'_concat] at hLast
    have hIndex := List.append_inj_right' hLast (by simp)
    simp only [List.cons.injEq, and_true] at hIndex
    simp [hIndex]
    omega

end PushedEvents

/-! ## §2 The events of a run -/

/-- A point of a run that started from the history `h₀` at step `i₀`: its events so far,
oldest first, are pushed on its history, and the state it steps from is one step on per
event. -/
structure LoopPoint.Logged (h₀ : History R) (i₀ : Nat) (q : LoopPoint R) : Prop where
  pushed : PushedEvents h₀ i₀ q.cont.history q.events.reverse
  index : q.current.index = i₀ + q.events.length

/-- An accepted step from a logged point pushes its state with its event. -/
theorem LoopPoint.Logged.accept {h₀ : History R} {i₀ : Nat} {q : LoopPoint R}
    (hq : q.Logged h₀ i₀) {c : Continuation R} {dt : R} {step : Step R}
    (hHistory : c.history = q.cont.history.push (q.current.next dt step)) :
    PushedEvents h₀ i₀ c.history
      (⟨q.current.next dt step, step.xDot.norm⟩ :: q.events).reverse := by
  rw [List.reverse_cons, hHistory]
  exact hq.pushed.push ⟨q.current.next dt step, step.xDot.norm⟩ (by simp [hq.index]) rfl

namespace Continuation

variable {ode : ImplicitOde R ε} {tFinal : R} {stop : SolutionState R → R → Bool}
  {h₀ : History R} {i₀ : Nat}

theorem Pass.logged {q q' : LoopPoint R} (h : Pass ode tFinal stop q q')
    (hq : q.Logged h₀ i₀) : q'.Logged h₀ i₀ := by
  cases h with
  | retry => exact ⟨hq.pushed, hq.index⟩
  | accept =>
    refine ⟨hq.accept rfl, ?_⟩
    have hIndex := hq.index
    simp only at hIndex ⊢
    simp [hIndex]
    omega

/-- An exit pushes the events of the run: those so far, and the accepted state it ends at. -/
theorem Exit.pushed {q : LoopPoint R} {o : Outcome R ε} (h : Exit ode tFinal stop q o)
    (hq : q.Logged h₀ i₀) : PushedEvents h₀ i₀ o.1.history o.2.1 := by
  cases h with
  | finalTime | maxSteps | problem | breach | stepFailures | minTimeStep => exact hq.pushed
  | steady | stopped => exact hq.accept rfl

variable (ode tFinal stop) in
/-- **Every call of `advance` pushes exactly its events**: the history afterwards is the one
before with the states of the events pushed in order, the events are numbered on from the
current step, and each carries the norm of its state's time derivative. Rejected steps push
nothing and report nothing. -/
theorem advance_pushedEvents (c : Continuation R) :
    PushedEvents c.history c.index (c.advance ode tFinal stop).1.history
      (c.advance ode tFinal stop).2.1 := by
  rcases advance_cases ode tFinal stop c with ⟨-, hEq⟩ | ⟨_, -, -, hEq⟩ |
    ⟨current, q, hCurrent, -, hq, hExit⟩
  · rw [hEq]
    exact .nil _ _
  · rw [hEq]
    exact .nil _ _
  · -- the loop starts with nothing pushed, at the current step
    have hStart : LoopPoint.Logged c.history c.index
        ⟨{ c with calls := c.calls + 1 }, current, 0, []⟩ :=
      ⟨.nil _ _, by simp [index, hCurrent]⟩
    exact hExit.pushed (passes_invariant (LoopPoint.Logged c.history c.index)
      (fun hPass hq => hPass.logged hq) hq hStart)

variable (ode tFinal stop) in
/-- A call of `advance` moves the step number on by one per event. -/
theorem index_advance (c : Continuation R) :
    (c.advance ode tFinal stop).1.index = c.index + (c.advance ode tFinal stop).2.1.length :=
  (advance_pushedEvents ode tFinal stop c).index_eq rfl

end Continuation

/-! ## §3 The run asked to stop against the run that is not -/

namespace Continuation

@[simp] theorem stopWith_events (c : Continuation R) (events : List (Event R)) (t : Termination) :
    (c.stopWith (ε := ε) events t).2.1 = events.reverse := rfl

/-- An accepted state at which `stop` asks a run with the settings of `c` to stop while the
state is not steady: where such a run ends. -/
def StopsAt (c : Continuation R) (stop : SolutionState R → R → Bool) (e : Event R) : Prop :=
  stop e.state e.rate = true ∧ c.isSteady e.state.x e.rate = false

/-- The steady-state test reads the settings only. -/
theorem isSteady_of_config {c c' : Continuation R} (h : c'.config = c.config) :
    c'.isSteady = c.isSteady := by
  funext x rate
  simp [isSteady, h]

end Continuation

/-- A point of a run of `c` asked to stop by `stop`, reached with no event at which the run
was asked to stop while the state was not steady. -/
structure LoopPoint.Quiet (c : Continuation R) (stop : SolutionState R → R → Bool)
    (q : LoopPoint R) : Prop where
  config : q.cont.config = c.config
  quiet : ∀ e ∈ q.events, ¬ c.StopsAt stop e

namespace Continuation

variable {ode : ImplicitOde R ε} {tFinal : R} {stop : SolutionState R → R → Bool}

/-- A pass of a run asked to stop is a pass of the run that is not asked. -/
theorem Pass.unobserved {q q' : LoopPoint R} (h : Pass ode tFinal stop q q') :
    Pass ode tFinal (fun _ _ => false) q q' := by
  cases h with
  | retry hTime hBudget hStep hFail hCount hMin =>
    exact .retry hTime hBudget hStep hFail hCount hMin
  | accept hTime hBudget hStep hOk hSteady _ =>
    exact .accept hTime hBudget hStep hOk hSteady Bool.false_ne_true

theorem passes_unobserved {q q' : LoopPoint R}
    (h : Relation.ReflTransGen (Pass ode tFinal stop) q q') :
    Relation.ReflTransGen (Pass ode tFinal (fun _ _ => false)) q q' :=
  Relation.ReflTransGen.mono (fun _ _ => Pass.unobserved) _ _ h

/-- A pass adds no event at which the run is asked to stop: it went on. -/
theorem Pass.quiet {c : Continuation R} {q q' : LoopPoint R} (h : Pass ode tFinal stop q q')
    (hq : q.Quiet c stop) : q'.Quiet c stop := by
  cases h with
  | retry => exact ⟨hq.config, hq.quiet⟩
  | accept _ _ _ _ _ hGo =>
    refine ⟨hq.config, fun e he => ?_⟩
    rcases List.mem_cons.1 he with rfl | he
    · exact fun hStops => hGo hStops.1
    · exact hq.quiet e he

/-- A pass adds its events in front of those so far. -/
theorem Pass.events_extend {q q' : LoopPoint R} (h : Pass ode tFinal stop q q') :
    ∃ new, q'.events = new ++ q.events := by
  cases h with
  | retry => exact ⟨[], rfl⟩
  | accept => exact ⟨[_], rfl⟩

theorem passes_events_extend {q q' : LoopPoint R}
    (h : Relation.ReflTransGen (Pass ode tFinal stop) q q') :
    ∃ new, q'.events = new ++ q.events := by
  refine passes_invariant (fun q' => ∃ new, q'.events = new ++ q.events)
    (fun hPass hq => ?_) h ⟨[], rfl⟩
  obtain ⟨new, hNew⟩ := hq
  obtain ⟨new', hNew'⟩ := hPass.events_extend
  exact ⟨new' ++ new, by rw [hNew', hNew, List.append_assoc]⟩

/-- An exit reports the events so far, oldest first, and at most the state it ends at. -/
theorem Exit.events_extend {q : LoopPoint R} {o : Outcome R ε} (h : Exit ode tFinal stop q o) :
    ∃ more, o.2.1 = q.events.reverse ++ more := by
  cases h with
  | finalTime | maxSteps | problem | breach | stepFailures | minTimeStep =>
    exact ⟨[], (List.append_nil _).symm⟩
  | steady | stopped => exact ⟨[_], List.reverse_cons⟩

variable (ode tFinal stop) in
/-- The events of a run extend those it started with. -/
theorem loop_events (c : Continuation R) (current : SolutionState R) (failures : Nat)
    (events : List (Event R)) :
    ∃ more, (loop ode tFinal stop c current failures events).2.1 = events.reverse ++ more := by
  obtain ⟨q, hq, hExit⟩ := loop_passes ode tFinal stop c current failures events
  obtain ⟨new, hNew⟩ := passes_events_extend hq
  obtain ⟨more, hMore⟩ := hExit.events_extend
  exact ⟨new.reverse ++ more, by rw [hMore, hNew]; simp⟩

/-- **An exit of a run asked to stop** is an exit of the run that is not asked, with the same
outcome and no new event but a steady one; or it is the stop, at an accepted state that is not
steady, where the run that is not asked goes on. -/
theorem Exit.unobserved_or_stopped {q : LoopPoint R} {o : Outcome R ε}
    (h : Exit ode tFinal stop q o) :
    (Exit ode tFinal (fun _ _ => false) q o ∧
      ∀ e ∈ o.2.1, e ∈ q.events ∨ q.cont.isSteady e.state.x e.rate = true) ∨
    ∃ s attempt step,
      q.cont.stepper.takeStep ode q.current (q.cont.stepSize tFinal q.current) = (s, attempt) ∧
      attempt.bind (q.cont.attempted s).screen = .ok step ∧
      q.cont.isSteady step.x step.xDot.norm = false ∧
      stop (q.current.next (q.cont.stepSize tFinal q.current) step) step.xDot.norm = true ∧
      o = ((q.cont.attempted s).record
          (q.current.next (q.cont.stepSize tFinal q.current) step)).stopWith
        (⟨q.current.next (q.cont.stepSize tFinal q.current) step, step.xDot.norm⟩ :: q.events)
        .stoppedByObserver ∧
      Pass ode tFinal (fun _ _ => false) q
        ⟨((q.cont.attempted s).record
              (q.current.next (q.cont.stepSize tFinal q.current) step)).nextTimeStep
            step.xDot.norm,
          q.current.next (q.cont.stepSize tFinal q.current) step, 0,
          ⟨q.current.next (q.cont.stepSize tFinal q.current) step, step.xDot.norm⟩ ::
            q.events⟩ := by
  -- the exits that read no event report the events so far
  have hSoFar :
      ∀ e ∈ q.events.reverse, e ∈ q.events ∨ q.cont.isSteady e.state.x e.rate = true :=
    fun e he => .inl (List.mem_reverse.1 he)
  cases h with
  | finalTime hTime => exact .inl ⟨.finalTime hTime, hSoFar⟩
  | maxSteps hTime hBudget => exact .inl ⟨.maxSteps hTime hBudget, hSoFar⟩
  | problem hTime hBudget hStep hErr => exact .inl ⟨.problem hTime hBudget hStep hErr, hSoFar⟩
  | breach hTime hBudget hStep hErr => exact .inl ⟨.breach hTime hBudget hStep hErr, hSoFar⟩
  | stepFailures hTime hBudget hStep hFail hCount =>
    exact .inl ⟨.stepFailures hTime hBudget hStep hFail hCount, hSoFar⟩
  | minTimeStep hTime hBudget hStep hFail hCount hMin =>
    exact .inl ⟨.minTimeStep hTime hBudget hStep hFail hCount hMin, hSoFar⟩
  | steady hTime hBudget hStep hOk hSteady =>
    refine .inl ⟨.steady hTime hBudget hStep hOk hSteady, fun e he => ?_⟩
    simp only [stopWith_events, List.reverse_cons, List.mem_append, List.mem_reverse,
      List.mem_singleton] at he
    rcases he with he | rfl
    · exact .inl he
    · exact .inr hSteady
  | stopped hTime hBudget hStep hOk hSteady hStop =>
    exact .inr ⟨_, _, _, hStep, hOk, by simpa using hSteady, hStop, rfl,
      .accept hTime hBudget hStep hOk hSteady Bool.false_ne_true⟩

/-! ## §4 Runs asked to stop -/

/-- The run of `c` asked to stop by `stop` against the run that is not asked. Either no
accepted state of the second is one that `stop` asks to stop at while it is not steady, and the
two runs are the same; or the first such state `e` ends the run asked to stop, failed. Up to
`e` the two runs report the same events and pass through the same points, with the same
attempts, history, step sizes and calls; both take the same step there, and the run asked to
stop ends with the continuation from which the other goes on with its next step size. Its
history is the other's before the states after `e` are pushed. -/
def ObservedAgrees (c : Continuation R) (ode : ImplicitOde R ε) (tFinal : R)
    (stop : SolutionState R → R → Bool) : Prop :=
  let observed := c.advance ode tFinal stop
  let unobserved := c.advance ode tFinal fun _ _ => false
  ((∀ e ∈ unobserved.2.1, ¬ c.StopsAt stop e) ∧ observed = unobserved) ∨
  ∃ pre e post, unobserved.2.1 = pre ++ e :: post ∧ (∀ e' ∈ pre, ¬ c.StopsAt stop e') ∧
    c.StopsAt stop e ∧
    observed.2.1 = pre ++ [e] ∧ observed.2.2 = .ok false ∧ observed.1.status = .failed ∧
    observed.1.termination = some .stoppedByObserver ∧
    unobserved.1.history = observed.1.history.pushEvents post ∧
    ∃ q s attempt step,
      c.Visits ode tFinal stop q ∧ c.Visits ode tFinal (fun _ _ => false) q ∧
      q.cont.stepper.takeStep ode q.current (q.cont.stepSize tFinal q.current) = (s, attempt) ∧
      attempt.bind (q.cont.attempted s).screen = .ok step ∧
      e = ⟨q.current.next (q.cont.stepSize tFinal q.current) step, step.xDot.norm⟩ ∧
      observed = ((q.cont.attempted s).record e.state).stopWith (e :: q.events)
        .stoppedByObserver ∧
      unobserved = loop ode tFinal (fun _ _ => false)
        (((q.cont.attempted s).record e.state).nextTimeStep e.rate) e.state 0 (e :: q.events)

variable (ode tFinal stop) in
/-- **A run asked to stop agrees with the run that is not asked**, in the sense of
`ObservedAgrees`, from every continuation. -/
theorem observedAgrees (c : Continuation R) : c.ObservedAgrees ode tFinal stop := by
  have hPushed := advance_pushedEvents ode tFinal stop c
  have hPushed' := advance_pushedEvents ode tFinal (fun _ _ => false) c
  simp only [ObservedAgrees]
  cases hCurrent : c.history.current with
  | none =>
    rw [advance_of_empty hCurrent, advance_of_empty hCurrent]
    exact .inl ⟨by simp, rfl⟩
  | some current =>
    by_cases hWorking : c.status = .working
    swap
    · rw [advance_of_ended hCurrent hWorking, advance_of_ended hCurrent hWorking]
      exact .inl ⟨by simp, rfl⟩
    rw [advance_of_working hCurrent hWorking] at hPushed hPushed' ⊢
    rw [advance_of_working hCurrent hWorking]
    obtain ⟨q, hq, hExit⟩ :=
      loop_passes ode tFinal stop { c with calls := c.calls + 1 } current 0 []
    have hQuiet : q.Quiet c stop :=
      passes_invariant (LoopPoint.Quiet c stop) (fun hPass hq => hPass.quiet hq) hq ⟨rfl, by simp⟩
    -- up to `q` the run not asked to stop makes the same passes
    have hSame := passes_loop_eq (passes_unobserved hq)
    rcases hExit.unobserved_or_stopped with ⟨hExit', hEvents⟩ |
      ⟨s, attempt, step, hStep, hOk, hSteady, hStop, hEq, hPass⟩
    · -- both runs end at the same exit
      have hEq : loop ode tFinal (fun _ _ => false) { c with calls := c.calls + 1 } current 0 [] =
          loop ode tFinal stop { c with calls := c.calls + 1 } current 0 [] := by
        rw [hSame, hExit'.loop_eq]
      refine .inl ⟨fun e he => ?_, hEq.symm⟩
      rw [hEq] at he
      rcases hEvents e he with he | hSteadyAt
      · exact hQuiet.quiet e he
      · rw [isSteady_of_config hQuiet.config] at hSteadyAt
        exact fun hStops => by simp [StopsAt, hSteadyAt] at hStops
    · -- the stop: the run not asked goes on past it
      have hGoesOn := hSame.trans hPass.loop_eq
      obtain ⟨post, hPost⟩ := loop_events ode tFinal (fun _ _ => false) _ _ 0
        (⟨q.current.next (q.cont.stepSize tFinal q.current) step, step.xDot.norm⟩ :: q.events)
      have hUnobserved : (loop ode tFinal (fun _ _ => false) { c with calls := c.calls + 1 } current
          0 []).2.1 = q.events.reverse ++
            ⟨q.current.next (q.cont.stepSize tFinal q.current) step, step.xDot.norm⟩ ::
              post := by
        rw [hGoesOn, hPost, List.reverse_cons, List.append_assoc, List.singleton_append]
      have hObserved : (loop ode tFinal stop { c with calls := c.calls + 1 } current 0 []).2.1 =
          q.events.reverse ++
            [⟨q.current.next (q.cont.stepSize tFinal q.current) step, step.xDot.norm⟩] := by
        rw [hEq, stopWith_events, List.reverse_cons]
      refine .inr ⟨q.events.reverse, _, post, hUnobserved,
        fun e he => hQuiet.quiet e (List.mem_reverse.1 he),
        ⟨hStop, by rwa [← isSteady_of_config hQuiet.config]⟩, hObserved, ?_, ?_, ?_, ?_,
        q, s, attempt, step, ⟨current, hCurrent, hWorking, hq⟩,
        ⟨current, hCurrent, hWorking, passes_unobserved hq⟩, hStep, hOk, rfl, hEq, hGoesOn⟩
      · rw [hEq]
        simp
      · rw [hEq]
        simp
      · rw [hEq]
        simp
      · -- both histories are the one before with the events' states pushed
        rw [hPushed'.history, hPushed.history, hUnobserved, hObserved,
          ← History.pushEvents_append, List.append_assoc, List.singleton_append]

/-- The events of a run asked to stop begin the events of the run that is not asked. -/
theorem ObservedAgrees.events_prefix_unobserved {c : Continuation R}
    (h : c.ObservedAgrees ode tFinal stop) :
    (c.advance ode tFinal stop).2.1 <+: (c.advance ode tFinal fun _ _ => false).2.1 := by
  rcases h with ⟨-, hEq⟩ | ⟨pre, e, post, hUnobserved, -, -, hObserved, -⟩
  · rw [hEq]
  · rw [hObserved, hUnobserved]
    exact ⟨post, by simp⟩

/-- Without a storage limit, the history of a run asked to stop is a prefix of the history of
the run that is not asked. -/
theorem ObservedAgrees.history_prefix_unobserved {c : Continuation R}
    (h : c.ObservedAgrees ode tFinal stop) (hLimit : History.capacity c.history.limit = none) :
    (c.advance ode tFinal stop).1.history.toList <+:
      (c.advance ode tFinal fun _ _ => false).1.history.toList := by
  rcases h with ⟨-, hEq⟩ | ⟨pre, e, post, -, -, -, -, -, -, -, hHistory, -⟩
  · rw [hEq]
  · have hKept : History.capacity (c.advance ode tFinal stop).1.history.limit = none := by
      rw [(advance_pushedEvents ode tFinal stop c).history, History.limit_pushEvents]
      exact hLimit
    rw [hHistory, History.toList_pushEvents_of_capacity_none _ _ hKept]
    exact List.prefix_append _ _

/-! ## §5 Observers that keep state -/

/-- An observer that keeps state, given as its answer at the last of the events it has seen,
replayed along a run whose events are `events`, numbered on from step `i₀`: at the state of a
step it answers what the observer answers on the events up to that step. -/
def replayObserver (observer : List (Event R) → Bool) (events : List (Event R)) (i₀ : Nat) :
    SolutionState R → R → Bool :=
  fun state _ => observer (events.take (state.index - i₀))

variable (ode tFinal) in
/-- **An observer that keeps state is replayed by one that reads the step number.** Replayed
along the run that is not asked to stop, it answers at each event of the run it stops what the
observer answers on the events of that run so far: the two runs are the same. -/
theorem replayObserver_sees_run (c : Continuation R) (observer : List (Event R) → Bool) :
    let stop := replayObserver observer (c.advance ode tFinal fun _ _ => false).2.1 c.index
    ∀ i (hi : i < (c.advance ode tFinal stop).2.1.length),
      stop (c.advance ode tFinal stop).2.1[i].state (c.advance ode tFinal stop).2.1[i].rate =
        observer ((c.advance ode tFinal stop).2.1.take (i + 1)) := by
  intro stop i hi
  have hPrefix := (observedAgrees ode tFinal stop c).events_prefix_unobserved
  -- the event at `i` is the step `i + 1` after the current one
  have hIndex : (c.advance ode tFinal stop).2.1[i].state.index = c.index + (i + 1) := by
    have hIndices := congrArg (·[i]?) (advance_pushedEvents ode tFinal stop c).indices
    simp only [List.getElem?_map, List.getElem?_eq_getElem hi, Option.map_some,
      List.getElem?_range' (by simpa using hi)] at hIndices
    simpa [Nat.add_assoc, Nat.add_comm 1 i] using hIndices
  simp only [stop, replayObserver, hIndex, Nat.add_sub_cancel_left]
  rw [List.prefix_iff_eq_take.1 hPrefix, List.take_take, Nat.min_eq_left (by omega)]

end Continuation

/-! ## §6 Runs stopped by their observer -/

namespace Continuation

variable {ode : ImplicitOde R ε} {tFinal : R} {stop : SolutionState R → R → Bool}

theorem Pass.termination {q q' : LoopPoint R} (h : Pass ode tFinal stop q q') :
    q'.cont.termination = q.cont.termination := by
  cases h <;> rfl

theorem passes_termination {q q' : LoopPoint R}
    (h : Relation.ReflTransGen (Pass ode tFinal stop) q q') :
    q'.cont.termination = q.cont.termination :=
  passes_invariant (fun q' => q'.cont.termination = q.cont.termination)
    (fun hPass hq => hPass.termination.trans hq) h rfl

/-- A run that was not ended before, and that its observer stopped, reports no steady state. -/
theorem advance_stoppedByObserver {c : Continuation R} (hNone : c.termination = none)
    (h : (c.advance ode tFinal stop).1.termination = some .stoppedByObserver) :
    (c.advance ode tFinal stop).2.2 = .ok false := by
  rcases advance_cases ode tFinal stop c with ⟨-, hEq⟩ | ⟨_, -, -, hEq⟩ |
    ⟨_, q, -, -, hq, hExit⟩
  · simp [hEq, hNone] at h
  · simp [hEq, hNone] at h
  · have hTermination : q.cont.termination = none := (passes_termination hq).trans hNone
    generalize c.advance ode tFinal stop = o at hExit h ⊢
    -- every exit but the stop records another termination, or keeps none
    cases hExit with
    | stopped => simp
    | breach =>
      simp only at hTermination
      simp [hTermination] at h
    | finalTime | maxSteps | problem | stepFailures | minTimeStep | steady => simp at h

/-- A continuation just created is at step zero with no termination. -/
theorem fresh_of_create {config : Config R} {c : Continuation R} (h : create config = .ok c) :
    c.index = 0 ∧ c.termination = none := by
  obtain ⟨-, rfl⟩ := create_eq_ok h
  exact ⟨rfl, rfl⟩

/-- A continuation just started is at step zero with no termination. -/
theorem fresh_of_start {c c' : Continuation R} {dims : Nat × Nat} {t0 : R} {x0 : Matrix R}
    {xDot0 xDotDot0 : Option (Matrix R)}
    (h : c.start (ε := ε) dims t0 x0 xDot0 xDotDot0 = .ok c') :
    c'.index = 0 ∧ c'.termination = none := by
  obtain ⟨-, -, rfl⟩ := start_eq_ok h
  simp [index, History.current_push]

/-- A call of `advance` on a fresh continuation reports one event per step it reaches, and
reports no steady state if its observer stopped it. -/
theorem fresh_advance {c c' : Continuation R} {events : List (Event R)}
    {r : Except (SolveError ε) Bool} (hIndex : c.index = 0) (hNone : c.termination = none)
    (h : c.advance ode tFinal stop = (c', events, r)) :
    c'.index = events.length ∧ (c'.termination = some .stoppedByObserver → r = .ok false) := by
  have hSteps := index_advance ode tFinal stop c
  have hStopped : (c.advance ode tFinal stop).1.termination = some .stoppedByObserver →
      (c.advance ode tFinal stop).2.2 = .ok false :=
    advance_stoppedByObserver hNone
  rw [h] at hSteps hStopped
  exact ⟨by simpa [hIndex] using hSteps, hStopped⟩

end Continuation

end SteadyAdjoint.Integrator

namespace SteadyAdjoint.Sensitivity

open SteadyAdjoint.Integrator

variable {R : Type} [Scalar R]

namespace SensitivitySolver

/-! ## §7 The observer of a sensitivity solver -/

/-- A run ready for its forward phase has its forward continuation just started: at step zero,
with no termination. -/
def ForwardFresh (s : SensitivitySolver R) : Prop :=
  s.stage = .forwardReady → s.forward.index = 0 ∧ s.forward.termination = none

theorem ForwardFresh.call {s : SensitivitySolver R} (h : s.ForwardFresh) (hInv : s.Invariant)
    (c : Call R) : (s.call c).1.ForwardFresh := by
  refine call_preserves (fun s => s.ForwardFresh) h (fun t0 x0 xDot0 xDotDot0 => ?_)
    (fun tFinal stop => ?_) (fun hSet => ?_) c
  · rcases hStart : s.start t0 x0 xDot0 xDotDot0 with ⟨s', _ | ⟨⟩⟩
    · -- a start that fails changes nothing: the adjoint phase always rebuilds
      rcases start_eq_error hStart with rfl | ⟨forward, -, e, hBuild⟩
      · exact h
      · obtain ⟨p, hp⟩ := hInv.rebuilds
        rw [hp] at hBuild
        cases hBuild
    · obtain ⟨forward, equation, adjoint, hForward, -, rfl⟩ := start_eq_ok hStart
      simpa [ForwardFresh] using Continuation.fresh_of_start hForward
  · have hSettled := hInv.settled
    cases hStage : s.stage with
    | configured => simpa [advance_configured hStage] using h
    | complete | failed _ =>
      have hEnded : s.stage.isTerminal = true := by simp [hStage, Stage.isTerminal]
      simpa [advance_terminal hEnded] using h
    | forwardDone | adjointDone => simp [Settled, hStage] at hSettled
    | forwardReady =>
      -- a run ready for its forward phase ends in the call
      intro hReady
      have hEnded := advance_isTerminal hStage tFinal stop
      simp [hReady, Stage.isTerminal] at hEnded
  · obtain ⟨-, forward, equation, adjoint, -, -, rfl⟩ := setSettings_eq_ok hSet
    simp [ForwardFresh]

end SensitivitySolver

open SensitivitySolver in
/-- The forward continuation of every observable solver ready for its forward phase is just
started. -/
theorem Reachable.forwardFresh {s : SensitivitySolver R} (h : Reachable s) : s.ForwardFresh := by
  induction h with
  | create h =>
    intro hReady
    obtain ⟨-, forward, equation, adjoint, -, -, rfl⟩ := create_eq_ok h
    cases hReady
  | call hs c _ ih => exact ih.call hs.invariant c

namespace SensitivitySolver

/-- The events of a call of `advance` on a solver, phase by phase: those of the forward phase
first, then those of the adjoint phase; each phase reports one event per step its history
reached from its start; and a phase that its observer stopped fails the run in that phase. -/
def PhasesReported (o : Outcome R) : Prop :=
  ∃ forwardEvents adjointEvents : List (Event R),
    o.2.1 = forwardEvents.map (Phase.forward, ·) ++ adjointEvents.map (Phase.adjoint, ·) ∧
    forwardEvents.length = o.1.forward.index ∧ adjointEvents.length = o.1.adjoint.index ∧
    (o.1.forward.termination = some .stoppedByObserver → o.1.stage = .failed .forward) ∧
    (o.1.adjoint.termination = some .stoppedByObserver → o.1.stage = .failed .adjoint)

/-- **A run of an observable solver reports its events phase by phase**, from a run ready for
its forward phase: each phase that runs is a continuation just started. -/
theorem advance_phasesReported {s : SensitivitySolver R} (hs : Reachable s)
    (hReady : s.stage = .forwardReady) (tFinal : R)
    (stop : Phase → SolutionState R → R → Bool) : PhasesReported (s.advance tFinal stop) := by
  obtain ⟨hForwardIndex, hForwardNone⟩ := hs.forwardFresh hReady
  obtain ⟨hAdjointIndex, hAdjointNone⟩ :=
    Continuation.fresh_of_create (hs.adjointSteps.fresh hReady)
  have h := advance_forwardReady s tFinal stop hReady
  generalize s.advance tFinal stop = o at h ⊢
  -- each phase that ran is a fresh continuation run; one that did not is untouched
  cases h with
  | forwardError hForward | forwardFailed hForward =>
    obtain ⟨hCount, -⟩ := Continuation.fresh_advance hForwardIndex hForwardNone hForward
    refine ⟨_, [], by simp, hCount.symm, hAdjointIndex.symm, fun _ => by simp [fail, hReady],
      fun hStopped => ?_⟩
    simp [fail, hAdjointNone] at hStopped
  | freezeFailed hForward hFreeze =>
    obtain ⟨hCount, hForwardStopped⟩ :=
      Continuation.fresh_advance hForwardIndex hForwardNone hForward
    obtain ⟨equation, rfl, -⟩ := freezeAdjoint_error hFreeze
    refine ⟨_, [], by simp, hCount.symm, hAdjointIndex.symm, fun hStopped => ?_,
      fun _ => by simp [fail]⟩
    simpa using hForwardStopped hStopped
  | adjointError hForward hFreeze hAdjoint | adjointFailed hForward hFreeze hAdjoint
  | assemblyFailed hForward hFreeze hAdjoint _ =>
    -- the forward run passed and the adjoint run started fresh; the run fails in its adjoint
    -- phase
    obtain ⟨hCount, hForwardStopped⟩ :=
      Continuation.fresh_advance hForwardIndex hForwardNone hForward
    obtain ⟨steady, frozen, adjoint, -, -, hStart, rfl⟩ := freezeAdjoint_ok hFreeze
    obtain ⟨hStartIndex, hStartNone⟩ := Continuation.fresh_of_start hStart
    obtain ⟨hMore, -⟩ := Continuation.fresh_advance hStartIndex hStartNone hAdjoint
    refine ⟨_, _, rfl, hCount.symm, hMore.symm, fun hStopped => ?_, fun _ => by simp [fail]⟩
    simpa using hForwardStopped hStopped
  | complete hForward hFreeze hAdjoint hAssemble =>
    obtain ⟨hCount, hForwardStopped⟩ :=
      Continuation.fresh_advance hForwardIndex hForwardNone hForward
    obtain ⟨steady, frozen, adjoint, -, -, hStart, rfl⟩ := freezeAdjoint_ok hFreeze
    obtain ⟨hStartIndex, hStartNone⟩ := Continuation.fresh_of_start hStart
    obtain ⟨hMore, hAdjointStopped⟩ :=
      Continuation.fresh_advance hStartIndex hStartNone hAdjoint
    obtain ⟨y, dgdp, -, -, rfl⟩ := assemble_eq_ok hAssemble
    refine ⟨_, _, rfl, hCount.symm, hMore.symm, fun hStopped => ?_, fun hStopped => ?_⟩
    · simpa using hForwardStopped hStopped
    · simpa using hAdjointStopped hStopped

end SensitivitySolver

/-! ## §8 What a caller's observer can change -/

/-- **An observer sees every accepted step and changes nothing but where a run ends.**

* Every call of `advance` reports its accepted steps in order, numbered on from the current
  step, each with the norm of its state's time derivative, and pushes exactly their states.
* Asked to stop by `stop`, a run goes as the run that is not asked (`ObservedAgrees`): the
  same, or the same up to the first accepted state at which it is asked to stop while not
  steady, where it ends failed with the continuation the other goes on from. Its history is
  then the other's before the later states are pushed; without a storage limit it is a
  prefix of the other's.
* An observer that keeps state, as a function of the events it has seen, is the observer that
  answers by the step number what it answers on the events so far.
* A run of an observable solver reports its events phase by phase (`PhasesReported`). -/
theorem observers_only_stop_runs :
    (∀ {ε : Type} (c : Continuation R) (ode : ImplicitOde R ε) (tFinal : R)
        (stop : SolutionState R → R → Bool),
      PushedEvents c.history c.index (c.advance ode tFinal stop).1.history
        (c.advance ode tFinal stop).2.1 ∧
      c.ObservedAgrees ode tFinal stop ∧
      (History.capacity c.history.limit = none →
        (c.advance ode tFinal stop).1.history.toList <+:
          (c.advance ode tFinal fun _ _ => false).1.history.toList)) ∧
    (∀ {ε : Type} (c : Continuation R) (ode : ImplicitOde R ε) (tFinal : R)
        (observer : List (Event R) → Bool),
      let stop := Continuation.replayObserver observer
        (c.advance ode tFinal fun _ _ => false).2.1 c.index
      ∀ i (hi : i < (c.advance ode tFinal stop).2.1.length),
        stop (c.advance ode tFinal stop).2.1[i].state (c.advance ode tFinal stop).2.1[i].rate =
          observer ((c.advance ode tFinal stop).2.1.take (i + 1))) ∧
    ∀ s : SensitivitySolver R, Reachable s → s.stage = .forwardReady →
      ∀ tFinal stop, SensitivitySolver.PhasesReported (s.advance tFinal stop) :=
  ⟨fun c ode tFinal stop =>
    ⟨Continuation.advance_pushedEvents ode tFinal stop c,
      Continuation.observedAgrees ode tFinal stop c,
      (Continuation.observedAgrees ode tFinal stop c).history_prefix_unobserved⟩,
    fun c ode tFinal observer => Continuation.replayObserver_sees_run ode tFinal c observer,
    fun _ hs hReady tFinal stop => SensitivitySolver.advance_phasesReported hs hReady tFinal stop⟩

open SteadyAdjoint.Binary64 in
/-- A solver for the logistic model at the default settings, once started, is observable and
ready for its forward phase, and its run reports its events phase by phase. -/
theorem logistic_observers_only_stop_runs :
    match SensitivitySolver.create (R := Double) {} (Logistic.toModel ⟨1, 2, 0⟩) none with
    | .ok s =>
      Reachable (s.call (.start 0 #[1] none none)).1 ∧
        (s.call (.start 0 #[1] none none)).1.stage = .forwardReady ∧
        SensitivitySolver.PhasesReported
          ((s.call (.start 0 #[1] none none)).1.advance 1e12 fun _ _ _ => false)
    | .error _ => False := by
  -- the build, and the start that does not breach and readies the forward phase
  have hRuns : (SensitivitySolver.create (R := Double) {} (Logistic.toModel ⟨1, 2, 0⟩)
      none).toOption.map (fun s =>
        ((s.call (.start 0 #[1] none none)).breaks, (s.call (.start 0 #[1] none none)).1.stage)) =
      some (false, .forwardReady) := by
    decide +kernel
  rcases hCreate : SensitivitySolver.create (R := Double) {} (Logistic.toModel ⟨1, 2, 0⟩) none
    with e | s
  · simp [hCreate, Except.toOption] at hRuns
  simp only [hCreate, Except.toOption, Option.map_some, Option.some.injEq, Prod.mk.injEq] at hRuns
  have hReach : Reachable (s.call (.start 0 #[1] none none)).1 :=
    .call (.create hCreate) _ hRuns.1
  exact ⟨hReach, hRuns.2, observers_only_stop_runs.2.2 _ hReach hRuns.2 1e12 _⟩

/-! ## §9 Under a storage limit -/

open SteadyAdjoint.Binary64 in
/-- A state that grows at rate one: the polynomial model `x_dot - p = 0` at `p = 1`. -/
def unitRatePoly : Poly Double where
  a := Matrix.ofFn 1 1 fun _ _ => 0
  m := Matrix.ofFn 1 1 fun _ _ => 1
  c2 := #[0]
  c3 := #[0]
  params := #[#[1]]
  b := #[Matrix.ofFn 1 1 fun _ _ => 1]
  responses := #[⟨Matrix.ofFn 1 1 fun _ _ => 1, #[0], #[Matrix.zeros 1 1]⟩]

open SteadyAdjoint.Binary64 in
/-- Forward Euler steps, at most five, with room for two states in the history. -/
def twoStatesConfig : Config Double :=
  { stepper := .forwardEuler, maxSteps := 5, storageLimit := some 2 }

open SteadyAdjoint.Binary64 in
/-- **Under a storage limit the history of a stopped run is no prefix of the other's.** From
`x = 0` at rate one, the run stopped at step 2 keeps steps 1 and 2; the run left to go on uses
its five steps and keeps steps 4 and 5. -/
theorem stopped_history_not_prefix_under_limit :
    match Continuation.create twoStatesConfig with
    | .ok created =>
      match created.start (ε := ModelError) (1, 1) 0 (Matrix.column #[0]) none none with
      | .ok c =>
        let ode := (Poly.toModel unitRatePoly).forwardProblem true
        (c.advance ode 1e12 fun state _ => decide (2 ≤ state.index)).1.termination =
            some .stoppedByObserver ∧
          ¬ (c.advance ode 1e12 fun state _ => decide (2 ≤ state.index)).1.history.toList <+:
            (c.advance ode 1e12 fun _ _ => false).1.history.toList
      | .error _ => False
    | .error _ => False := by
  -- the two runs, evaluated by at most ten trips each
  have hRuns : ((Continuation.create twoStatesConfig).toOption.bind fun created =>
      (created.start (ε := ModelError) (1, 1) 0 (Matrix.column #[0]) none none).toOption).map
      (fun c =>
        ((c.advanceFor ((Poly.toModel unitRatePoly).forwardProblem true) 1e12
          (fun state _ => decide (2 ≤ state.index)) 10).map
          fun o => (o.1.termination, o.1.history.toList.map (·.index)),
        (c.advanceFor ((Poly.toModel unitRatePoly).forwardProblem true) 1e12
          (fun _ _ => false) 10).map
          fun o => o.1.history.toList.map (·.index))) =
      some (some (some .stoppedByObserver, [1, 2]), some [4, 5]) := by
    decide +kernel
  rcases hCreate : Continuation.create twoStatesConfig with e | created
  · simp [hCreate, Except.toOption] at hRuns
  rcases hStart : created.start (ε := ModelError) (1, 1) 0 (Matrix.column #[0]) none none with
    e | c
  · simp [hCreate, hStart, Except.toOption] at hRuns
  simp only [hCreate, hStart, Except.toOption, Option.bind_some, Option.map_some,
    Option.some.injEq, Prod.mk.injEq, Option.map_eq_some_iff] at hRuns
  obtain ⟨⟨observed, hObserved, hView⟩, ⟨unobserved, hUnobserved, hKept⟩⟩ := hRuns
  -- the goal's two matches, on the creation and on the start
  split
  · next created' hCreated =>
    cases hCreated
    split
    · next c' hStarted =>
      rw [hStart, Except.ok.injEq] at hStarted
      subst hStarted
      dsimp only
      rw [Continuation.advance_eq_of_advanceFor hObserved,
        Continuation.advance_eq_of_advanceFor hUnobserved]
      refine ⟨hView.1, fun hPrefix => ?_⟩
      have hIndices := hPrefix.map (·.index)
      rw [hView.2, hKept] at hIndices
      exact absurd hIndices (by decide)
    · next e hFailed =>
      rw [hStart] at hFailed
      cases hFailed
  · next e hFailed => cases hFailed

end SteadyAdjoint.Sensitivity
