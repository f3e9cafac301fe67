import SteadyAdjoint.Proofs.Observers
import SteadyAdjoint.Proofs.Assembly

/-!
# The retained states of a run

A continuation keeps the accepted states of its run in its history, oldest first, and under a
storage limit only the newest of them. This module shows that whatever calls an integrator of
one problem receives, the states it keeps are the tail of one run:

* each retained state is one step after the one before it, at the time reached by adding its
  own step size to the time before;
* the newest is the current state, the one whose step number and time the continuation
  reports;
* there are as many as the steps taken plus the initial state, up to the storage limit, so
  without a limit the `i`-th retained state is the state after `i` steps;
* every retained state has the problem's shape, and only the initial state may carry a
  second derivative.

The shapes rest on one property of the problem: its residual, at a state and a rate of its
state shape, has that shape too (`ImplicitOde.ResidualShaped`). Every step then keeps the
shape of the state it starts from (`Stepper.takeStep_shape`).

## Main statements

* `Stepper.takeStep_shape`: an accepted step has the shape of the state it starts from.
* `History.Retains`: the retained states of a run, and `History.Retains.push`, what one more
  accepted state keeps.
* `Continuation.KeepsRun.advance`: a call of `advance` keeps the retained states a run's.
* `Continuation.Integrates.history_is_run_tail`: the retained states of every continuation
  of an integrator, after any sequence of calls.
-/

namespace SteadyAdjoint

variable {R : Type} [Scalar R] {ε : Type}

/-! ## §1 The shape of a step -/

/-- The shape of the problem's states: `dim` rows, one column per direction. -/
def ImplicitOde.stateShape (ode : ImplicitOde R ε) : Nat × Nat := (ode.dim, ode.directions)

/-- A problem whose residual, at a state and a rate of its state shape, has that shape. -/
def ImplicitOde.ResidualShaped (ode : ImplicitOde R ε) : Prop :=
  ∀ (t : R) (x xDot r : Matrix R), x.shape = ode.stateShape → xDot.shape = ode.stateShape →
    ode.residual t x xDot = .ok r → r.shape = ode.stateShape

/-- A model whose residual has one entry per state component poses a problem whose residuals
have the state's shape. -/
theorem ResidualModel.forwardProblem_residualShaped (model : ResidualModel R)
    (identityMass : Bool) (hSize : ∀ p v, model.residual p = .ok v → v.size = model.stateDim) :
    (model.forwardProblem identityMass).ResidualShaped := by
  intro t x xDot r _ _ h
  simp only [ResidualModel.forwardProblem, ResidualModel.atFirstColumns] at h
  split_ifs at h
  rcases hv : model.residual (ResidualModel.pointOf model.nominalParameters t x xDot) with e | v
  · simp [hv, Except.map] at h
  · simp only [hv, Except.map, Except.ok.injEq] at h
    subst h
    simp [ImplicitOde.stateShape, hSize _ _ hv, ResidualModel.forwardProblem]

/-- The logistic residual has one entry, the length of the logistic state. -/
theorem Logistic.residual_size (m : Logistic R) (p : Point R) (v : Vec R)
    (h : m.toModel.residual p = .ok v) : v.size = m.toModel.stateDim := by
  simp only [Logistic.toModel, ModelError.within] at h
  split_ifs at h
  cases h
  rfl

namespace Integrator.Stepper

variable {ode : ImplicitOde R ε} {current : SolutionState R} {dt : R} {step : Step R}

/-- The one-update step with any kept factorisation: the residual at the current state with
rate zero, solved with some factorisation. -/
theorem linearStep_eq_ok_of_kept {cache : Option (R × Factors R)}
    (h : (linearStep cache ode current dt).2 = .ok step) :
    ∃ (f : Factors R) (r u : Matrix R), ode.residual (current.time + dt) current.x
        (Matrix.zeros current.x.rows current.x.cols) = .ok r ∧
      f.solve (-r) = .ok u ∧
      step = { x := current.x + u, xDot := u.divide dt, newtonIters := 1 } := by
  rcases cache with _ | ⟨cached, f⟩
  · obtain ⟨M, r, u, -, hr, hu, rfl⟩ := linearStep_eq_ok h
    exact ⟨M.factor, r, u, hr, hu, rfl⟩
  by_cases hKey : (cached == dt) = true
  · -- the kept factorisation is solved with
    simp only [linearStep, hKey, if_true] at h
    rcases hr : ode.residual (current.time + dt) current.x
      (Matrix.zeros current.x.rows current.x.cols) with e | r
    · simp [hr] at h
    rcases hu : f.solve (-r) with e | u
    · simp [hr, hu] at h
    simp only [hr, hu, Except.ok.injEq] at h
    exact ⟨f, r, u, rfl, hu, h.symm⟩
  · have hFresh :
        linearStep (some (cached, f)) ode current dt = linearStep none ode current dt := by
      simp only [linearStep, hKey, Bool.false_eq_true, if_false]
    rw [hFresh] at h
    obtain ⟨M, r, u, -, hr, hu, rfl⟩ := linearStep_eq_ok h
    exact ⟨M.factor, r, u, hr, hu, rfl⟩

/-- Newton's iterates keep the shape of the iterate they start from. -/
theorem newtonIterate_shape {newton : NewtonSettings R} {t α : R} {xStart : Matrix R} :
    ∀ (left iter : Nat) (x xDot : Matrix R),
      newtonIterate newton ode t α xStart left iter x xDot = .ok step →
      step.x.shape = x.shape ∧ step.xDot.shape = x.shape := by
  intro left
  induction left with
  | zero => intro _ _ _ h; cases h
  | succ left ih =>
    intro iter x xDot h
    simp only [newtonIterate] at h
    obtain ⟨r, -, h⟩ := bind_eq_ok h
    obtain ⟨j, -, h⟩ := bind_eq_ok h
    obtain ⟨u, -, h⟩ := bind_eq_ok h
    split at h
    · cases h
    split at h
    · cases h
      exact ⟨rfl, rfl⟩
    · -- the next iterate keeps the shape of this one
      simpa using ih _ _ _ h

/-- An accepted step from `current` and its scheme, whatever factorisation the stepper
keeps. -/
theorem takeStep_eq_ok {s : Stepper R} (h : (s.takeStep ode current dt).2 = .ok step) :
    (s.kind = .backwardEuler ∧ ode.isLinear = true ∧
        (linearStep s.cache ode current dt).2 = .ok step) ∨
      (s.kind = .backwardEuler ∧ ode.isLinear = false ∧
        newtonStep s.newton ode current dt = .ok step) ∨
      (s.kind = .forwardEuler ∧ explicitStep ode current dt = .ok step) := by
  rw [takeStep_eq] at h
  -- the finiteness check passes an accepted step through unchanged
  obtain ⟨step', hAttempt, hCheck⟩ := bind_eq_ok h
  have hSame : step' = step := by
    split_ifs at hCheck
    cases hCheck
    rfl
  subst hSame
  unfold attempt at hAttempt
  cases hk : s.kind with
  | backwardEuler =>
    rw [hk] at hAttempt
    cases hLin : ode.isLinear with
    | true => exact .inl ⟨rfl, rfl, by simpa [hLin] using hAttempt⟩
    | false => exact .inr (.inl ⟨rfl, rfl, by simpa [hLin] using hAttempt⟩)
  | forwardEuler =>
    rw [hk] at hAttempt
    exact .inr (.inr ⟨rfl, hAttempt⟩)

section Shapes

variable (hShaped : ode.ResidualShaped) (hx : current.x.shape = ode.stateShape)
include hx

/-- The zero rate at a state of the problem's shape. -/
theorem shape_zeros_current :
    (Matrix.zeros current.x.rows current.x.cols : Matrix R).shape = ode.stateShape := by
  rw [← hx]
  rfl

include hShaped

theorem linearStep_shape {cache : Option (R × Factors R)}
    (h : (linearStep cache ode current dt).2 = .ok step) :
    step.x.shape = ode.stateShape ∧ step.xDot.shape = ode.stateShape := by
  obtain ⟨f, r, u, hr, hu, rfl⟩ := linearStep_eq_ok_of_kept h
  have hr' := hShaped _ _ _ _ hx (shape_zeros_current hx) hr
  refine ⟨by simp [hx], ?_⟩
  rw [Matrix.shape_divide, Factors.shape_solve hu, Matrix.shape_neg, hr']

omit hShaped in
theorem newtonStep_shape {newton : NewtonSettings R}
    (h : newtonStep newton ode current dt = .ok step) :
    step.x.shape = ode.stateShape ∧ step.xDot.shape = ode.stateShape := by
  rw [← hx]
  exact newtonIterate_shape _ _ _ _ h

theorem explicitStep_shape (h : explicitStep ode current dt = .ok step) :
    step.x.shape = ode.stateShape ∧ step.xDot.shape = ode.stateShape := by
  obtain ⟨mass, rate, -, hStepX, hRate⟩ := explicitStep_eq_ok h
  have hStepShape : step.x.shape = ode.stateShape := by rw [hStepX, Matrix.shape_add, hx]
  -- the rate at the state reached is the residual there, solved with the mass or not
  obtain ⟨r, hr, hSolve⟩ := explicitRate_eq_ok hRate
  have hr' := hShaped _ _ _ _ hStepShape (shape_zeros_current hx) hr
  refine ⟨hStepShape, ?_⟩
  rcases hSolve with ⟨-, hEq⟩ | ⟨f, -, hf⟩
  · rw [hEq, Matrix.shape_neg, hr']
  · rw [Factors.shape_solve hf, Matrix.shape_neg, hr']

/-- **An accepted step has the shape of the state it starts from**, under each scheme. -/
theorem takeStep_shape {s : Stepper R} (h : (s.takeStep ode current dt).2 = .ok step) :
    step.x.shape = ode.stateShape ∧ step.xDot.shape = ode.stateShape := by
  rcases takeStep_eq_ok h with ⟨-, -, hStep⟩ | ⟨-, -, hStep⟩ | ⟨-, hStep⟩
  · exact linearStep_shape hShaped hx hStep
  · exact newtonStep_shape hx hStep
  · exact explicitStep_shape hShaped hx hStep

end Shapes

end Integrator.Stepper

namespace Integrator

/-! ## §2 Pushing on a history -/

/-- Two states of a run in a row: the second is one step after the first, at the time that
step reached. -/
def SolutionState.Follows (s s' : SolutionState R) : Prop :=
  s'.index = s.index + 1 ∧ s'.time = s.time + s'.dt

namespace History

omit [Scalar R]

/-- How many states a history under the limit `limit` keeps after `i` steps from its initial
state. -/
def retainedCount (limit : Option Nat) (i : Nat) : Nat :=
  match capacity limit with
  | some cap => min (i + 1) cap
  | none => i + 1

@[simp] theorem current_clear (h : History R) : h.clear.current = none := rfl

@[simp] theorem length_clear (h : History R) : h.clear.length = 0 := rfl

@[simp] theorem length_toList (h : History R) : h.toList.length = h.length := Array.length_toList

theorem length_push (h : History R) (s : SolutionState R) :
    (h.push s).length = match capacity h.limit with
      | some cap => min (h.length + 1) cap
      | none => h.length + 1 := by
  cases hc : capacity h.limit with
  | none =>
    rw [← length_toList, toList_push_of_capacity_none _ _ hc]
    simp
  | some cap =>
    rw [← length_toList, toList_push_of_capacity_some _ _ _ hc]
    simp only [List.length_drop, List.length_append, length_toList, List.length_singleton]
    omega

theorem mem_push {h : History R} {s s' : SolutionState R} (hMem : s' ∈ (h.push s).toList) :
    s' ∈ h.toList ∨ s' = s := by
  cases hc : capacity h.limit with
  | none =>
    rw [toList_push_of_capacity_none _ _ hc] at hMem
    simpa using hMem
  | some cap =>
    rw [toList_push_of_capacity_some _ _ _ hc] at hMem
    simpa using List.mem_of_mem_drop hMem

/-- Pushing a state related to the current one keeps a chain: what the limit drops is the
oldest part of it. -/
theorem isChain_push {rel : SolutionState R → SolutionState R → Prop} {h : History R}
    {s : SolutionState R} (hChain : h.toList.IsChain rel)
    (hLast : ∀ c, h.current = some c → rel c s) : (h.push s).toList.IsChain rel := by
  have hAppend : (h.toList ++ [s]).IsChain rel := by
    refine hChain.append (.singleton s) fun c hc s' hs' => ?_
    rw [← current_eq_getLast?] at hc
    simp only [List.head?_cons, Option.mem_def, Option.some.injEq] at hs'
    subst hs'
    exact hLast c hc
  cases hc : capacity h.limit with
  | none => rwa [toList_push_of_capacity_none _ _ hc]
  | some cap =>
    rw [toList_push_of_capacity_some _ _ _ hc]
    exact hAppend.drop _

end History

/-! ## §3 The retained states of a run -/

/-- A state of the problem's shape, whose second derivative is known only at the initial
step. -/
def SolutionState.Shaped (ode : ImplicitOde R ε) (s : SolutionState R) : Prop :=
  s.x.shape = ode.stateShape ∧ s.xDot.shape = ode.stateShape ∧ (0 < s.index → s.xDotDot = none)

/-- Along states that follow one another, the step numbers count on by one. -/
theorem SolutionState.index_getElem_add {l : List (SolutionState R)}
    (hChain : l.IsChain SolutionState.Follows) (i k : Nat) (hik : i + k < l.length) :
    l[i + k].index = l[i].index + k := by
  induction k with
  | zero => rfl
  | succ k ih =>
    have hFollows := (hChain.getElem (i + k) (by omega)).1
    show l[i + k + 1].index = l[i].index + (k + 1)
    rw [hFollows, ih (by omega), Nat.add_assoc]

/-- The retained states of a run of `ode` whose current state is `s`. -/
structure History.Retains (ode : ImplicitOde R ε) (h : History R) (s : SolutionState R) :
    Prop where
  /-- Each retained state is one step after the one before it, at the time that step
  reached. -/
  chain : h.toList.IsChain SolutionState.Follows
  /-- The newest retained state is `s`. -/
  current : h.current = some s
  /-- One state per step taken and the initial one, as many as the capacity allows. -/
  length : h.length = History.retainedCount h.limit s.index
  /-- Every retained state has the problem's shape. -/
  shaped : ∀ s' ∈ h.toList, s'.Shaped ode

namespace History.Retains

variable {ode : ImplicitOde R ε} {h : History R} {s : SolutionState R}

theorem shaped_current (hr : h.Retains ode s) : s.Shaped ode :=
  hr.shaped s (List.mem_of_getLast? (by rw [← current_eq_getLast?, hr.current]))

/-- **A state that follows the current one, pushed, is the new current state** of the
run's retained states. -/
theorem push (hr : h.Retains ode s) {s' : SolutionState R} (hFollows : s.Follows s')
    (hShaped : s'.Shaped ode) : (h.push s').Retains ode s' where
  chain := isChain_push hr.chain fun c hc => by
    rw [hr.current, Option.some.injEq] at hc
    exact hc ▸ hFollows
  current := current_push h s'
  length := by
    simp only [length_push, hr.length, retainedCount, limit_push, hFollows.1]
    cases capacity h.limit with
    | none => rfl
    | some cap => simp only; omega
  shaped s'' hs'' := (mem_push hs'').elim (hr.shaped s'') fun hEq => hEq ▸ hShaped

/-- A history cleared and started again from a state of step zero. -/
theorem start (h : History R) {s : SolutionState R} (hIndex : s.index = 0)
    (hShaped : s.Shaped ode) : (h.clear.push s).Retains ode s where
  chain := isChain_push (by simp) fun c hc => by simp at hc
  current := current_push _ s
  length := by simp only [length_push, retainedCount, limit_push, hIndex, length_clear]
  shaped s' hs' := (mem_push hs').elim (by simp) fun hEq => hEq ▸ hShaped

end History.Retains

/-! ## §4 Along a run -/

namespace Continuation

variable {ode : ImplicitOde R ε} {tFinal : R} {stop : SolutionState R → R → Bool}

section Steps

variable (hShaped : ode.ResidualShaped)
include hShaped

/-- An accepted step from the current state of a run pushes a state that follows it. -/
theorem Retains.accept {h : History R} {current : SolutionState R}
    (hr : h.Retains ode current) {c : Continuation R} {s : Stepper R}
    {attempt : Except (StepError ε) (Step R)} {dt : R} {step : Step R}
    (hStep : c.stepper.takeStep ode current dt = (s, attempt))
    (hOk : attempt.bind (c.attempted s).screen = .ok step) :
    (h.push (current.next dt step)).Retains ode (current.next dt step) := by
  have hTaken : (c.stepper.takeStep ode current dt).2 = .ok step := by
    rw [hStep]
    exact bind_screen_eq_ok hOk
  obtain ⟨hx, hxDot⟩ := Stepper.takeStep_shape hShaped hr.shaped_current.1 hTaken
  exact hr.push ⟨rfl, rfl⟩ ⟨hx, hxDot, fun _ => rfl⟩

/-- **One pass keeps the retained states a run's**: a retry keeps the history, an accepted
step pushes the state it reached. -/
theorem Pass.retains {q q' : LoopPoint R} (h : Pass ode tFinal stop q q')
    (hq : q.cont.history.Retains ode q.current) : q'.cont.history.Retains ode q'.current := by
  cases h with
  | retry => exact hq
  | accept _ _ hStep hOk => exact Retains.accept hShaped hq hStep hOk

/-- Every exit leaves the retained states of a run: the history as it was, or with the state
of the last step pushed. -/
theorem Exit.retains {q : LoopPoint R} {o : Outcome R ε} (h : Exit ode tFinal stop q o)
    (hq : q.cont.history.Retains ode q.current) : ∃ s, o.1.history.Retains ode s := by
  cases h with
  | finalTime | maxSteps | problem | breach | stepFailures | minTimeStep => exact ⟨_, hq⟩
  | steady _ _ hStep hOk | stopped _ _ hStep hOk =>
    exact ⟨_, Retains.accept hShaped hq hStep hOk⟩

/-- What a continuation of `ode` keeps between calls: the history's limit is the configured
one, and once a state is known the retained states are those of a run. -/
structure KeepsRun (ode : ImplicitOde R ε) (c : Continuation R) : Prop where
  limit : c.history.limit = c.config.storageLimit
  retains : ∀ s, c.history.current = some s → c.history.Retains ode s

variable (ode tFinal stop) in
/-- **A call of `advance` keeps the retained states a run's.** -/
theorem KeepsRun.advance {c : Continuation R} (hc : c.KeepsRun ode) :
    (c.advance ode tFinal stop).1.KeepsRun ode := by
  refine ⟨?_, ?_⟩
  · -- the call pushes its events' states, which keeps the limit
    rw [(advance_pushedEvents ode tFinal stop c).history, History.limit_pushEvents,
      advance_config, hc.limit]
  rcases advance_cases ode tFinal stop c with ⟨-, hEq⟩ | ⟨_, -, -, hEq⟩ |
    ⟨current, q, hCurrent, -, hq, hExit⟩
  · rw [hEq]
    exact hc.retains
  · rw [hEq]
    exact hc.retains
  · obtain ⟨s, hs⟩ := hExit.retains hShaped
      (passes_invariant (fun q => q.cont.history.Retains ode q.current)
        (fun hPass hq => hPass.retains hShaped hq) hq (hc.retains current hCurrent))
    intro s' hs'
    rw [hs.current, Option.some.injEq] at hs'
    exact hs' ▸ hs

end Steps

end Continuation

/-! ## §5 Across calls -/

/-- The continuations of an integrator of the problem `ode`, as its calls leave them: one just
created from any settings, one started again at the problem's shape, and one advanced on
`ode` towards any final time, with any request to stop. -/
inductive Continuation.Integrates (ode : ImplicitOde R ε) : Continuation R → Prop where
  | create {config : Config R} {c : Continuation R} (h : Continuation.create config = .ok c) :
      Continuation.Integrates ode c
  | start {c c' : Continuation R} {t0 : R} {x0 : Matrix R} {xDot0 xDotDot0 : Option (Matrix R)}
      (hc : Continuation.Integrates ode c)
      (h : c.start (ε := ε) ode.stateShape t0 x0 xDot0 xDotDot0 = .ok c') :
      Continuation.Integrates ode c'
  | advance {c : Continuation R} (hc : Continuation.Integrates ode c) (tFinal : R)
      (stop : SolutionState R → R → Bool) :
      Continuation.Integrates ode (c.advance ode tFinal stop).1

/-- Validated settings keep at least two states under a storage limit. -/
theorem Config.two_le_storageLimit {config : Config R} (h : config.validate = .ok ()) {l : Nat}
    (hl : config.storageLimit = some l) : 2 ≤ l := by
  unfold Config.validate at h
  simp only [bind, Except.bind, pure, Except.pure, throw, throwThe, MonadExceptOf.throw] at h
  split at h
  · cases h
  split at h
  · cases h
  split at h
  · cases h
  rename_i hLimit
  simp only [hl, Option.map_some, Option.getD_some, decide_eq_true_eq] at hLimit
  omega

namespace Continuation.Integrates

variable {ode : ImplicitOde R ε} {c : Continuation R}

/-- An integrator's continuation is one of those that step its problem. -/
theorem reachable (hc : Continuation.Integrates ode c) : Continuation.Reachable ode c := by
  induction hc with
  | create h => exact .create h
  | start _ h ih => exact .start ih h
  | advance _ tFinal stop ih => exact .advance ih tFinal stop

/-- Every continuation of an integrator keeps the states of a run, by induction over its
calls: a start keeps only the initial state, and a call of `advance` pushes accepted states. -/
theorem keepsRun (hShaped : ode.ResidualShaped) (hc : Continuation.Integrates ode c) :
    c.KeepsRun ode := by
  induction hc with
  | create h =>
    obtain ⟨-, rfl⟩ := create_eq_ok h
    exact ⟨rfl, fun s hs => by simp [History.current] at hs⟩
  | start _ h ih =>
    obtain ⟨hx, hxDot, rfl⟩ := start_eq_ok h
    refine ⟨by simpa [History.clear] using ih.limit, fun s hs => ?_⟩
    rw [History.current_push, Option.some.injEq] at hs
    subst hs
    exact History.Retains.start _ rfl ⟨hx, hxDot, fun hIndex => absurd hIndex (Nat.lt_irrefl 0)⟩
  | advance _ tFinal stop ih => exact ih.advance ode tFinal stop hShaped

/-- **The retained states of an integrator are the tail of its run.**

For a problem whose residuals have its state shape and any validated settings, after any
sequence of starts at the problem's shape and calls of `advance` (to any final times, with
any requests to stop, whatever their outcome), once a state is known: the retained states,
oldest first, are each one step after the one before and at the time before plus their own
step size; the newest is the current state `s`, whose step number and time the continuation
reports; there are `min (s.index + 1) limit` of them under a storage limit and
`s.index + 1` without one, and then the `i`-th of them is the state after `i` steps; every
one has the problem's shape, and none but the initial state carries a second derivative. -/
theorem history_is_run_tail (hShaped : ode.ResidualShaped) (hc : Continuation.Integrates ode c)
    {s : SolutionState R} (hCurrent : c.history.current = some s) :
    c.history.Retains ode s ∧ c.index = s.index ∧ c.time = s.time ∧
    c.history.length = (match c.config.storageLimit with
      | some limit => min (s.index + 1) limit
      | none => s.index + 1) ∧
    (c.config.storageLimit = none →
      ∀ i, i < c.history.length → c.history.toList[i]?.map (·.index) = some i) := by
  have hr := (hc.keepsRun hShaped).retains s hCurrent
  have hLength : c.history.length = match c.config.storageLimit with
      | some limit => min (s.index + 1) limit
      | none => s.index + 1 := by
    rw [hr.length, History.retainedCount, (hc.keepsRun hShaped).limit]
    cases hl : c.config.storageLimit with
    | none => rfl
    | some l =>
      -- a validated limit keeps at least one state, so it is its own capacity
      have := Config.two_le_storageLimit hc.reachable.valid hl
      simp only [History.capacity]
      omega
  refine ⟨hr, by simp [index, hCurrent], by simp [time, hCurrent], hLength, fun hNone i hi => ?_⟩
  -- without a limit every state is kept, so the oldest is the initial one
  simp only [hNone] at hLength
  have hLast : c.history.toList[s.index]? = some s := by
    rw [← hr.current, History.current_eq_getLast?, List.getLast?_eq_getElem?,
      History.length_toList, hLength, Nat.add_sub_cancel]
  obtain ⟨hs, hEq⟩ := List.getElem?_eq_some_iff.1 hLast
  have hOldest := SolutionState.index_getElem_add hr.chain 0 s.index (by simpa using hs)
  have hIndex := SolutionState.index_getElem_add hr.chain 0 i (by simpa using hi)
  simp only [Nat.zero_add] at hOldest hIndex
  rw [hEq] at hOldest
  rw [List.getElem?_eq_getElem (by simpa using hi), Option.map_some, hIndex, Option.some.injEq]
  omega

end Continuation.Integrates

open SteadyAdjoint.Binary64 in
/-- The logistic continuation run from `x = 1` by five forward Euler steps, with room for two
states, keeps the last two: steps 4 and 5, each one step after the one before it. -/
theorem logistic_history_is_run_tail :
    ∃ created c, Continuation.create Sensitivity.twoStatesConfig = .ok created ∧
      created.start (ε := ModelError) (1, 1) 0 (Matrix.column #[1]) none none = .ok c ∧
      let ode := (Logistic.toModel ⟨(1 : Double), 2, 0⟩).forwardProblem false
      let ran := (c.advance ode 100 fun _ _ => false).1
      ode.ResidualShaped ∧ Continuation.Integrates ode ran ∧
        ∃ s, ran.history.current = some s ∧ s.index = 5 ∧ ran.history.Retains ode s ∧
          ran.index = 5 ∧ ran.history.length = 2 ∧ ran.history.toList.map (·.index) = [4, 5] := by
  obtain ⟨created, c, hCreate, hStart, hCheck⟩ :=
    Continuation.exists_started_run Sensitivity.twoStatesConfig (1, 1) 0 (Matrix.column #[1])
      none none ((Logistic.toModel ⟨(1 : Double), 2, 0⟩).forwardProblem false) 100
      (fun _ _ => false) 6
      (fun _ o => decide (o.1.history.current.map (·.index) = some 5 ∧
        o.1.history.toList.map (·.index) = [4, 5] ∧ o.1.config.storageLimit = some 2))
      (by decide +kernel)
  simp only [decide_eq_true_eq] at hCheck
  obtain ⟨hCurrentIndex, hKept, hLimit⟩ := hCheck
  obtain ⟨s, hCurrent, hIndex⟩ := Option.map_eq_some_iff.1 hCurrentIndex
  have hShaped : ((Logistic.toModel ⟨(1 : Double), 2, 0⟩).forwardProblem false).ResidualShaped :=
    ResidualModel.forwardProblem_residualShaped _ _ (Logistic.residual_size _)
  have hStarted : Continuation.Integrates
      ((Logistic.toModel ⟨(1 : Double), 2, 0⟩).forwardProblem false) c :=
    .start (.create hCreate) hStart
  have hc : Continuation.Integrates ((Logistic.toModel ⟨(1 : Double), 2, 0⟩).forwardProblem false)
      (c.advance ((Logistic.toModel ⟨(1 : Double), 2, 0⟩).forwardProblem false) 100
        fun _ _ => false).1 :=
    .advance hStarted 100 _
  obtain ⟨hRetains, hRanIndex, -, hLength, -⟩ := hc.history_is_run_tail hShaped hCurrent
  -- under the limit of two, the five steps and the initial state leave two states
  have hTwo : (c.advance ((Logistic.toModel ⟨(1 : Double), 2, 0⟩).forwardProblem false) 100
      fun _ _ => false).1.history.length = 2 := by
    rw [hLength, hLimit, hIndex]
    rfl
  exact ⟨created, c, hCreate, hStart, hShaped, hc, s, hCurrent, hIndex, hRetains,
    hRanIndex.trans hIndex, hTwo, hKept⟩

end Integrator

end SteadyAdjoint
