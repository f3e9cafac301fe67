import SteadyAdjoint.Proofs.Passes

/-!
# The kept factorisation of a linear step

A backward Euler step of a linear problem factors the iteration matrix `J(1/dt, 1)` and keeps
the factorisation with its step size; the next step reuses it when its own step size compares
equal under `==`. The kept factorisation is forgotten by every nonlinear step, by every retry
after a rejected step, and by every start of a run.

For a problem whose iteration matrix depends on the step size alone, the kept factorisation
is always that of the iteration matrix at its step size (`CacheInvariant`), so the reuse is
invisible: every step returns what a stepper without a kept factorisation returns
(`takeStep_reset`). The argument rests on a few laws of the numbers (`StepLaws`): the step
sizes stay positive or NaN, and two positive step sizes equal under `==` have the same
reciprocal. IEEE `==` has one pair that breaks the second law, `0 == -0`, whose reciprocals are
the two infinities, and the first law keeps both zeros out of the step sizes.

## Main statements

* `Stepper.linearStep_kept`: a valid kept factorisation changes nothing.
* `CacheInvariant.pass`, `CacheInvariant.advance`: the invariant along a run.
* `Continuation.Reachable.cacheInvariant`: the invariant across any sequence of calls.
* `Continuation.Reachable.takeStep_reset`: every step of every run returns what it would
  return without the kept factorisation.
-/

namespace SteadyAdjoint

variable {R : Type} [Scalar R] {ε : Type}

/-- A problem whose iteration matrix `J(1/h, 1)`, and whether it can be evaluated, depends
on the step size `h` alone. -/
def ImplicitOde.JacobianByStep (ode : ImplicitOde R ε) : Prop :=
  ∀ (h t t' : R) (x x' xDot xDot' : Matrix R),
    ode.jacobian t x xDot (1 / h) 1 = ode.jacobian t' x' xDot' (1 / h) 1

namespace Integrator

/-! ## §1 Step sizes and the laws of the numbers -/

/-- A step size that a kept factorisation may be stored under: positive, or NaN, which `==`
never matches. -/
def Admissible (x : R) : Prop := 0 < x ∨ Scalar.isNaN x = true

/-- The laws of the numbers that the step sizes rely on. -/
structure StepLaws (R : Type) [Scalar R] : Prop where
  /-- A finite number is not NaN. -/
  not_isNaN_of_isFinite : ∀ x : R, Scalar.isFinite x = true → Scalar.isNaN x = false
  /-- A finite number not at most zero is positive. -/
  pos_of_not_le_zero : ∀ x : R, Scalar.isFinite x = true → ¬ x ≤ 0 → 0 < x
  /-- A number not below a positive bound is positive, or NaN. -/
  admissible_of_not_lt : ∀ x lo : R, 0 < lo → ¬ x < lo → Admissible x
  /-- The difference of `b` over `a` where `b` is not at most `a` is positive, or NaN: it is
  never a zero. -/
  admissible_sub : ∀ a b : R, ¬ b ≤ a → Admissible (b - a)
  /-- Two step sizes equal under `==`, the first positive or NaN, have the same
  reciprocal. -/
  inv_eq_of_beq : ∀ a b : R, Admissible a → (a == b) = true → 1 / a = 1 / b

/-- The smaller of two step sizes is one of them. -/
theorem fmin_admissible {a b : R} (ha : Admissible a) (hb : Admissible b) :
    Admissible (fmin a b) := by
  unfold fmin
  split
  · exact hb
  split
  · exact ha
  split
  · exact hb
  · exact ha

variable (laws : StepLaws R)

include laws

/-- A positive number is admissible, and so is every number clamped between two positive
bounds. -/
theorem clampTo_admissible {x lo hi : R} (hlo : 0 < lo) (hhi : 0 < hi) :
    Admissible (clampTo x lo hi) := by
  unfold clampTo
  dsimp only
  by_cases hx : x < lo
  · simp only [hx, if_true]
    split
    · exact .inl hhi
    · exact .inl hlo
  · simp only [hx, if_false]
    split
    · exact .inl hhi
    · exact laws.admissible_of_not_lt x lo hlo hx

/-- Validated step bounds are positive. -/
theorem StepLaws.bounds_pos {control : StepControl R} (h : control.validate = .ok ()) :
    0 < control.minTimeStep ∧ 0 < control.initialTimeStep ∧ 0 < control.maxTimeStep := by
  unfold StepControl.validate at h
  dsimp only at h
  split at h
  · cases h
  rename_i hFinite
  split at h
  · cases h
  rename_i hBounds
  simp only [Bool.not_and, Bool.or_eq_true, Bool.not_eq_eq_eq_not, Bool.not_true, not_or,
    Bool.not_eq_false, decide_eq_true_eq] at hFinite hBounds
  obtain ⟨⟨hMinFinite, hInitialFinite⟩, hMaxFinite⟩ := hFinite
  obtain ⟨⟨hMin, hInitial⟩, hMax⟩ := hBounds
  have hMinPos := laws.pos_of_not_le_zero _ hMinFinite hMin
  -- the initial step is not below the minimum, and the maximum not below the initial step
  have hInitialPos : 0 < control.initialTimeStep := by
    rcases laws.admissible_of_not_lt _ _ hMinPos hInitial with hPos | hNaN
    · exact hPos
    · simp [laws.not_isNaN_of_isFinite _ hInitialFinite] at hNaN
  refine ⟨hMinPos, hInitialPos, ?_⟩
  rcases laws.admissible_of_not_lt _ _ hInitialPos hMax with hPos | hNaN
  · exact hPos
  · simp [laws.not_isNaN_of_isFinite _ hMaxFinite] at hNaN

/-- Validated settings have positive step bounds. -/
theorem StepLaws.config_bounds_pos {config : Config R} (h : config.validate = .ok ()) :
    0 < config.timeStepControl.minTimeStep ∧ 0 < config.timeStepControl.initialTimeStep ∧
      0 < config.timeStepControl.maxTimeStep := by
  unfold Config.validate at h
  simp only [bind, Except.bind, pure, Except.pure, throw, throwThe, MonadExceptOf.throw] at h
  split at h
  · cases h
  split at h
  · cases h
  split at h
  · cases h
  split at h
  · cases h
  · exact laws.bounds_pos ‹_›

omit laws

/-! ## §2 One step -/

/-- A kept factorisation that is valid: stored under an admissible step size `h`, and the
factorisation of the iteration matrix `J(1/h, 1)`. -/
def KeptSound (ode : ImplicitOde R ε) (cache : Option (R × Factors R)) : Prop :=
  ∀ h f, cache = some (h, f) →
    Admissible h ∧ ∀ t x xDot, (ode.jacobian t x xDot (1 / h) 1).map Matrix.factor = .ok f

theorem KeptSound.none (ode : ImplicitOde R ε) : KeptSound ode (none : Option (R × Factors R)) :=
  fun _ _ h => by cases h

namespace Stepper

variable {ode : ImplicitOde R ε} {current : SolutionState R} {dt : R}

include laws in
/-- **A valid kept factorisation changes nothing**: it is reused only under a step size whose
iteration matrix it factors. -/
theorem linearStep_kept {cache : Option (R × Factors R)} (hKept : KeptSound ode cache) :
    linearStep cache ode current dt = linearStep none ode current dt := by
  rcases cache with _ | ⟨h, f⟩
  · rfl
  by_cases hKey : (h == dt) = true
  · -- the kept factorisation is the one a fresh evaluation gives
    obtain ⟨hAdm, hFactor⟩ := hKept h f rfl
    have hFresh := hFactor (current.time + dt) current.x
      (Matrix.zeros current.x.rows current.x.cols)
    rw [laws.inv_eq_of_beq h dt hAdm hKey] at hFresh
    simp only [linearStep, hKey, if_true, hFresh]
  · simp only [linearStep, hKey, Bool.false_eq_true, if_false]

/-- A step from no kept factorisation keeps none, or the factorisation of the iteration
matrix at its own step size. -/
theorem linearStep_none_fst (hOnly : ode.JacobianByStep) (hdt : Admissible dt) :
    KeptSound ode (linearStep none ode current dt).1 := by
  intro h f hKept
  unfold linearStep at hKept
  dsimp only at hKept
  rcases hJac : (ode.jacobian (current.time + dt) current.x
      (Matrix.zeros current.x.rows current.x.cols) (1 / dt) 1).map Matrix.factor with e | f'
  · simp [hJac] at hKept
  rw [hJac] at hKept
  dsimp only at hKept
  -- whatever the solve gives, the factorisation kept is the fresh one, under `dt`
  split at hKept
  · cases hKept
  split at hKept <;> simp only [Option.some.injEq, Prod.mk.injEq] at hKept <;>
    obtain ⟨rfl, rfl⟩ := hKept <;>
    exact ⟨hdt, fun t x xDot => by rw [hOnly dt t (current.time + dt) x current.x xDot
      (Matrix.zeros current.x.rows current.x.cols), hJac]⟩

/-- The kept factorisation and the outcome of a step, before the check that the new state is
finite. -/
def attempt (s : Stepper R) (ode : ImplicitOde R ε) (current : SolutionState R) (dt : R) :
    Stepper R × Except (StepError ε) (Step R) :=
  match s.kind with
  | .backwardEuler =>
    if ode.isLinear then
      let (cache, outcome) := linearStep s.cache ode current dt
      ({ s with cache }, outcome)
    else ({ s with cache := none }, newtonStep s.newton ode current dt)
  | .forwardEuler => (s, explicitStep ode current dt)

/-- A step is its attempt, checked. -/
theorem takeStep_eq (s : Stepper R) (ode : ImplicitOde R ε) (current : SolutionState R)
    (dt : R) :
    s.takeStep ode current dt =
      ((s.attempt ode current dt).1, (s.attempt ode current dt).2.bind fun step =>
        if step.x.allFinite && step.xDot.allFinite then .ok step
        else .error (.failure .nonFinite)) :=
  rfl

include laws in
/-- **A step with a valid kept factorisation returns what a stepper without one returns.** -/
theorem attempt_reset {s : Stepper R} (hKept : KeptSound ode s.cache) :
    (s.attempt ode current dt).2 = (s.reset.attempt ode current dt).2 := by
  unfold attempt
  have hKind : s.reset.kind = s.kind := rfl
  rw [hKind]
  cases s.kind with
  | backwardEuler =>
    dsimp only
    split
    · rw [linearStep_kept laws hKept]
      rfl
    · rfl
  | forwardEuler => rfl

include laws in
/-- A step keeps a valid kept factorisation, when its step size is admissible. -/
theorem attempt_kept {s : Stepper R} (hOnly : ode.JacobianByStep) (hKept : KeptSound ode s.cache)
    (hdt : Admissible dt) : KeptSound ode (s.attempt ode current dt).1.cache := by
  unfold attempt
  cases s.kind with
  | backwardEuler =>
    dsimp only
    split
    · rw [linearStep_kept laws hKept]
      exact linearStep_none_fst hOnly hdt
    · exact KeptSound.none ode
  | forwardEuler => exact hKept

include laws in
/-- **Every step returns what a stepper without a kept factorisation returns**, once the kept
factorisation is valid. -/
theorem takeStep_reset {s : Stepper R} (hKept : KeptSound ode s.cache) :
    (s.takeStep ode current dt).2 = (s.reset.takeStep ode current dt).2 := by
  rw [takeStep_eq, takeStep_eq, attempt_reset laws hKept]

include laws in
theorem takeStep_kept {s : Stepper R} (hOnly : ode.JacobianByStep) (hKept : KeptSound ode s.cache)
    (hdt : Admissible dt) : KeptSound ode (s.takeStep ode current dt).1.cache := by
  rw [takeStep_eq]
  exact attempt_kept laws hOnly hKept hdt

end Stepper

/-! ## §3 Along a run -/

/-- The invariant of a continuation that steps `ode`: validated settings, an admissible step
size, and a valid kept factorisation. -/
structure CacheInvariant (ode : ImplicitOde R ε) (c : Continuation R) : Prop where
  valid : c.config.validate = .ok ()
  dt : Admissible c.dt
  kept : KeptSound ode c.stepper.cache

namespace CacheInvariant

variable {ode : ImplicitOde R ε} {tFinal : R} {stop : SolutionState R → R → Bool}

include laws in
/-- The step size tried before the final time is admissible. -/
theorem stepSize {c : Continuation R} (hc : CacheInvariant ode c) {current : SolutionState R}
    (hTime : ¬ tFinal ≤ current.time) : Admissible (c.stepSize tFinal current) :=
  fmin_admissible hc.dt (laws.admissible_sub _ _ hTime)

include laws in
/-- The stepper left by an attempt keeps a valid factorisation, the step size tried before the
final time being admissible. -/
theorem attempted (hOnly : ode.JacobianByStep) {c : Continuation R} (hc : CacheInvariant ode c)
    {current : SolutionState R} {s : Stepper R} {attempt : Except (StepError ε) (Step R)}
    (hTime : ¬ tFinal ≤ current.time)
    (hStep : c.stepper.takeStep ode current (c.stepSize tFinal current) = (s, attempt)) :
    CacheInvariant ode (c.attempted s) := by
  have hKept : KeptSound ode (c.stepper.takeStep ode current (c.stepSize tFinal current)).1.cache :=
    Stepper.takeStep_kept laws hOnly hc.kept (hc.stepSize laws hTime)
  rw [hStep] at hKept
  exact ⟨hc.valid, hc.dt, hKept⟩

include laws in
/-- **One pass of the loop keeps the invariant.** A retry forgets the kept factorisation and
tries a step size not below the minimum; an accepted step keeps the factorisation of its own
step and clamps the next step size between the bounds. -/
theorem pass (hOnly : ode.JacobianByStep) {q q' : LoopPoint R}
    (h : Continuation.Pass ode tFinal stop q q')
    (hq : CacheInvariant ode q.cont) : CacheInvariant ode q'.cont := by
  have hBounds := laws.config_bounds_pos hq.valid
  cases h with
  | retry hTime _ _ _ _ hMin =>
    exact ⟨hq.valid, laws.admissible_of_not_lt _ _ hBounds.1 hMin, KeptSound.none ode⟩
  | accept hTime _ hStep _ _ _ =>
    exact ⟨hq.valid, clampTo_admissible laws hBounds.1 hBounds.2.2,
      (hq.attempted laws hOnly hTime hStep).kept⟩

/-- The invariant reads only the settings, the step size and the stepper. -/
theorem of_eq {c c' : Continuation R} (hc : CacheInvariant ode c) (hConfig : c'.config = c.config)
    (hDt : c'.dt = c.dt) (hStepper : c'.stepper = c.stepper) : CacheInvariant ode c' :=
  ⟨hConfig ▸ hc.valid, hDt ▸ hc.dt, hStepper ▸ hc.kept⟩

include laws in
/-- **Every exit of the loop keeps the invariant**: the continuation it ends with has the
settings, the step size and the stepper of the last attempt. -/
theorem exit (hOnly : ode.JacobianByStep) {q : LoopPoint R} {o : Continuation.Outcome R ε}
    (h : Continuation.Exit ode tFinal stop q o) (hq : CacheInvariant ode q.cont) :
    CacheInvariant ode o.1 := by
  cases h with
  | finalTime | maxSteps => exact hq.of_eq rfl rfl rfl
  | problem hTime _ hStep _ => exact (hq.attempted laws hOnly hTime hStep).of_eq rfl rfl rfl
  | breach hTime _ hStep _ => exact hq.attempted laws hOnly hTime hStep
  | stepFailures hTime _ hStep _ _ | minTimeStep hTime _ hStep _ _ _ =>
    exact (hq.attempted laws hOnly hTime hStep).of_eq rfl rfl rfl
  | steady hTime _ hStep _ _ | stopped hTime _ hStep _ _ _ =>
    exact (hq.attempted laws hOnly hTime hStep).of_eq rfl rfl rfl

include laws in
/-- A chain of passes keeps the invariant. -/
theorem passes (hOnly : ode.JacobianByStep) {q q' : LoopPoint R}
    (h : Relation.ReflTransGen (Continuation.Pass ode tFinal stop) q q')
    (hq : CacheInvariant ode q.cont) : CacheInvariant ode q'.cont := by
  induction h with
  | refl => exact hq
  | tail _ hPass ih => exact ih.pass laws hOnly hPass

include laws in
/-- **A run of the loop keeps the invariant**: along its passes, and at its exit. -/
theorem loop (hOnly : ode.JacobianByStep) {c : Continuation R} (hc : CacheInvariant ode c)
    (current : SolutionState R) (failures : Nat) (events : List (Event R)) :
    CacheInvariant ode (Continuation.loop ode tFinal stop c current failures events).1 := by
  obtain ⟨q, hq, hExit⟩ := Continuation.loop_passes ode tFinal stop c current failures events
  exact (hc.passes laws hOnly hq).exit laws hOnly hExit

include laws in
/-- **A call of `advance` keeps the invariant.** -/
theorem advance (hOnly : ode.JacobianByStep) {c : Continuation R} (hc : CacheInvariant ode c) :
    CacheInvariant ode (c.advance ode tFinal stop).1 := by
  have hCalls : CacheInvariant ode { c with calls := c.calls + 1 } := hc.of_eq rfl rfl rfl
  cases hCurrent : c.history.current with
  | none =>
    rw [Continuation.advance_of_empty hCurrent]
    exact hCalls
  | some current =>
    by_cases hWorking : c.status = .working
    · rw [Continuation.advance_of_working hCurrent hWorking]
      exact hCalls.loop laws hOnly current 0 []
    · rw [Continuation.advance_of_ended hCurrent hWorking]
      exact hCalls

include laws in
/-- A start forgets the kept factorisation and proposes the initial step size, so the
invariant holds for whatever problem the run goes on to step. -/
theorem start {c c' : Continuation R} (hValid : c.config.validate = .ok ()) {dims : Nat × Nat}
    {t0 : R} {x0 : Matrix R} {xDot0 xDotDot0 : Option (Matrix R)}
    (h : c.start (ε := ε) dims t0 x0 xDot0 xDotDot0 = .ok c') : CacheInvariant ode c' := by
  obtain ⟨-, -, rfl⟩ := Continuation.start_eq_ok h
  exact ⟨hValid, .inl (laws.config_bounds_pos hValid).2.1, KeptSound.none ode⟩

include laws in
/-- A continuation just created keeps no factorisation. -/
theorem create {config : Config R} {c : Continuation R} (h : Continuation.create config = .ok c) :
    CacheInvariant ode c := by
  obtain ⟨hValid, rfl⟩ := Continuation.create_eq_ok h
  exact ⟨hValid, .inl (laws.config_bounds_pos hValid).2.1, KeptSound.none ode⟩

end CacheInvariant

/-! ## §4 Across calls -/

/-- The continuations that step the problem `ode`: one just created, one started, whatever
problem it stepped before, and one advanced on `ode` since. A problem changed without a new
start is not among them. -/
inductive Continuation.Reachable : ImplicitOde R ε → Continuation R → Prop where
  | create {ode : ImplicitOde R ε} {config : Config R} {c : Continuation R}
      (h : Continuation.create config = .ok c) : Continuation.Reachable ode c
  | start {ode ode' : ImplicitOde R ε} {c c' : Continuation R} {dims : Nat × Nat} {t0 : R}
      {x0 : Matrix R} {xDot0 xDotDot0 : Option (Matrix R)} (hc : Continuation.Reachable ode' c)
      (h : c.start (ε := ε) dims t0 x0 xDot0 xDotDot0 = .ok c') : Continuation.Reachable ode c'
  | advance {ode : ImplicitOde R ε} {c : Continuation R} (hc : Continuation.Reachable ode c)
      (tFinal : R) (stop : SolutionState R → R → Bool) :
      Continuation.Reachable ode (c.advance ode tFinal stop).1

/-- The loop points that a call of `advance` on `c` passes through: each is the point of one
step attempt. -/
def Continuation.Visits (ode : ImplicitOde R ε) (tFinal : R) (stop : SolutionState R → R → Bool)
    (c : Continuation R) (q : LoopPoint R) : Prop :=
  ∃ current, c.history.current = some current ∧ c.status = .working ∧
    Relation.ReflTransGen (Continuation.Pass ode tFinal stop)
      ⟨{ c with calls := c.calls + 1 }, current, 0, []⟩ q

namespace Continuation.Reachable

variable {ode : ImplicitOde R ε} {c : Continuation R}

/-- A reachable continuation has validated settings. -/
theorem valid (hc : Continuation.Reachable ode c) : c.config.validate = .ok () := by
  induction hc with
  | create h =>
    obtain ⟨hValid, rfl⟩ := Continuation.create_eq_ok h
    exact hValid
  | start _ h ih =>
    obtain ⟨-, -, rfl⟩ := Continuation.start_eq_ok h
    exact ih
  | @advance ode c _ tFinal stop ih =>
    rw [Continuation.advance_config ode tFinal stop c]
    exact ih

include laws in
/-- **A reachable continuation keeps the invariant** for the problem it steps, whatever
problems it stepped before its last start. -/
theorem cacheInvariant (hOnly : ode.JacobianByStep) (hc : Continuation.Reachable ode c) :
    CacheInvariant ode c := by
  induction hc with
  | create h => exact .create laws h
  | start hc h _ => exact .start laws hc.valid h
  | advance _ tFinal stop ih => exact (ih hOnly).advance laws hOnly

include laws in
/-- **The kept factorisation is unobservable**: at every point of every call of `advance` on
a reachable continuation, a step returns what a stepper without a kept factorisation
returns. -/
theorem takeStep_reset (hOnly : ode.JacobianByStep) (hc : Continuation.Reachable ode c)
    {tFinal : R} {stop : SolutionState R → R → Bool} {q : LoopPoint R}
    (hq : c.Visits ode tFinal stop q) (current : SolutionState R) (dt : R) :
    (q.cont.stepper.takeStep ode current dt).2 =
      (q.cont.stepper.reset.takeStep ode current dt).2 := by
  obtain ⟨_, -, -, hRun⟩ := hq
  have hStart : CacheInvariant ode { c with calls := c.calls + 1 } :=
    (hc.cacheInvariant laws hOnly).of_eq rfl rfl rfl
  exact Stepper.takeStep_reset laws (hStart.passes laws hOnly hRun).kept

end Continuation.Reachable

end Integrator

end SteadyAdjoint
