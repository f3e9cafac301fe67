import SteadyAdjoint.Session.Values
import SteadyAdjoint.Integrator.Continuation

/-!
# Snapshots of a continuation

After every operation of a request the answer shows where the continuation stands: its
status and termination, the index and time of its current state (the time is NaN while the
history is empty), the step it will try next, how many states it keeps and the index of the
oldest, and its two counters. Histories and events are written state by state.

An operation whose computation breaches (a system or product of mismatched shapes, a read
past the end of a vector) abandons the whole request, whose answer is then `abandoned`.
-/

namespace SteadyAdjoint.Session

open SteadyAdjoint.Document
open SteadyAdjoint.Integrator

/-- A continuation's progress. -/
def snapshotEntries (c : Continuation Float) : List (String × Node) :=
  [("status", .string c.status.name),
   ("termination", .ofOption (c.termination.map fun t => .string t.name)),
   ("index", .ofNat c.index),
   ("time", .ofFloat c.time),
   ("dt", .ofFloat c.dt),
   ("len", .ofNat c.history.length),
   ("oldest", .ofOption (c.history.oldest.map fun s => .ofNat s.index)),
   ("calls", .ofNat c.calls),
   ("attempts", .ofNat c.attempts)]

/-- A continuation's progress as a table. -/
def snapshot (c : Continuation Float) : Node := .table (snapshotEntries c)

/-- An accepted state. -/
def stateNode (s : SolutionState Float) : Node :=
  .table [("time", .ofFloat s.time), ("index", .ofNat s.index), ("dt", .ofFloat s.dt),
    ("x", matrixNode s.x), ("x_dot", matrixNode s.xDot),
    ("x_dot_dot", .ofOption (s.xDotDot.map matrixNode))]

/-- A history, or its newest `last` states. -/
def historyNode (h : History Float) (last : Option Nat) : Node :=
  let states := match last with
    | some n => h.newest n
    | none => h.toList
  .table [("len", .ofNat h.length), ("storage_limit", .ofOption (h.limit.map Node.ofNat)),
    ("states", .array (states.map stateNode))]

/-- The fields of an accepted step's event. -/
def eventEntries (e : Event Float) : List (String × Node) :=
  [("index", .ofNat e.state.index), ("time", .ofFloat e.state.time),
   ("dt", .ofFloat e.state.dt), ("rate", .ofFloat e.rate)]

/-- An error of a continuation. -/
def solveErrorNode {ε : Type} (describe : ε → String) (e : SolveError ε) : Node :=
  errorNode e.kind (e.message describe)

/-- The status named by an operation's `status`. -/
def readStatus (op : Node) : Reading Status :=
  match looseName op "status" with
  | some "working" => .ok .working
  | some "passed" => .ok .passed
  | some "failed" => .ok .failed
  | _ => .error "status must be working, passed or failed"

/-- What one operation gives: the state afterwards and the operation's result, or nothing
when a computation breached and the whole request is abandoned. -/
abbrev OpOutcome (σ : Type) := Option (σ × Node)

/-- An operation's outcome: abandoned when `broken`, else the state and the result. -/
def unlessBroken {σ : Type} (broken : Bool) (s : σ) (result : Node) : OpOutcome σ :=
  if broken then none else some (s, result)

/-- Runs the operations of a request in order. Each operation gives the next state and its
result; the answer lists every result with the state after it, unless an operation abandons
the request. -/
def runOps {σ : Type} (step : σ → Node → OpOutcome σ) (snap : σ → Node) :
    σ → List Node → Option (List Node)
  | _, [] => some []
  | s, op :: ops => do
    let (s, result) ← step s op
    let rest ← runOps step snap s ops
    pure (.table [("result", result), ("state", snap s)] :: rest)

/-- The answer to an operation without a name, or with a name that is not known. -/
def unknownOp (name : Option String) : Node :=
  match name with
  | some name => badInput ("unknown op " ++ name)
  | none => badInput "op needs do"

/-- Turns a reading into an answer when it fails. -/
def orAnswer {α : Type} (r : Reading α) : Except Node α := r.mapError badInput

/-- The answer to a request abandoned because a computation breached. -/
def abandoned : Node := .table [("error", .string "Panic")]

/-- The answer of a computation that may stop early with its answer. -/
def answerOf (r : Except Node Node) : Node :=
  match r with
  | .ok n => n
  | .error n => n

end SteadyAdjoint.Session
