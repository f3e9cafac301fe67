import SteadyAdjoint.Binary64.Text
import SteadyAdjoint.Binary64.Double
import SteadyAdjoint.Document.Printable
import SteadyAdjoint.Document.Json
import SteadyAdjoint.Document.Toml
import SteadyAdjoint.Document.Decode
import SteadyAdjoint.Linear.Scalar
import SteadyAdjoint.Linear.Matrix
import SteadyAdjoint.Linear.Lu
import SteadyAdjoint.Model.Basic
import SteadyAdjoint.Model.Cubic
import SteadyAdjoint.Model.Logistic
import SteadyAdjoint.Model.Reactor
import SteadyAdjoint.Model.Poly
import SteadyAdjoint.Integrator.Config
import SteadyAdjoint.Integrator.Problem
import SteadyAdjoint.Integrator.History
import SteadyAdjoint.Integrator.Step
import SteadyAdjoint.Integrator.Continuation
import SteadyAdjoint.Sensitivity.Settings
import SteadyAdjoint.Sensitivity.Equation
import SteadyAdjoint.Sensitivity.Solver
import SteadyAdjoint.Sensitivity.Report
import SteadyAdjoint.Integrator.Codec
import SteadyAdjoint.Sensitivity.Codec
import SteadyAdjoint.Session.Values
import SteadyAdjoint.Session.Fixtures
import SteadyAdjoint.Session.Documents
import SteadyAdjoint.Session.Snapshots
import SteadyAdjoint.Session.Integrate
import SteadyAdjoint.Session.Adjoint
import SteadyAdjoint.Session.Run
import SteadyAdjoint.Session.Respond
import SteadyAdjoint.Exact.Real
import SteadyAdjoint.Proofs.Passes
import SteadyAdjoint.Proofs.Calls
import SteadyAdjoint.Proofs.Trips
import SteadyAdjoint.Proofs.BoundedRuns
import SteadyAdjoint.Proofs.Stages
import SteadyAdjoint.Proofs.Transposed
import SteadyAdjoint.Proofs.Cache
import SteadyAdjoint.Proofs.DoubleLaws
import SteadyAdjoint.Proofs.AdjointCache
import SteadyAdjoint.Proofs.ExactMatrix
import SteadyAdjoint.Proofs.Elimination
import SteadyAdjoint.Proofs.AdjointBalance
import SteadyAdjoint.Proofs.Outcomes
import SteadyAdjoint.Proofs.ForwardPhase
import SteadyAdjoint.Proofs.Rejections
import SteadyAdjoint.Proofs.Observers
import SteadyAdjoint.Proofs.Assembly
import SteadyAdjoint.Proofs.Retained
import SteadyAdjoint.Proofs.AffineStep
import SteadyAdjoint.Proofs.Overflow
import SteadyAdjoint.Proofs.FrozenEquation
import SteadyAdjoint.Proofs.Budget
import SteadyAdjoint.Proofs.ExplicitRates
import SteadyAdjoint.Proofs.Validation
import SteadyAdjoint.Proofs.Rounding
import SteadyAdjoint.Proofs.Clock
