import DampedLeastSquares.Agreement
import DampedLeastSquares.Configuration
import DampedLeastSquares.Difference.Check
import DampedLeastSquares.Problem.Model
import DampedLeastSquares.Random.Samples
import DampedLeastSquares.Solver.Choice
import DampedLeastSquares.Solver.Minimize
import DampedLeastSquares.Proofs.Descent
import DampedLeastSquares.Proofs.Interruption
import DampedLeastSquares.Proofs.Progression
import DampedLeastSquares.Proofs.Limits
import DampedLeastSquares.Proofs.Settling
import DampedLeastSquares.Proofs.Stalling
import DampedLeastSquares.Proofs.Exact.Real
import DampedLeastSquares.Proofs.Exact.Arrays
import DampedLeastSquares.Proofs.Exact.Sparse
import DampedLeastSquares.Proofs.Exact.Storage
import DampedLeastSquares.Proofs.Exact.PositiveDefinite
import DampedLeastSquares.Proofs.Exact.Elimination
import DampedLeastSquares.Proofs.Blocks
import DampedLeastSquares.Proofs.Exact.Normal
import DampedLeastSquares.Proofs.Exact.Gram
import DampedLeastSquares.Proofs.Exact.Step
import DampedLeastSquares.Proofs.Exact.Derivatives
import DampedLeastSquares.Proofs.Sizes
import DampedLeastSquares.Proofs.Consistency
import DampedLeastSquares.Proofs.Finiteness
import DampedLeastSquares.Proofs.UndefinedResiduals
import DampedLeastSquares.Proofs.DampedSystem
import DampedLeastSquares.Proofs.Escalation
import DampedLeastSquares.Proofs.Restart
import DampedLeastSquares.Proofs.LinearResiduals
import DampedLeastSquares.Proofs.OtherUnits
import DampedLeastSquares.Proofs.Blind
import DampedLeastSquares.Proofs.Exact.Holding
import DampedLeastSquares.Proofs.Layouts
import DampedLeastSquares.Proofs.Exact.Operations
import DampedLeastSquares.Proofs.ResidualLengths
import DampedLeastSquares.Proofs.PartialChanges
import DampedLeastSquares.Proofs.PreparedSystems
import DampedLeastSquares.Proofs.Commands
import DampedLeastSquares.Proofs.Tolerances
import DampedLeastSquares.Proofs.DampingRange
import DampedLeastSquares.Proofs.Exact.Losses
import DampedLeastSquares.Proofs.CostGradient
import DampedLeastSquares.Proofs.Rescaling
import DampedLeastSquares.Proofs.Judgement
import DampedLeastSquares.Proofs.LastDerivatives
import DampedLeastSquares.Proofs.Prediction
import DampedLeastSquares.Proofs.DampingChoice
import DampedLeastSquares.Proofs.FloatDifferences
import DampedLeastSquares.Proofs.GradientTest
import DampedLeastSquares.Proofs.Certificate
import DampedLeastSquares.Proofs.Landing
import DampedLeastSquares.Proofs.ObservedPairs
import DampedLeastSquares.Proofs.BearingDerivatives
import DampedLeastSquares.Proofs.SimilarScenes
import DampedLeastSquares.Proofs.LineProjection
import DampedLeastSquares.Proofs.CurveDerivatives
import DampedLeastSquares.Proofs.Exact.Extended
import DampedLeastSquares.Proofs.JacobianCheck
import DampedLeastSquares.Proofs.Exact.LeastNorm
import DampedLeastSquares.Proofs.RobustSteps
import DampedLeastSquares.Proofs.Exact.Influence
import DampedLeastSquares.Proofs.ResidualCosts
import DampedLeastSquares.Proofs.LossParameters
import DampedLeastSquares.Proofs.DifferenceCalls
import DampedLeastSquares.Proofs.Exact.Quadratics
import DampedLeastSquares.Proofs.QuadraticDifferences
import DampedLeastSquares.Proofs.SplitDifferences
import DampedLeastSquares.Proofs.FloatBounds
import DampedLeastSquares.Proofs.Acceptance
import DampedLeastSquares.Proofs.Exact.Checked
import DampedLeastSquares.Proofs.Exact.CheckedArrays
import DampedLeastSquares.Proofs.Exact.CheckedSystems
import DampedLeastSquares.Proofs.Exact.CheckedNormal
import DampedLeastSquares.Proofs.Exact.CheckedCalls
import DampedLeastSquares.Proofs.Exact.CheckedSearch
import DampedLeastSquares.Proofs.Divisions
import DampedLeastSquares.Proofs.SharedAnswers
import DampedLeastSquares.Proofs.StaleSteps
