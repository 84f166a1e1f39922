import DampedLeastSquares.Decimal.Text

/-!
# Faults

Why an operation has no result. A fault names its cause and carries the values
that its message shows. Faults of arithmetic and of sizes have no message:
only what the library refuses, and what ends a search, is put into words.
-/

set_option autoImplicit false

namespace DampedLeastSquares

inductive Storage where
  | dense
  | sparse
  | splitDense
  | splitSparse
  | unfactorable
deriving DecidableEq

def Storage.name : Storage → String
  | dense => "DenseHessian"
  | sparse => "SparseHessian"
  | splitDense => "DenseSchurHessian"
  | splitSparse => "SparseSchurHessian"
  | unfactorable => "Failing"

/-- What is wrong with an argument. -/
inductive Refusal (α : Type) where
  | tolerances (cost gradient : α)
  /-- The interval of scaling factors is empty or reaches down to zero. -/
  | scalingClamp (low high : α)
  | mixture (value : α)
  | initialDamping (value : α)
  | diagonalClamp (low high : α)
  | denseSolver (name : String)
  /-- A solver for whole Jacobians was given another storage. -/
  | wholeStorage (found : Storage)
  /-- A solver for split Jacobians was given another storage. -/
  | splitStorage (found : Storage)
  | noFunctions
  | noSplit
  | splitPosition (position : Int) (columns : Nat)
  | jacobianShape (expected : List Int) (found : List Nat)
  | weightCount (weights : Nat) (functions : Int)
  | noLossParameter
  /-- A reweighted loss cannot be chosen by name alone. -/
  | reweightedByName
  | infiniteBearings

/-- Why a search cannot go on. -/
inductive Breakdown (α : Type) where
  | initialCost (cost : α)
  | candidateCost (cost : α)
  | gradient
  | hessianDiagonal
  /-- No step exists and the damping cannot provide one. -/
  | singular
  | runaway (damping growth : α)
  | worseCost

/-- Why an operation has no result. -/
inductive Fault (α : Type) where
  /-- Sizes that do not fit together. -/
  | shape
  /-- An entry or an axis that is not there. -/
  | index
  /-- Arrays that would have to be joined along an axis which they do not have. -/
  | noAxis
  /-- A value of the wrong kind, such as nothing where a function is needed. -/
  | wrongKind
  /-- A value that does not have the operation. -/
  | unsupported
  | overflow
  | divisionByZero
  /-- An operation that the base leaves open. -/
  | undefined
  | refused (reason : Refusal α)
  | breakdown (reason : Breakdown α)
  /-- A solution was asked for without a factorization. -/
  | unfactored
  /-- Two arrays differ; the text was chosen by the caller. -/
  | disagreement (text : String)

namespace Fault

/-- The result of an operation whose only failure is that sizes do not fit. -/
def fit {α β : Type} : Option β → Except (Fault α) β
  | some value => .ok value
  | none => .error .shape

/-- The result of reading an entry that may not be there. -/
def present {α β : Type} : Option β → Except (Fault α) β
  | some value => .ok value
  | none => .error .index

end Fault

/-- Extents in parentheses, separated by commas. A single extent keeps a comma,
which tells it from a number in parentheses. -/
def extentsText (extents : List String) : String :=
  match extents with
  | [extent] => "(" ++ extent ++ ",)"
  | _ => "(" ++ ", ".intercalate extents ++ ")"

open Decimal in
def Refusal.message : Refusal Float → String
  | tolerances cost gradient =>
      "Tolerances must be non-negative, was ftol=" ++ general cost ++ " gtol=" ++ general gradient
  | scalingClamp low high =>
      "Scaling clamp must satisfy 0 < min <= max, was [" ++ general low ++ ", " ++
        general high ++ "]"
  | mixture value => "Mixture must be in [0, 1], was " ++ general value
  | initialDamping value => "Dampening must be non-negative, was " ++ general value
  | diagonalClamp low high =>
      "Diagonal clamp must satisfy min <= max, was [" ++ general low ++ ", " ++
        general high ++ "]"
  | denseSolver name =>
      "Unknown dense solver " ++ name ++
        ", expected one of ('cholesky', 'pseudo_inverse')"
  | wholeStorage found => "Hessian must support update_hessian(), was " ++ found.name
  | splitStorage found => "Expected a Schur complement Hessian, was " ++ found.name
  | noFunctions => "set_function() must be called before initialize()"
  | noSplit => "The split must be specified when no Jacobian is provided"
  | splitPosition position columns =>
      "Split " ++ toString position ++ " outside of the parameter range [0, " ++
        toString columns ++ "]."
  | jacobianShape expected found =>
      "Expected Jacobian on form " ++ extentsText (expected.map toString) ++ ", was " ++
        extentsText (found.map toString)
  | weightCount weights functions =>
      "Weights don't match number of functions, " ++ toString weights ++ " != " ++
        toString functions
  | noLossParameter => "You must specify the loss parameter"
  | reweightedByName =>
      "IRLS is not supported by the factory, create LossIRLS with a weight function directly"
  | infiniteBearings => "Observations contain non-finite bearings"

open Decimal in
def Breakdown.message : Breakdown Float → String
  | initialCost cost => "Uncountable initial cost: " ++ shortestText cost
  | candidateCost cost => "Uncountable candidate cost: " ++ shortestText cost
  | gradient => "Uncountable gradient, check the Jacobian function"
  | hessianDiagonal => "Uncountable Hessian diagonal, check the Jacobian function"
  | singular => "Singular matrix encountered. Try setting mixture to a non-zero value"
  | runaway damping growth =>
      "BUG! lambda=" ++ shortestText damping ++ " nu=" ++ shortestText growth
  | worseCost => "Score got worse. Should have been caught earlier!"

/-- The message of a fault, for those that have one. -/
def Fault.message? : Fault Float → Option String
  | refused reason => some reason.message
  | breakdown reason => some reason.message
  | unfactored => some "Solver is not initialized or the last factorization failed."
  | disagreement text => some text
  | undefined => some ""
  | _ => none

end DampedLeastSquares
