import DampedLeastSquares.Decimal.Text

/-!
# Events

What the library reports while it works: why a matrix could not be factored or
a system not be solved, how a search proceeds, and where two Jacobians differ.
Events are collected in order and never change what is computed.
-/

set_option autoImplicit false

namespace DampedLeastSquares

/-- Why a linear system was not solved. -/
inductive Shortfall where
  /-- The matrix has infinite or undefined entries. -/
  | notFinite
  | notPositiveDefinite
  | sparseNotPositiveDefinite
  /-- The least-norm solution does not exist. -/
  | noLeastNorm
  | leftBlock
  | reducedBlock
  /-- The storage never factors. -/
  | unfactorable
  /-- A solution was found and has infinite or undefined entries. -/
  | notFiniteSolution
deriving DecidableEq

/-- One line on the progress of a search. -/
structure Progress (α : Type) where
  step : Nat
  cost : α
  change : α
  stepLength : α
  largestGradient : α
  ratio : α
  damping : α

inductive Event (α : Type) where
  | shortfall (reason : Shortfall)
  /-- No step was found and the damping was raised. -/
  | stepFailed (step : Nat) (damping : α)
  /-- A candidate neither improves the cost nor worsens it, or was not predicted to. -/
  | noReduction (step : Nat)
  | progressTitle
  | progress (line : Progress α)
  /-- The first of the worst differences between two Jacobians. -/
  | jacobianMismatch (row column : Nat) (found expected : α)

/-- Which part of the library reports an event. -/
inductive EventSource where
  | normalMatrix
  | splitMatrix
  | difference
  | solver
deriving DecidableEq

/-- The words for a reason, for the reasons that are reported. -/
def Shortfall.text? : Shortfall → Option String
  | notFinite => some "Hessian contains non-finite values"
  | notPositiveDefinite => some "Cholesky factorization failed, matrix is not positive definite"
  | sparseNotPositiveDefinite =>
      some "Sparse factorization failed, matrix is not positive definite"
  | noLeastNorm => some "Least-squares solve did not converge"
  | leftBlock => some "Factorization of the local block A failed"
  | reducedBlock => some "Factorization of the reduced system failed"
  | unfactorable => none
  | notFiniteSolution => none

/-- The events that report a shortfall: one, or none where it stays silent. -/
def Shortfall.events {α : Type} (reason : Shortfall) : List (Event α) :=
  match reason.text? with
  | some _ => [.shortfall reason]
  | none => []

namespace Event

def source {α : Type} : Event α → EventSource
  | shortfall .leftBlock => .splitMatrix
  | shortfall .reducedBlock => .splitMatrix
  | shortfall _ => .normalMatrix
  | jacobianMismatch _ _ _ _ => .difference
  | stepFailed _ _ => .solver
  | noReduction _ => .solver
  | progressTitle => .solver
  | progress _ => .solver

/-- Progress is meant for the reader of the results, everything else for finding
out what went wrong. -/
def isInformation {α : Type} : Event α → Bool
  | progressTitle => true
  | progress _ => true
  | _ => false

open Decimal in
def progressText (line : Progress Float) : String :=
  alignLeft 4 (toString line.step) ++ "  " ++
    alignRight 9 (scientificUpper 3 line.cost) ++ "  " ++
    alignRight 10 (scientificUpper 3 line.change) ++ "  " ++
    alignRight 9 (scientificUpper 3 line.stepLength) ++ "  " ++
    alignRight 9 (scientificUpper 3 line.largestGradient) ++ "  " ++
    alignRight 6 (fixed 3 line.ratio) ++ "   " ++
    alignRight 6 (scientificUpper 2 line.damping)

open Decimal in
def text : Event Float → String
  | shortfall reason => reason.text?.getD ""
  | stepFailed step damping =>
      toString step ++ " Step computation failed. Increasing lambda to " ++ general damping
  | noReduction step => toString step ++ " reduction of zero"
  | progressTitle => "Steps     fx        change      |step|     max(g)  tr-ratio  lambda "
  | progress line => progressText line
  | jacobianMismatch row column found expected =>
      "Jacobian mismatch at (" ++ toString row ++ ", " ++ toString column ++ "): found " ++
        general found ++ " expected " ++ general expected

end Event

end DampedLeastSquares
