import DampedLeastSquares.Loss
import DampedLeastSquares.Settings

/-!
# Choosing a loss

A loss given by its kind and one parameter. A parameter that was left out is
undefined, and only the squared loss does without one. Weights are chosen here
from the residuals alone, by rules that have a name.
-/

set_option autoImplicit false

namespace DampedLeastSquares

inductive LossKind where
  | cauchy
  | huber
  | smoothHuber
  | squared
  | tukey
  | reweighted
deriving DecidableEq

structure LossChoice (α : Type) where
  kind : LossKind
  parameter : α

namespace LossChoice

variable {σ α : Type} [Scalar α]

/-- The choice that is made unless another is given: the parameter is still open. -/
def standard : LossChoice α := ⟨.huber, 0.0 / 0.0⟩

def isRobust (choice : LossChoice α) : Bool := choice.kind != .squared

def same (left right : LossChoice α) : Bool :=
  left.kind == right.kind && Scalar.same left.parameter right.parameter

def loss (choice : LossChoice α) : Except (Fault α) (Loss σ α) :=
  match choice.kind with
  | .squared => .ok Loss.squared
  | .reweighted => .error (.refused .reweightedByName)
  | kind =>
      if Scalar.isNaN choice.parameter then .error (.refused .noLossParameter)
      else match kind with
        | .cauchy => .ok ⟨.cauchy choice.parameter, 0⟩
        | .huber => .ok ⟨.huber choice.parameter, 0⟩
        | .smoothHuber => .ok ⟨.smoothHuber choice.parameter, 0⟩
        | _ => .ok ⟨.tukey choice.parameter, 0⟩

end LossChoice

inductive WeightRule where
  /-- The reciprocal of the residual's size, at most one. -/
  | cappedReciprocal
  | reciprocal
  /-- Zero beyond a size of two, one up to it. -/
  | cutoff
  /-- Half of the previous weight, whatever the residual is. -/
  | halving
deriving DecidableEq

/-- The weights a rule chooses, as many as there were before. -/
def WeightRule.choose {σ α : Type} [Scalar α] (rule : WeightRule) (residuals weights : Vec α) :
    Call σ α (Vec α) :=
  let assigned (values : Vec α) : Call σ α (Vec α) := Call.fit (Vec.fill? weights.length values)
  match rule with
  | .cappedReciprocal =>
      assigned (residuals.map fun residual => 1.0 / Scalar.larger (Scalar.abs residual) 1.0)
  | .reciprocal => assigned (residuals.map fun residual => 1.0 / Scalar.abs residual)
  | .cutoff =>
      assigned (residuals.map fun residual => if 2.0 < Scalar.abs residual then 0.0 else 1.0)
  | .halving => return weights.map (· * 0.5)

end DampedLeastSquares
