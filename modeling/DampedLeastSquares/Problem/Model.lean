import DampedLeastSquares.Problem.Algebraic
import DampedLeastSquares.Problem.Bearings
import DampedLeastSquares.Problem.Line

/-!
# Sample problems

The sample problems as functions for a solver. Calls to the residuals are
counted, and after a number of them the residuals can be replaced by a fixed
answer, which shows how a search meets a function that breaks. Jacobians come in
several forms, all made from the exact derivatives.
-/

set_option autoImplicit false

namespace DampedLeastSquares

inductive Model (α : Type) where
  | rosenbrock
  | brown
  | line (points : DenseMatrix α)
  | exponential (times samples : Vec α)
  | bearings (cameras : Int) (observations : Vec α)
  | linear (matrix : DenseMatrix α) (rhs : Vec α)
  | polynomial (residuals : List (Polynomial α))

/-- The forms in which a Jacobian is handed to a solver. -/
inductive JacobianKind (α : Type) where
  /-- The exact derivatives times a factor, in the storage asked for. -/
  | exact (sparse? : Option Bool) (factor : α)
  /-- Two blocks, cut at a position or as the problem itself has them. -/
  | blocks (cut? : Option Int) (sparse? : Option Bool)
  /-- The two blocks put together again. -/
  | rejoined (cut? : Option Int) (sparse? : Option Bool)
  /-- The same answer everywhere. -/
  | constant (answer : Derivative α)

namespace Model

variable {α : Type} [Scalar α]

def residuals : Model α → Vec α → Except (Fault α) (Vec α)
  | rosenbrock, x => Rosenbrock.residuals x
  | brown, x => Brown.residuals x
  | line points, x => Line.residuals points x
  | exponential times samples, x => Exponential.residuals times samples x
  | bearings cameras observations, x => Bearings.residuals cameras observations x
  | linear matrix rhs, x => .ok (Linear.residuals matrix rhs x)
  | polynomial polynomials, x => Polynomial.residuals polynomials x

/-- The exact derivatives. Lines have none. -/
def derivatives : Model α → Vec α → Except (Fault α) (Matrix α)
  | rosenbrock, x => (Rosenbrock.jacobian x).map .dense
  | brown, x => (Brown.jacobian x).map .dense
  | line _, _ => .error .wrongKind
  | exponential times _, x => (Exponential.jacobian times x).map .dense
  | bearings cameras _, x => (Bearings.jacobian cameras x).map .sparse
  | linear matrix _, _ => .ok (.dense matrix)
  | polynomial polynomials, x => (Polynomial.jacobian polynomials x).map .dense

/-- The derivatives in two blocks, as the problem has them. -/
def ownBlocks : Model α → Vec α → Except (Fault α) (Matrix α × Matrix α)
  | bearings cameras _, x =>
      (Bearings.blocks cameras x).map fun (left, right) => (.sparse left, .sparse right)
  | _, _ => .error .wrongKind

def inStorage (sparse? : Option Bool) (matrix : Matrix α) : Matrix α :=
  match sparse? with
  | some asSparse => matrix.stored asSparse
  | none => matrix

/-- Two blocks, cut at a position or as the problem itself has them. -/
def blocks (model : Model α) (cut? : Option Int) (sparse? : Option Bool) (x : Vec α) :
    Except (Fault α) (Matrix α × Matrix α) := do
  let (left, right) ← match cut? with
    | none => model.ownBlocks x
    | some cut => (model.derivatives x).map (·.cutColumns cut)
  return (inStorage sparse? left, inStorage sparse? right)

def jacobian (model : Model α) (kind : JacobianKind α) (x : Vec α) :
    Except (Fault α) (Derivative α) :=
  match kind with
  | .exact sparse? factor => do
      let matrix ← model.derivatives x
      return .whole (.matrix (inStorage sparse? (matrix.mapStored (· * factor))))
  | .blocks cut? sparse? => do
      let (left, right) ← model.blocks cut? sparse? x
      return .split (.matrix left) (.matrix right)
  | .rejoined cut? sparse? => do
      let (left, right) ← model.blocks cut? sparse? x
      return .whole (.matrix (← Fault.fit (left.append? right)))
  | .constant answer => .ok answer

/-- A fixed answer in place of the residuals of all calls after a number of them. -/
structure Interruption (α : Type) where
  after : Nat
  answer : Tensor α

/-- The residuals as a function whose calls are counted. -/
def counted (model : Model α) (interruption? : Option (Interruption α)) (x : Vec α) :
    Call Nat α (Tensor α) := do
  modify (· + 1)
  let calls ← get
  match interruption? with
  | some interruption =>
      if interruption.after < calls then return interruption.answer
      else return .vector (← Call.ofExcept (model.residuals x))
  | none => return .vector (← Call.ofExcept (model.residuals x))

end Model

end DampedLeastSquares
