import DampedLeastSquares.Difference
import DampedLeastSquares.Loss
import DampedLeastSquares.NormalMatrix
import DampedLeastSquares.Settings

/-!
# The state of a search

Everything that a search remembers between two calls: the parameters and the
candidate for their successor, the derivatives at the parameters, the damping,
and what has been reported. A search never runs on its own; the caller advances
it one call at a time and may change settings, loss and functions in between.
-/

set_option autoImplicit false

namespace DampedLeastSquares

/-- What the next call does. -/
inductive Phase where
  /-- Compute the derivatives at the parameters. -/
  | differentiate
  /-- Look for parameters of lower cost. -/
  | search
  | converged
deriving DecidableEq

/-- Which Jacobians a solver works with. -/
inductive JacobianForm where
  | whole
  | split
  /-- None: residuals and Jacobian are left open. -/
  | undefined
deriving DecidableEq

/-- A search for parameters of least cost. `σ` is the state of the caller's
functions. -/
structure Solver (σ α : Type) where
  form : JacobianForm
  normal : NormalMatrix α
  settings : Settings α
  loss : Loss σ α
  problem? : Option (Problem σ α)
  /-- The state of the caller's functions. -/
  world : σ
  verbose : Bool
  /-- What happened so far, first to last. -/
  trace : List (Event α)
  phase : Phase
  /-- How often derivatives were computed. -/
  fullSteps : Nat
  /-- How often a step was looked for. -/
  retries : Nat
  /-- The last call replaced the parameters. -/
  updated : Bool
  x : Vec α
  candidate : Vec α
  step : Vec α
  gradient : Vec α
  scaling : Vec α
  cost : α
  residuals : Vec α
  candidateResiduals : Vec α
  lossGradient : Vec α
  /-- The diagonal of the normal matrix before it was damped. -/
  plainDiagonal : Vec α
  dampedDiagonal : Vec α
  damping : α
  /-- The factor by which the next rejected candidate raises the damping. -/
  growth : α

/-- A computation on a search that ends in a result or a fault. What it changed
before a fault stays changed. -/
abbrev Action (σ α : Type) := ExceptT (Fault α) (StateM (Solver σ α))

namespace Solver

variable {σ α β : Type} [Scalar α]

def evaluate (call : Call σ α β) : Action σ α β :=
  ExceptT.mk fun solver =>
    let (result, world) := call.run solver.world
    (result, { solver with world := world })

/-- A result or fault that does not depend on the search. -/
def attempt (result : Except (Fault α) β) : Action σ α β := ExceptT.mk (pure result)

/-- Change the normal matrix by an operation that may fail after it changed a
part. -/
def changeNormal (change : NormalMatrix α → Except (Fault α) Unit × NormalMatrix α) :
    Action σ α Unit :=
  ExceptT.mk fun solver =>
    let (result, normal) := change solver.normal
    (result, { solver with normal := normal })

def report (events : List (Event α)) : Action σ α Unit :=
  modify fun solver => { solver with trace := solver.trace ++ events }

/-- The growth of the damping at the first rejected candidate. -/
def initialGrowth : α := 2.0

/-- A damping that no search goes beyond. -/
def dampingLimit : α := 1.0e100

def create (form : JacobianForm) (normal : NormalMatrix α) (settings : Settings α) (world : σ) :
    Except (Fault α) (Solver σ α) := do
  settings.check
  return {
    form, normal, settings, world
    loss := Loss.squared
    problem? := none
    verbose := false
    trace := []
    phase := .differentiate
    fullSteps := 0
    retries := 0
    updated := false
    x := []
    candidate := []
    step := []
    gradient := []
    scaling := []
    cost := 0.0 / 0.0
    residuals := []
    candidateResiduals := []
    lossGradient := []
    plainDiagonal := []
    dampedDiagonal := []
    damping := settings.initialDamping
    growth := initialGrowth }

/-- A search with Jacobians in one piece. The normal matrix must be one, too. -/
def whole (normal : NormalMatrix α) (settings : Settings α) (world : σ) :
    Except (Fault α) (Solver σ α) :=
  match normal with
  | .whole _ => create .whole normal settings world
  | .split found => .error (.refused (.wholeStorage found.storage))

/-- A search with Jacobians in two blocks. The normal matrix must have them, too. -/
def split (normal : NormalMatrix α) (settings : Settings α) (world : σ) :
    Except (Fault α) (Solver σ α) :=
  match normal with
  | .split _ => create .split normal settings world
  | .whole found => .error (.refused (.splitStorage found.method.storage))

/-- A search over functions that are left open. -/
def bare (normal : NormalMatrix α) (settings : Settings α) (world : σ) :
    Except (Fault α) (Solver σ α) :=
  create .undefined normal settings world

def configure (settings : Settings α) : Action σ α Unit := do
  attempt settings.check
  modify fun solver => { solver with settings := settings }

/-- Use other settings from now on, which must be given. -/
def configureFrom (settings? : Option (Settings α)) : Action σ α Unit := do
  match settings? with
  | some settings => configure settings
  | none => throw .unsupported

def setLoss (loss : Loss σ α) (solver : Solver σ α) : Solver σ α := { solver with loss := loss }

def setVerbose (verbose : Bool) (solver : Solver σ α) : Solver σ α :=
  { solver with verbose := verbose }

/-- The Jacobian function to use: the one given, or differences of the residuals,
which need to be told where to split the columns. -/
def jacobianFunction (solver : Solver σ α) (residuals : Vec α → Call σ α (View σ α))
    (jacobian? : Option (Vec α → Call σ α (Derivative α))) (split? : Option Int) :
    Except (Fault α) (Vec α → Call σ α (Derivative α)) :=
  let asSparse := solver.normal.prefersSparse
  match solver.form, jacobian?, split? with
  | .undefined, _, _ => .error .unsupported
  | _, some jacobian, _ => .ok jacobian
  | .whole, none, _ => .ok (Difference.whole residuals Difference.standardScale asSparse)
  | .split, none, some position =>
      .ok (Difference.split residuals Difference.standardScale asSparse position)
  | .split, none, none => .error (.refused .noSplit)

/-- Search for the minimum over other functions. Where the search itself asks for residuals, it
copies the answer. -/
def setFunctions (residuals : Vec α → Call σ α (View σ α))
    (jacobian? : Option (Vec α → Call σ α (Derivative α))) (split? : Option Int) (world : σ) :
    Action σ α Unit := do
  let jacobian ← attempt ((← get).jacobianFunction residuals jacobian? split?)
  modify fun solver =>
    { solver with problem? := some ⟨View.copied residuals, jacobian⟩, world := world }

def problem : Action σ α (Problem σ α) := do
  let solver ← get
  match solver.form, solver.problem? with
  | .undefined, _ => throw .undefined
  | _, none => throw .wrongKind
  | _, some problem => return problem

def residualsAt (x : Vec α) : Action σ α (Vec α) := do
  return (← evaluate ((← problem).residuals x)).flatten

def costOf (residuals : Vec α) : Action σ α α := do
  attempt ((← get).loss.cost residuals)

/-- Let the loss settle on residuals. The answer tells whether it changed. -/
def settle (residuals : Vec α) : Action σ α Bool := do
  let (loss, changed) ← evaluate ((← get).loss.settle residuals)
  modify fun solver => { solver with loss := loss }
  return changed

end Solver

end DampedLeastSquares
