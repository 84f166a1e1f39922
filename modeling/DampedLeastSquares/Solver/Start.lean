import DampedLeastSquares.Solver.Iterate

/-!
# Starting a search

A search starts at given parameters, forgets what came before, and refuses a
start whose cost is not finite.
-/

set_option autoImplicit false

namespace DampedLeastSquares.Solver

variable {σ α : Type} [Scalar α]

/-- Take over tolerances, where they are given, and refuse settings that are not
valid with them. -/
def adoptTolerances (costTolerance? gradientTolerance? : Option α) : Action σ α Unit := do
  modify fun solver => { solver with settings := { solver.settings with
    costTolerance := costTolerance?.getD solver.settings.costTolerance
    gradientTolerance := gradientTolerance?.getD solver.settings.gradientTolerance } }
  attempt (← get).settings.check

/-- Make room for the parameters and set all counters back. -/
def resetParameters (start : Vec α) : Action σ α Unit :=
  modify fun solver => { solver with
    x := start
    candidate := Vec.zeros start.length
    step := Vec.zeros start.length
    gradient := Vec.zeros start.length
    scaling := Vec.ones start.length
    normal := solver.normal.reset start.length
    phase := .differentiate
    fullSteps := 0
    retries := 0
    updated := false }

/-- Set the damping back and make room for the diagonals. -/
def resetDamping : Action σ α Unit :=
  modify fun solver => { solver with
    damping := solver.settings.initialDamping
    growth := initialGrowth
    plainDiagonal := Vec.zeros solver.x.length
    dampedDiagonal := Vec.zeros solver.x.length }

/-- Evaluate the residuals at the start and settle the loss on them. -/
def resetResiduals : Action σ α Unit := do
  let residuals ← residualsAt (← get).x
  modify fun solver => { solver with
    residuals := residuals
    candidateResiduals := Vec.zeros residuals.length
    lossGradient := Vec.zeros residuals.length }
  let loss ← attempt ((← get).loss.prepare residuals.length)
  modify fun solver => { solver with loss := loss }
  let _ ← settle residuals

/-- The title of the progress lines and the line of the start. -/
def startLines (solver : Solver σ α) : List (Event α) :=
  [.progressTitle, .progress {
    step := solver.fullSteps
    cost := solver.cost
    change := 0.0
    stepLength := 0.0
    largestGradient := 0.0
    ratio := 0.0
    damping := solver.damping }]

/-- Start a search at the given parameters. Tolerances that are not given stay
as they are. -/
def start (x : Vec α) (costTolerance? gradientTolerance? : Option α) : Action σ α Unit := do
  let solver ← get
  match solver.form, solver.problem? with
  | .undefined, _ => throw .unsupported
  | _, none => throw (.refused .noFunctions)
  | _, some _ =>
      adoptTolerances costTolerance? gradientTolerance?
      resetParameters x
      resetDamping
      resetResiduals
      let cost ← costOf (← get).residuals
      modify fun solver => { solver with cost := cost }
      if !Scalar.isFinite cost then throw (.breakdown (.initialCost cost))
      let solver ← get
      if solver.verbose then report solver.startLines

end DampedLeastSquares.Solver
