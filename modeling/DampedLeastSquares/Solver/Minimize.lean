import DampedLeastSquares.Solver.Start

/-!
# Running a search to its end

The search is advanced until it converges or until a number of calls was made,
whichever comes first.
-/

set_option autoImplicit false

namespace DampedLeastSquares

structure Minimum (α : Type) where
  x : Vec α
  cost : α
  converged : Bool

/-- The choices for a single run. What is not given keeps its standard value. -/
structure RunOptions (α : Type) where
  limit : Nat
  costTolerance? : Option α
  gradientTolerance? : Option α

namespace Solver

variable {σ α : Type} [Scalar α] [Spectral α]

/-- Advance a search until it converges, at most `limit` times. -/
def iterateUpTo : Nat → Action σ α Unit
  | 0 => return
  | limit + 1 => do
      if ← iterate then return else iterateUpTo limit

def minimum (solver : Solver σ α) : Minimum α :=
  ⟨solver.x, solver.cost, solver.phase == .converged⟩

/-- Start a search and run it to its end. -/
def minimize (x : Vec α) (options : RunOptions α) : Action σ α (Minimum α) := do
  start x options.costTolerance? options.gradientTolerance?
  iterateUpTo options.limit
  return (← get).minimum

end Solver

/-- The number of calls a run makes at most, unless another is given. -/
def RunOptions.standardLimit : Nat := 500

end DampedLeastSquares
