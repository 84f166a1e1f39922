import DampedLeastSquares.Solver.State

/-!
# Choosing a solver

The combinations of Jacobian, storage and method that are used most.
-/

set_option autoImplicit false

namespace DampedLeastSquares.Solver

variable {σ α : Type} [Scalar α]

/-- Dense Jacobians in one piece. The robust method copes with singular matrices
and is slower. -/
def dense (settings : Settings α) (robust : Bool) (world : σ) : Except (Fault α) (Solver σ α) :=
  let method := if robust then .leastNorm Method.standardCutoff else .elimination
  whole (.whole (WholeNormal.create method)) settings world

def sparse (settings : Settings α) (world : σ) : Except (Fault α) (Solver σ α) :=
  whole (.whole (WholeNormal.create .sparse)) settings world

/-- Damping by the identity alone. -/
def identityDamped (initialDamping : α) (asSparse : Bool) (world : σ) :
    Except (Fault α) (Solver σ α) :=
  let settings : Settings α :=
    { Settings.standard with initialDamping := initialDamping, mixture := 1.0 }
  if asSparse then sparse settings world else dense settings false world

def blocks (settings : Settings α) (asSparse : Bool) (world : σ) :
    Except (Fault α) (Solver σ α) :=
  split (.split (SplitNormal.create asSparse)) settings world

def standardDamping : α := 1.0e-3

end DampedLeastSquares.Solver
