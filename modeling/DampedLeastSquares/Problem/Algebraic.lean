import DampedLeastSquares.Problem.Curves

/-!
# Linear and polynomial residuals

Residuals given by their coefficients, with exact derivatives.
-/

set_option autoImplicit false

namespace DampedLeastSquares

variable {α : Type} [Scalar α]

/-- Each row's product with the parameters less its right-hand side. Rows and
right-hand sides, and entries and parameters, are paired as far as both go. -/
def Linear.residuals (matrix : DenseMatrix α) (rhs x : Vec α) : Vec α :=
  List.zipWith (fun row value => Vec.dot row x - value) matrix.rows rhs

/-- A coefficient and the exponents of the parameters, first to last. -/
structure Monomial (α : Type) where
  coefficient : α
  exponents : List Nat

abbrev Polynomial (α : Type) := List (Monomial α)

namespace Monomial

/-- Multiply the powers of the parameters, from a position on, into a value. A
parameter is read only if its exponent is positive. -/
def powers (x : Vec α) : Nat → α → List Nat → Except (Fault α) α
  | _, value, [] => .ok value
  | position, value, 0 :: exponents => powers x (position + 1) value exponents
  | position, value, (count + 1) :: exponents => do
      let base ← parameter x position
      powers x (position + 1) (Scalar.timesPower value base (count + 1)) exponents

def value (monomial : Monomial α) (x : Vec α) : Except (Fault α) α :=
  powers x 0 monomial.coefficient monomial.exponents

/-- The derivative with respect to a parameter, if the monomial depends on it. -/
def derivative? (monomial : Monomial α) (position : Nat) :
    Except (Fault α) (Option (Monomial α)) := do
  match ← Fault.present monomial.exponents[position]? with
  | 0 => return none
  | exponent + 1 =>
      return some ⟨monomial.coefficient * Scalar.ofNat (exponent + 1),
        monomial.exponents.set position exponent⟩

end Monomial

namespace Polynomial

/-- The sum of values that may fail, from first to last. -/
def total (values : List (Except (Fault α) α)) : Except (Fault α) α :=
  values.foldlM (fun sum value => return sum + (← value)) 0.0

def value (polynomial : Polynomial α) (x : Vec α) : Except (Fault α) α :=
  total (polynomial.map (·.value x))

def slope (polynomial : Polynomial α) (x : Vec α) (position : Nat) : Except (Fault α) α := do
  let terms ← polynomial.mapM (·.derivative? position)
  value (terms.filterMap id) x

def residuals (polynomials : List (Polynomial α)) (x : Vec α) : Except (Fault α) (Vec α) :=
  polynomials.mapM (·.value x)

/-- The derivatives of several polynomials, one polynomial a row. -/
def jacobian (polynomials : List (Polynomial α)) (x : Vec α) :
    Except (Fault α) (DenseMatrix α) := do
  let rows ← polynomials.mapM fun polynomial =>
    (List.range x.length).mapM (polynomial.slope x)
  Fault.fit (DenseMatrix.ofRows? x.length rows)

end Polynomial

end DampedLeastSquares
