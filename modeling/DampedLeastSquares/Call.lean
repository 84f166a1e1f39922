import DampedLeastSquares.Operand

/-!
# Calls

The functions that a caller hands in: residuals, Jacobians, and weights. A call
may fail, and it may read and change a state of its own, such as the number of
times it was made. That state outlives a failure.
-/

set_option autoImplicit false

namespace DampedLeastSquares

/-- A computation with the caller's state `σ` that ends in a result or a fault. -/
abbrev Call (σ α : Type) := ExceptT (Fault α) (StateM σ)

namespace Call

variable {σ α β : Type}

/-- A result or fault that does not depend on the caller's state. -/
def ofExcept (result : Except (Fault α) β) : Call σ α β := ExceptT.mk (pure result)

/-- The result of an operation whose only failure is that sizes do not fit. -/
def fit (result? : Option β) : Call σ α β := ofExcept (Fault.fit result?)

end Call

/-- A Jacobian, in one piece or split into a left and a right block of columns. -/
inductive Derivative (α : Type) where
  | whole (jacobian : Operand α)
  | split (left right : Operand α)

namespace Derivative

variable {α : Type} [Scalar α]

def joined : Derivative α → Except (Fault α) (Operand α)
  | whole jacobian => .ok jacobian
  | split left right => (left.append right).map .matrix

/-- Two blocks. An array that was handed over in one piece is taken apart along
its first axis, as long as that has extent two. -/
def blocks : Derivative α → Except (Fault α) (Operand α × Operand α)
  | split left right => .ok (left, right)
  | whole (.matrix (.sparse found)) =>
      if found.height = 2 then
        .ok (.matrix (.sparse (found.rowMatrix 0)), .matrix (.sparse (found.rowMatrix 1)))
      else .error .shape
  | whole jacobian =>
      match jacobian.toTensor.shape, jacobian.toTensor.slices with
      | [], _ => .error .wrongKind
      | _ :: inner, [left, right] => .ok (.ofTensor ⟨inner, left⟩, .ofTensor ⟨inner, right⟩)
      | _, _ => .error .shape

end Derivative

/-- What a search minimises: residuals and their Jacobian as functions of the
parameters. -/
structure Problem (σ α : Type) where
  residuals : Vec α → Call σ α (Tensor α)
  jacobian : Vec α → Call σ α (Derivative α)

end DampedLeastSquares
