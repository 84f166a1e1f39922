import DampedLeastSquares.View

/-!
# Differences

Derivatives of a residual function from its values at neighbouring points,
along one direction or column by column as a Jacobian. How often and in which
order the function is called is part of each definition, since a call may
change the caller's state.
-/

set_option autoImplicit false

namespace DampedLeastSquares.Difference

variable {σ α : Type} [Scalar α]

/-- The quotient of a change and a step. Between numbers alone, a step of zero has
none; in an array it makes the entries infinite or undefined. -/
def quotient (change : Tensor α) (step : α) : Call σ α (Tensor α) :=
  if change.shape.isEmpty ∧ step == 0.0 then throw .divisionByZero
  else return change.map (· / step)

/-- The quotient of the change from `point` to `point + step * direction` and the
step. -/
def forward (residuals : Vec α → Call σ α (View σ α)) (point direction : Vec α) (step : α) :
    Call σ α (Tensor α) := do
  let offset := direction.map (step * ·)
  let onward ← Call.fit (Vec.combine? (· + ·) point offset)
  let ahead ← residuals onward
  let here ← residuals point
  -- the second call may have written to what the first one answered
  let change ← Call.fit (Tensor.combine? (· - ·) (← ahead.read onward) (← here.read point))
  quotient change step

/-- The quotient of the change from `point - step * direction` to
`point + step * direction` and twice the step. -/
def central (residuals : Vec α → Call σ α (View σ α)) (point direction : Vec α) (step : α) :
    Call σ α (Tensor α) := do
  let offset := direction.map (step * ·)
  let onward ← Call.fit (Vec.combine? (· + ·) point offset)
  let ahead ← residuals onward
  let backward ← Call.fit (Vec.combine? (· - ·) point offset)
  let behind ← residuals backward
  let change ← Call.fit (Tensor.combine? (· - ·) (← ahead.read onward) (← behind.read backward))
  quotient change (2.0 * step)

def forwardStep : α := 1.0e-7

def centralStep : α := 1.0e-6

/-- The columns as a matrix. There must be one, and all must have the same
length. -/
def ofColumns (columns : List (Vec α)) : Except (Fault α) (DenseMatrix α) :=
  match columns with
  | [] => .error .shape
  | first :: rest =>
      if rest.all (·.length == first.length) then
        .ok (DenseMatrix.ofColumns first.length columns)
      else .error .shape

/-- Change one entry of an array after the other. Every visit is handed the same array, with the
entry before it was changed, and the entry is put back before the next one is changed. -/
def inTurn {β : Type} (change : α → α) (visit : α → Vec α → Call σ α β) :
    List Nat → Vec α → Call σ α (List β)
  | [], _ => return []
  | position :: rest, array => do
      let entry := array.getD position 0.0
      let changed := array.set position (change entry)
      let found ← visit entry changed
      return found :: (← inTurn change visit rest (changed.set position entry))

/-- One column of the Jacobian. A number alone is none. -/
def unitColumn (derivative : Vec α → Call σ α (Tensor α)) (direction : Vec α) :
    Call σ α (Vec α) := do
  let column ← derivative direction
  if column.shape.isEmpty then throw .unsupported
  return column.flatten

/-- The Jacobian whose columns are the derivatives along the unit vectors. -/
def alongUnits (derivative : Vec α → Vec α → Call σ α (Tensor α)) (point : Vec α) :
    Call σ α (DenseMatrix α) := do
  let columns ← inTurn (fun _ => 1.0) (fun _ => unitColumn (derivative point))
    (List.range point.length) (Vec.zeros point.length)
  Call.ofExcept (ofColumns columns)

/-- The Jacobian by differences along the unit vectors, forward or central ones. -/
def unitJacobian (residuals : Vec α → Call σ α (View σ α)) (ahead : Bool) (point : Vec α) :
    Call σ α (DenseMatrix α) :=
  alongUnits (fun point direction =>
    if ahead then forward residuals point direction forwardStep
    else central residuals point direction centralStep) point

/-- The square root of the distance from one to the next double, which balances
rounding against the curvature of the function. -/
def standardScale : α := 1.490116119384765625e-8

/-- The step proportional to the size of a parameter, or `scale` itself at zero,
less what rounding takes from it when it is added to the parameter. -/
def relativeStep (scale parameter : α) : α :=
  let step := if parameter == 0.0 then scale else scale * Scalar.abs parameter
  parameter + step - parameter

def stepped (scale parameter : α) : α :=
  parameter + (if parameter == 0.0 then scale else scale * Scalar.abs parameter)

/-- One column of the forward Jacobian: the change from `here`, the answer at the point, after one
parameter was changed in the array that the residuals are called with. -/
def forwardColumn (residuals : Vec α → Call σ α (View σ α)) (scale : α) (height : Nat)
    (here : View σ α) (parameter : α) (array : Vec α) : Call σ α (Vec α) := do
  let ahead ← residuals array
  -- both answers are read now, and `here` may share the array that was changed
  let change ← Call.fit
    (Vec.combine? (· - ·) (← ahead.read array).flatten (← here.read array).flatten)
  Call.fit (Vec.fill? height (change.map (· / relativeStep scale parameter)))

/-- The Jacobian by forward differences with steps relative to the parameters. -/
def forwardJacobian (residuals : Vec α → Call σ α (View σ α)) (scale : α) (point : Vec α) :
    Call σ α (DenseMatrix α) := do
  let here ← residuals point
  let height := (← here.read point).flatten.length
  let columns ← inTurn (stepped scale) (forwardColumn residuals scale height here)
    (List.range point.length) point
  return DenseMatrix.ofColumns height columns

/-- The Jacobian by forward differences, in the given storage. -/
def whole (residuals : Vec α → Call σ α (View σ α)) (scale : α) (asSparse : Bool)
    (point : Vec α) : Call σ α (Derivative α) := do
  let jacobian ← forwardJacobian residuals scale point
  return .whole (.matrix ((Matrix.dense jacobian).stored asSparse))

def splitColumns (jacobian : Matrix α) (position : Int) :
    Except (Fault α) (Matrix α × Matrix α) :=
  if position < 0 ∨ (jacobian.width : Int) < position then
    .error (.refused (.splitPosition position jacobian.width))
  else .ok (jacobian.cutColumns position)

/-- The Jacobian by forward differences, split after `position` columns. -/
def split (residuals : Vec α → Call σ α (View σ α)) (scale : α) (asSparse : Bool)
    (position : Int) (point : Vec α) : Call σ α (Derivative α) := do
  let jacobian ← forwardJacobian residuals scale point
  let (left, right) ←
    Call.ofExcept (splitColumns ((Matrix.dense jacobian).stored asSparse) position)
  return .split (.matrix left) (.matrix right)

/-- The Jacobian in one piece, from a function that may answer two blocks. -/
def joined (jacobian : Vec α → Call σ α (Derivative α)) (point : Vec α) :
    Call σ α (Derivative α) := do
  let (left, right) ← Call.ofExcept (← jacobian point).blocks
  return .whole (.matrix (← Call.ofExcept (left.append right)))

end DampedLeastSquares.Difference
