import DampedLeastSquares.Proofs.Exact.CheckedSystems

/-!
# Normal matrices of numbers

A normal matrix that is solved by elimination holds numbers, and factors whose pivots are greater
than zero. Every operation keeps both, as long as rows and columns are divided by positive numbers.
-/

set_option autoImplicit false

namespace DampedLeastSquares

open Checked

/-- All entries are numbers. -/
def Derivative.Defined : Derivative Checked → Prop
  | whole jacobian => jacobian.Defined
  | split left right => left.Defined ∧ right.Defined

theorem Derivative.Defined.blocks {jacobian : Derivative Checked} (defined : jacobian.Defined) :
    Yields (fun blocks => blocks.1.Defined ∧ blocks.2.Defined) jacobian.blocks := by
  unfold Derivative.blocks
  split
  · exact defined
  · next found =>
      split
      · exact ⟨SparseMatrix.Defined.rowMatrix defined 0, SparseMatrix.Defined.rowMatrix defined 1⟩
      · exact nofun
  · next operand _ =>
      split
      · exact nofun
      · next inner left right _ slices =>
          have operandDefined : operand.Defined := defined
          have pieces := operandDefined.toTensor.slices
          rw [slices] at pieces
          exact ⟨Operand.defined_ofTensor (pieces left (by simp)),
            Operand.defined_ofTensor (pieces right (by simp))⟩
      · exact nofun

/-! ## In one piece -/

/-- The matrix holds numbers, and what it was prepared as are factors of numbers. -/
structure WholeNormal.Defined (normal : WholeNormal Checked) : Prop where
  method : ∀ cutoff, normal.method ≠ .leastNorm cutoff
  matrix : normal.matrix.Defined
  prepared : ∀ prepared, normal.prepared? = some prepared →
    ∃ factors, prepared = .factored factors ∧ factors.Defined

namespace WholeNormal

variable {normal : WholeNormal Checked} {vector out : Vec Checked}

theorem defined_zeroMatrix (method : Method Checked) (size : Nat) :
    (zeroMatrix method size).Defined := by
  have dense : (Matrix.dense (DenseMatrix.zeros size size) : Matrix Checked).Defined :=
    DenseMatrix.defined_zeros size size
  exact dense.stored method.isSparse

theorem defined_create {method : Method Checked}
    (eliminates : ∀ cutoff, method ≠ .leastNorm cutoff) : (create method).Defined :=
  ⟨eliminates, defined_zeroMatrix method 0, nofun⟩

theorem Defined.reset (defined : normal.Defined) (size : Nat) : (normal.reset size).Defined :=
  ⟨defined.method, defined_zeroMatrix normal.method size, nofun⟩

theorem Defined.replaceMatrix (defined : normal.Defined) {matrix : Operand Checked}
    (matrixDefined : matrix.Defined) : (normal.replaceMatrix matrix).Defined where
  method := defined.method
  matrix := matrixDefined
  prepared := by
    intro prepared replaced
    obtain ⟨before, found, replaced⟩ := Option.map_eq_some_iff.mp replaced
    obtain ⟨factors, rfl, factorsDefined⟩ := defined.prepared before found
    exact ⟨factors, replaced.symm, factorsDefined⟩

theorem Defined.update (defined : normal.Defined) {jacobian : Operand Checked}
    (jacobianDefined : jacobian.Defined) : Yields Defined (normal.update jacobian) := by
  unfold WholeNormal.update
  split
  · refine jacobianDefined.toSparse.bind fun columns columnsDefined => ?_
    refine yields_fit_bind (fun product made => columnsDefined.transposeMul? columnsDefined made)
      fun product productDefined => ?_
    have held : (Operand.matrix (.sparse product)).Defined := productDefined
    exact defined.replaceMatrix held
  · split
    · exact nofun
    · refine (jacobianDefined.transposeMul jacobianDefined).bind fun product productDefined => ?_
      exact defined.replaceMatrix productDefined

theorem Defined.setDiagonal (defined : normal.Defined) (vectorDefined : vector.Defined) :
    Yields Defined (normal.setDiagonal vector) :=
  (defined.matrix.replaceDiagonal vectorDefined).bind fun _ matrix =>
    ⟨defined.method, matrix, defined.prepared⟩

theorem Defined.divide (defined : normal.Defined) (positive : vector.Positive) :
    Yields Defined (normal.divide vector) := by
  refine (defined.matrix.divide positive positive).bind fun divided dividedDefined => ?_
  have held : (Operand.matrix divided).Defined := dividedDefined
  exact defined.replaceMatrix held

theorem Defined.prepare (defined : normal.Defined) :
    Yields (fun prepared => prepared.1.Defined) normal.prepare := by
  have failed : ({ normal with prepared? := none } : WholeNormal Checked).Defined :=
    ⟨defined.method, defined.matrix, nofun⟩
  have ready {factors : TriangularFactors Checked} (factorsDefined : factors.Defined) :
      ({ normal with prepared? := some (.factored factors) } : WholeNormal Checked).Defined := by
    refine ⟨defined.method, defined.matrix, fun prepared found => ?_⟩
    cases found
    exact ⟨factors, rfl, factorsDefined⟩
  unfold WholeNormal.prepare
  split
  · exact failed
  · split
    · exact failed
    · split
      · next factors found => exact ready (defined.matrix.toDense.positiveFactor? found)
      · exact failed
  · next cutoff method => exact (defined.method cutoff method).elim
  · refine defined.matrix.toSparse.bind fun sparse sparseDefined => ?_
    refine sparseDefined.positiveFactor?.bind fun found? foundDefined => ?_
    split
    · next factors => exact ready (foundDefined factors rfl)
    · exact failed

theorem yields_written {solution : Vec Checked} (defined : solution.Defined) (out : Vec Checked) :
    Yields (fun written => Vec.Defined written.1) (written out solution) :=
  yields_fit_bind (fun _ filled => defined.fill? filled) fun _ result => result

theorem Defined.solve [Spectral Checked] (defined : normal.Defined)
    (vectorDefined : vector.Defined) (out : Vec Checked) :
    Yields (fun solved => Vec.Defined solved.1) (normal.solve vector out) := by
  unfold WholeNormal.solve
  cases found : normal.prepared? with
  | none => exact nofun
  | some prepared =>
      obtain ⟨factors, rfl, factorsDefined⟩ := defined.prepared prepared found
      refine yields_fit_bind (fun solution solved => ?_)
        fun solution solutionDefined => yields_written solutionDefined out
      exact factorsDefined.solve? vectorDefined solved

end WholeNormal

/-! ## In blocks -/

/-- The blocks hold numbers, and so do the factors of the left one. -/
structure SplitNormal.Defined (normal : SplitNormal Checked) : Prop where
  left : normal.left.Defined
  coupling : normal.coupling.Defined
  right : normal.right.Defined
  factor : ∀ factors, normal.leftFactor? = some factors → factors.Defined

namespace SplitNormal

variable {normal : SplitNormal Checked} {left right : Operand Checked} {vector out : Vec Checked}

theorem defined_create (asSparse : Bool) : (create asSparse : SplitNormal Checked).Defined :=
  ⟨DenseMatrix.defined_zeros 0 0, DenseMatrix.defined_zeros 0 0, DenseMatrix.defined_zeros 0 0,
    nofun⟩

theorem Defined.reset (defined : normal.Defined) : normal.reset.Defined :=
  ⟨defined.left, defined.coupling, defined.right, nofun⟩

theorem yields_stored (defined : left.Defined) (asSparse : Bool) :
    Yields Operand.Defined (stored asSparse left) := by
  unfold stored
  split
  · exact Matrix.Defined.stored defined asSparse
  · split
    · exact defined.toSparse.map fun _ found => found
    · exact defined

theorem yields_startOf (leftDefined : left.Defined) (rightDefined : right.Defined)
    (normal : SplitNormal Checked) :
    Yields (fun started => started.1.Defined ∧ started.2.1.Defined ∧ started.2.2.Defined)
      (normal.startOf left right) :=
  (yields_stored leftDefined _).bind fun _ first =>
    (yields_stored rightDefined _).bind fun _ second =>
      (first.product first).bind fun _ upper => ⟨first, second, upper⟩

theorem Defined.compute (defined : normal.Defined) (leftDefined : left.Defined)
    (rightDefined : right.Defined) :
    Yields (fun _ => True) (normal.compute left right).1 ∧
      (normal.compute left right).2.Defined := by
  have started := yields_startOf leftDefined rightDefined normal
  unfold SplitNormal.compute
  split
  · next fault ended => exact ⟨started.of_error ended, defined⟩
  · next first second upper ended =>
      obtain ⟨firstDefined, secondDefined, upperDefined⟩ := started.of_ok ended
      have mixed := firstDefined.product secondDefined
      have lowered := secondDefined.product secondDefined
      dsimp only
      split
      · next fault ended =>
          exact ⟨mixed.of_error ended, upperDefined, defined.coupling, defined.right,
            defined.factor⟩
      · next coupling ended =>
          have couplingDefined := mixed.of_ok ended
          split
          · next fault ended =>
              exact ⟨lowered.of_error ended, upperDefined, couplingDefined, defined.right,
                defined.factor⟩
          · next lower ended =>
              exact ⟨trivial, upperDefined, couplingDefined, lowered.of_ok ended, defined.factor⟩

theorem yields_gradient_product (defined : left.Defined) (residuals : vector.Defined)
    (length : Nat) : Yields Vec.Defined (gradient.product vector left length) :=
  (defined.transposeMul (Operand.defined_ofVec residuals)).bind fun _ product =>
    yields_fit fun _ filled => Vec.Defined.fill? product.toTensor filled

theorem yields_gradient_into (leftDefined : left.Defined) (rightDefined : right.Defined)
    (residuals : vector.Defined) (leftWidth length : Nat) :
    Yields Vec.Defined (gradient.into left right vector leftWidth length) :=
  (yields_gradient_product leftDefined residuals _).bind fun _ upper =>
    (yields_gradient_product rightDefined residuals _).bind fun _ lower =>
      Vec.defined_append.mpr ⟨upper, lower⟩

theorem yields_gradient (leftDefined : left.Defined) (rightDefined : right.Defined)
    (residuals : vector.Defined) (length : Nat) :
    Yields Vec.Defined (gradient left right vector (some length)) :=
  left.yields_width.bind fun leftWidth _ =>
    yields_gradient_into leftDefined rightDefined residuals leftWidth length

theorem Defined.quadraticForm (defined : normal.Defined) (vectorDefined : vector.Defined) :
    Yields Checked.Defined (normal.quadraticForm vector) := by
  refine normal.left.yields_height.bind fun size _ => ?_
  have first := vectorDefined.before size
  have second := vectorDefined.after size
  refine (defined.left.innerProduct first first).bind fun upper upperDefined => ?_
  refine normal.right.yields_height.bind fun rows _ => ?_
  split
  · exact upperDefined
  · refine (defined.coupling.innerProduct first second).bind fun mixed mixedDefined => ?_
    refine (defined.right.innerProduct second second).bind fun lower lowerDefined => ?_
    have doubled : (2.0 * mixed : Checked).Defined :=
      defined_mul.mpr ⟨defined_literal _ _ _, mixedDefined⟩
    exact defined_add.mpr ⟨defined_add.mpr ⟨upperDefined, doubled⟩, lowerDefined⟩

theorem Defined.diagonal (defined : normal.Defined) : Yields Vec.Defined normal.diagonal :=
  defined.left.diagonal.bind fun _ upper => defined.right.diagonal.bind fun _ lower =>
    Vec.defined_append.mpr ⟨upper, lower⟩

theorem Defined.setDiagonal (defined : normal.Defined) (vectorDefined : vector.Defined) :
    Yields (fun _ => True) (normal.setDiagonal vector).1 ∧
      (normal.setDiagonal vector).2.Defined := by
  unfold SplitNormal.setDiagonal
  split
  · next fault ended => exact ⟨normal.left.yields_height.of_error ended, defined⟩
  · next size _ =>
      have upper := defined.left.replaceDiagonal (vectorDefined.before size)
      have lower := defined.right.replaceDiagonal (vectorDefined.after size)
      split
      · next fault ended => exact ⟨upper.of_error ended, defined⟩
      · next left ended =>
          have leftDefined := upper.of_ok ended
          dsimp only
          split
          · next fault ended =>
              exact ⟨lower.of_error ended, leftDefined, defined.coupling, defined.right,
                defined.factor⟩
          · next right ended =>
              exact ⟨trivial, leftDefined, defined.coupling, lower.of_ok ended, defined.factor⟩

theorem Defined.divide (defined : normal.Defined) (positive : vector.Positive) :
    Yields (fun _ => True) (normal.divide vector).1 ∧ (normal.divide vector).2.Defined := by
  unfold SplitNormal.divide
  split
  · next fault ended => exact ⟨normal.left.yields_height.of_error ended, defined⟩
  · next size _ =>
      have first := positive.before size
      have second := positive.after size
      have upper := defined.left.divide first first
      have mixed := defined.coupling.divide first second
      have lower := defined.right.divide second second
      dsimp only
      split
      · next fault ended => exact ⟨upper.of_error ended, defined⟩
      · next left ended =>
          have leftDefined := upper.of_ok ended
          split
          · next fault ended =>
              exact ⟨mixed.of_error ended, leftDefined, defined.coupling, defined.right,
                defined.factor⟩
          · next coupling ended =>
              have couplingDefined := mixed.of_ok ended
              split
              · next fault ended =>
                  exact ⟨lower.of_error ended, leftDefined, couplingDefined, defined.right,
                    defined.factor⟩
              · next right ended =>
                  exact ⟨trivial, leftDefined, couplingDefined, lower.of_ok ended, defined.factor⟩

theorem Defined.prepare (defined : normal.Defined) :
    Yields (fun prepared => prepared.1.Defined) normal.prepare := by
  have kept {found? : Option (TriangularFactors Checked)}
      (factor : ∀ factors, found? = some factors → factors.Defined) :
      ({ normal with leftFactor? := found? } : SplitNormal Checked).Defined :=
    ⟨defined.left, defined.coupling, defined.right, factor⟩
  unfold SplitNormal.prepare
  split
  · exact defined.left.toSparse.bind fun _ sparse =>
      sparse.positiveFactor?.bind fun _ found => kept found
  · exact kept fun factors found => defined.left.toDense.positiveFactor? found

theorem defined_reducedMatrix {factors : TriangularFactors Checked}
    {coupling right : Matrix Checked} {reduced : DenseMatrix Checked}
    (factorsDefined : factors.Defined) (couplingDefined : coupling.Defined)
    (rightDefined : right.Defined)
    (found : reducedMatrix factors coupling right = some reduced) : reduced.Defined := by
  unfold reducedMatrix at found
  obtain ⟨eliminated, solved, found⟩ := Option.bind_eq_some_iff.mp found
  obtain ⟨share, multiplied, found⟩ := Option.bind_eq_some_iff.mp found
  obtain ⟨difference, subtracted, found⟩ := Option.bind_eq_some_iff.mp found
  cases found
  have eliminatedDefined : (Matrix.dense eliminated).Defined :=
    factorsDefined.solveColumns? couplingDefined.toDense solved
  have shareDefined := couplingDefined.transposeMul? eliminatedDefined multiplied
  exact (rightDefined.toDense.sub? shareDefined.toDense subtracted).symmetrized

theorem matrix?_defined {operand : Operand Checked} (defined : operand.Defined) :
    Yields Matrix.Defined (Fault.fit operand.matrix? : Except (Fault Checked) _) := by
  cases operand with
  | array _ => exact nofun
  | matrix found => exact defined

theorem Defined.solve (defined : normal.Defined) (rhs : vector.Defined) (outDefined : out.Defined) :
    Yields (fun solved => Vec.Defined solved.1) (normal.solve vector out) := by
  have difference {first second result : Vec Checked} (firstDefined : first.Defined)
      (secondDefined : second.Defined)
      (combined : Vec.combine? (· - ·) first second = some result) : result.Defined :=
    firstDefined.combine? secondDefined (fun _ _ x y => defined_sub.mpr ⟨x, y⟩) combined
  unfold SplitNormal.solve
  split
  · exact nofun
  · next factors found =>
      have factorsDefined := defined.factor factors found
      refine normal.left.yields_height.bind fun size _ => ?_
      have first := rhs.before size
      refine yields_fit_bind (fun _ solved => factorsDefined.solve? first solved)
        fun eliminated eliminatedDefined => ?_
      refine normal.right.yields_height.bind fun rows _ => ?_
      split
      · exact WholeNormal.yields_written eliminatedDefined out
      · refine (matrix?_defined defined.coupling).bind fun coupling couplingDefined => ?_
        refine (matrix?_defined defined.right).bind fun right rightDefined => ?_
        refine yields_fit_bind (fun _ made =>
              couplingDefined.transposeMulVec? eliminatedDefined made)
            fun share shareDefined => ?_
        refine yields_fit_bind (fun _ made => difference (rhs.after size) shareDefined made)
          fun second secondDefined => ?_
        refine yields_fit_bind (fun _ made =>
              defined_reducedMatrix factorsDefined couplingDefined rightDefined made)
            fun reduced reducedDefined => ?_
        split
        · exact outDefined
        · next reducedFactors found =>
            have reducedFactorsDefined := reducedDefined.positiveFactor? found
            refine yields_fit_bind (fun _ solved =>
                  reducedFactorsDefined.solve? secondDefined solved)
                fun lower lowerDefined => ?_
            refine yields_fit_bind (fun _ made => couplingDefined.mulVec? lowerDefined made)
              fun coupled coupledDefined => ?_
            refine yields_fit_bind (fun _ made => difference first coupledDefined made)
              fun back backDefined => ?_
            refine yields_fit_bind (fun _ solved => factorsDefined.solve? backDefined solved)
              fun upper upperDefined => ?_
            refine yields_fit_bind (fun _ filled => upperDefined.fill? filled)
              fun leftOut leftDefined => ?_
            refine yields_fit_bind (fun _ filled => lowerDefined.fill? filled)
              fun rightOut rightDefined => ?_
            exact Vec.defined_append.mpr ⟨leftDefined, rightDefined⟩

end SplitNormal

/-! ## In either form -/

namespace NormalMatrix

def Defined : NormalMatrix Checked → Prop
  | whole normal => normal.Defined
  | split normal => normal.Defined

variable {normal : NormalMatrix Checked} {vector out : Vec Checked}

theorem Defined.reset (defined : normal.Defined) (size : Nat) : (normal.reset size).Defined := by
  cases normal with
  | whole normal => exact WholeNormal.Defined.reset defined size
  | split normal => exact SplitNormal.Defined.reset defined

theorem defined_whole {normal : WholeNormal Checked} (defined : normal.Defined) :
    (whole normal).Defined := defined

theorem Defined.kept (defined : normal.Defined)
    {result : Except (Fault Checked) (NormalMatrix Checked)} (yields : Yields Defined result) :
    Yields (fun _ => True) (normal.kept result).1 ∧ (normal.kept result).2.Defined := by
  cases result with
  | error fault => exact ⟨yields, defined⟩
  | ok changed => exact ⟨trivial, yields⟩

theorem Defined.update (defined : normal.Defined) {jacobian : Derivative Checked}
    (jacobianDefined : jacobian.Defined) :
    Yields (fun _ => True) (normal.update jacobian).1 ∧ (normal.update jacobian).2.Defined := by
  cases normal with
  | whole normal =>
      cases jacobian with
      | whole columns =>
          have columnsDefined : columns.Defined := jacobianDefined
          have updated := WholeNormal.Defined.update defined columnsDefined
          exact (defined_whole defined).kept (updated.map fun _ => defined_whole)
      | split left right => exact ⟨nofun, defined⟩
  | split normal =>
      cases jacobian with
      | whole columns => exact ⟨nofun, defined⟩
      | split left right =>
          exact SplitNormal.Defined.compute defined jacobianDefined.1 jacobianDefined.2

theorem Defined.quadraticForm (defined : normal.Defined) (vectorDefined : vector.Defined) :
    Yields Checked.Defined (normal.quadraticForm vector) := by
  cases normal with
  | whole normal => exact defined.matrix.innerProduct vectorDefined vectorDefined
  | split normal => exact SplitNormal.Defined.quadraticForm defined vectorDefined

theorem Defined.diagonalInto (defined : normal.Defined) (length : Nat) :
    Yields Vec.Defined (normal.diagonalInto length) := by
  have diagonal : Yields Vec.Defined normal.diagonal := by
    cases normal with
    | whole normal => exact defined.matrix.diagonal
    | split normal => exact SplitNormal.Defined.diagonal defined
  exact diagonal.bind fun _ found => yields_fit fun _ filled => found.fill? filled

theorem Defined.setDiagonal (defined : normal.Defined) (vectorDefined : vector.Defined) :
    Yields (fun _ => True) (normal.setDiagonal vector).1 ∧
      (normal.setDiagonal vector).2.Defined := by
  cases normal with
  | whole normal =>
      have changed := WholeNormal.Defined.setDiagonal defined vectorDefined
      exact (defined_whole defined).kept (changed.map fun _ => defined_whole)
  | split normal => exact SplitNormal.Defined.setDiagonal defined vectorDefined

theorem Defined.divide (defined : normal.Defined) (positive : vector.Positive) :
    Yields (fun _ => True) (normal.divide vector).1 ∧ (normal.divide vector).2.Defined := by
  cases normal with
  | whole normal =>
      have changed := WholeNormal.Defined.divide defined positive
      exact (defined_whole defined).kept (changed.map fun _ => defined_whole)
  | split normal => exact SplitNormal.Defined.divide defined positive

theorem Defined.prepare (defined : normal.Defined) :
    Yields (fun prepared => prepared.1.Defined) normal.prepare := by
  cases normal with
  | whole normal => exact (WholeNormal.Defined.prepare defined).map fun _ found => found
  | split normal => exact (SplitNormal.Defined.prepare defined).map fun _ found => found

theorem Defined.solve [Spectral Checked] (defined : normal.Defined) (rhs : vector.Defined)
    (outDefined : out.Defined) :
    Yields (fun solved => Vec.Defined solved.1) (normal.solve vector out) := by
  cases normal with
  | whole normal => exact WholeNormal.Defined.solve defined rhs out
  | split normal => exact SplitNormal.Defined.solve defined rhs outDefined

end NormalMatrix

end DampedLeastSquares
