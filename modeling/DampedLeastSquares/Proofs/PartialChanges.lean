import DampedLeastSquares.NormalMatrix
import DampedLeastSquares.Proofs.Faults
import DampedLeastSquares.Proofs.FloatOrder

/-!
# Changes that stop halfway

A change of a normal matrix may be refused. In one piece the matrix then stays
as it is. Blocks are replaced one after the other, each computed from what was
there before the change, and a fault leaves those replaced that came before it.
-/

set_option autoImplicit false

namespace DampedLeastSquares

variable {α : Type} [Scalar α]

/-- A change of a normal matrix, as it is asked for. -/
inductive Change (α : Type) where
  | update (jacobian : Derivative α)
  | setDiagonal (diagonal : Operand α)
  | divide (scaling : Operand α)

def Change.run (change : Change α) (normal : NormalMatrix α) :
    Except (Fault α) Unit × NormalMatrix α :=
  match change with
  | update jacobian => normal.update jacobian
  | setDiagonal diagonal => normal.setDiagonalFrom diagonal
  | divide scaling => normal.divideBy scaling

/-- What is held of the matrix, in one piece or in blocks. -/
def NormalMatrix.held : NormalMatrix α → List (Operand α)
  | whole normal => [normal.matrix]
  | split normal => [normal.left, normal.coupling, normal.right]

/-! ## Blocks in the order in which they are replaced -/

inductive Block where
  | left
  | coupling
  | right
deriving DecidableEq

namespace SplitNormal

def put (normal : SplitNormal α) (block : Block) (found : Operand α) : SplitNormal α :=
  match block with
  | .left => { normal with left := found }
  | .coupling => { normal with coupling := found }
  | .right => { normal with right := found }

/-- Replace blocks one after the other, up to the first that cannot be computed. -/
def putAll (normal : SplitNormal α) :
    List (Block × Except (Fault α) (Operand α)) → Except (Fault α) Unit × SplitNormal α
  | [] => (.ok (), normal)
  | (_, .error fault) :: _ => (.error fault, normal)
  | (block, .ok found) :: rest => (normal.put block found).putAll rest

/-- The blocks before the first that could not be computed were replaced, and nothing else. -/
def StoppedAt (normal : SplitNormal α) (plan : List (Block × Except (Fault α) (Operand α)))
    (fault : Fault α) (changed : SplitNormal α) : Prop :=
  ∃ (done : List (Block × Operand α)) (block : Block)
    (later : List (Block × Except (Fault α) (Operand α))),
    plan = done.map (fun item => (item.1, .ok item.2)) ++ (block, .error fault) :: later ∧
      changed = done.foldl (fun current item => current.put item.1 item.2) normal

variable {plan : List (Block × Except (Fault α) (Operand α))} {fault : Fault α}

omit [Scalar α] in
theorem stoppedAt_of_error {normal changed : SplitNormal α}
    (failed : normal.putAll plan = (.error fault, changed)) :
    normal.StoppedAt plan fault changed := by
  induction plan generalizing normal with
  | nil => cases failed
  | cons item rest previous =>
      obtain ⟨block, ending⟩ := item
      cases ending with
      | error cause =>
          cases failed
          exact ⟨[], block, rest, rfl, rfl⟩
      | ok found =>
          obtain ⟨done, place, later, rfl, rfl⟩ := previous failed
          exact ⟨(block, found) :: done, place, later, rfl, rfl⟩

omit [Scalar α] in
theorem right_putAll (normal : SplitNormal α) (done : List (Block × Operand α))
    (others : Block.right ∉ done.map Prod.fst) :
    (done.foldl (fun current item => current.put item.1 item.2) normal).right = normal.right := by
  induction done generalizing normal with
  | nil => rfl
  | cons item rest previous =>
      obtain ⟨block, found⟩ := item
      rw [List.map_cons, List.mem_cons, not_or] at others
      refine (previous (normal.put block found) others.2).trans ?_
      cases block with
      | left => rfl
      | coupling => rfl
      | right => exact (others.1 rfl).elim

omit [Scalar α] in
theorem leftFactor?_putAll (normal : SplitNormal α) (done : List (Block × Operand α)) :
    (done.foldl (fun current item => current.put item.1 item.2) normal).leftFactor? =
      normal.leftFactor? := by
  induction done generalizing normal with
  | nil => rfl
  | cons item rest previous =>
      refine (previous (normal.put item.1 item.2)).trans ?_
      cases item.1 <;> rfl

omit [Scalar α] in
/-- Where the blocks have their order, the last one is never reached by a change that stops. -/
theorem StoppedAt.right_eq {normal changed : SplitNormal α}
    (stopped : normal.StoppedAt plan fault changed)
    (order : (plan.map Prod.fst).Sublist [.left, .coupling, .right]) :
    changed.right = normal.right := by
  obtain ⟨done, block, later, rfl, rfl⟩ := stopped
  refine right_putAll normal done fun member => ?_
  have before : [Block.right, block].Sublist [.left, .coupling, .right] := by
    refine List.Sublist.trans ?_ order
    rw [List.map_append, List.map_cons, List.map_map]
    exact (List.singleton_sublist.mpr member).append (List.singleton_sublist.mpr
      List.mem_cons_self)
  cases block <;> revert before <;> decide

/-- The entries of an array for the left unknowns and for the right ones. -/
def parts (normal : SplitNormal α) (array : Operand α) : Except (Fault α) (Vec α × Vec α) := do
  let entries ← (NormalMatrix.split normal).entriesOf array
  let size ← normal.leftSize
  return (entries.before size, entries.after size)

def diagonalParts (normal : SplitNormal α) (diagonal : Operand α) :
    Except (Fault α) (Vec α × Vec α) :=
  match diagonal.vector? with
  | some _ => normal.parts diagonal
  | none => .error .shape

end SplitNormal

/-- The blocks that a change replaces, first to last, and what takes their places, computed from
the matrix before the change. -/
def Change.plan (change : Change α) (normal : SplitNormal α) :
    List (Block × Except (Fault α) (Operand α)) :=
  match change with
  | update (.whole _) => [(.left, .error .unsupported)]
  | update (.split left right) =>
      let started := normal.startOf left right
      [(.left, do return (← started).2.2),
        (.coupling, do (← started).1.product (← started).2.1),
        (.right, do (← started).2.1.product (← started).2.1)]
  | setDiagonal diagonal =>
      let parts := normal.diagonalParts diagonal
      [(.left, do return .matrix (← normal.left.replaceDiagonal (← parts).1)),
        (.right, do return .matrix (← normal.right.replaceDiagonal (← parts).2))]
  | divide scaling =>
      let parts := normal.parts scaling
      [(.left, do return .matrix (← normal.left.divide (← parts).1 (← parts).1)),
        (.coupling, do return .matrix (← normal.coupling.divide (← parts).1 (← parts).2)),
        (.right, do return .matrix (← normal.right.divide (← parts).2 (← parts).2))]

namespace Change

variable (change : Change α) (normal : SplitNormal α)

theorem plan_order :
    ((change.plan normal).map Prod.fst).Sublist [.left, .coupling, .right] := by
  cases change with
  | update jacobian => cases jacobian <;> simp [plan]
  | setDiagonal diagonal => simp [plan]
  | divide scaling => simp [plan]

theorem run_split : change.run (.split normal) =
    ((normal.putAll (change.plan normal)).1, .split (normal.putAll (change.plan normal)).2) := by
  cases change with
  | update jacobian =>
      cases jacobian with
      | whole columns => rfl
      | split left right =>
          simp only [run, plan, NormalMatrix.update, SplitNormal.compute]
          cases started : normal.startOf left right with
          | error fault => rfl
          | ok columns =>
              obtain ⟨first, second, upper⟩ := columns
              simp only [ok_bind]
              cases multiplied : first.product second with
              | error fault => rfl
              | ok coupling =>
                  cases multiplied' : second.product second <;> rfl
  | setDiagonal diagonal =>
      simp only [run, plan, NormalMatrix.setDiagonalFrom, SplitNormal.diagonalParts,
        SplitNormal.parts]
      cases diagonal.vector? with
      | none => rfl
      | some _ =>
          dsimp only
          cases (NormalMatrix.split normal).entriesOf diagonal with
          | error fault => rfl
          | ok entries =>
              simp only [ok_bind, NormalMatrix.setDiagonal, SplitNormal.setDiagonal]
              cases normal.leftSize with
              | error fault => rfl
              | ok size =>
                  simp only [ok_bind, pure, Except.pure]
                  cases normal.left.replaceDiagonal (entries.before size) with
                  | error fault => rfl
                  | ok left =>
                      dsimp only
                      cases normal.right.replaceDiagonal (entries.after size) <;> rfl
  | divide scaling =>
      simp only [run, plan, NormalMatrix.divideBy, SplitNormal.parts]
      cases (NormalMatrix.split normal).entriesOf scaling with
      | error fault => rfl
      | ok entries =>
          simp only [ok_bind, NormalMatrix.divide, SplitNormal.divide]
          cases normal.leftSize with
          | error fault => rfl
          | ok size =>
              simp only [ok_bind, pure, Except.pure]
              cases normal.left.divide (entries.before size) (entries.before size) with
              | error fault => rfl
              | ok left =>
                  dsimp only
                  cases normal.coupling.divide (entries.before size) (entries.after size) with
                  | error fault => rfl
                  | ok coupling =>
                      dsimp only
                      cases normal.right.divide (entries.after size) (entries.after size) <;> rfl

variable {change normal} {fault : Fault α}

omit [Scalar α] in
theorem kept_of_error {before after : NormalMatrix α}
    {ending : Except (Fault α) (NormalMatrix α)}
    (failed : before.kept ending = (.error fault, after)) : after = before := by
  cases ending with
  | ok _ => cases failed
  | error _ => cases failed; rfl

theorem whole_keeps {held : WholeNormal α} {changed : NormalMatrix α}
    (failed : change.run (.whole held) = (.error fault, changed)) : changed = .whole held := by
  cases change with
  | update jacobian =>
      cases jacobian with
      | whole columns => exact kept_of_error failed
      | split left right => cases failed; rfl
  | setDiagonal diagonal =>
      simp only [run, NormalMatrix.setDiagonalFrom] at failed
      cases vector : diagonal.vector? with
      | some entries =>
          rw [vector] at failed
          exact kept_of_error failed
      | none =>
          rw [vector] at failed
          dsimp only at failed
          split at failed
          · cases failed; rfl
          · exact kept_of_error failed
  | divide scaling =>
      simp only [run, NormalMatrix.divideBy] at failed
      split at failed
      · exact kept_of_error failed
      · cases failed; rfl

/-- A change that ends in a fault leaves a matrix in one piece as it is. Of a matrix in blocks it
leaves those replaced, in their order, that come before the one that could not be computed. The
right block and the factor are always left as they are. -/
theorem failed_change_keeps (change : Change α) {normal changed : NormalMatrix α} {fault : Fault α}
    (failed : change.run normal = (.error fault, changed)) :
    (∀ held, normal = .whole held → changed = normal) ∧
    ∀ held, normal = .split held →
      ((change.plan held).map Prod.fst).Sublist [.left, .coupling, .right] ∧
      ∃ held', changed = .split held' ∧ held.StoppedAt (change.plan held) fault held' ∧
        held'.right = held.right ∧ held'.leftFactor? = held.leftFactor? := by
  constructor
  · rintro held rfl
    exact whole_keeps failed
  · rintro held rfl
    have order := plan_order change held
    rcases ran : held.putAll (change.plan held) with ⟨ending, held'⟩
    rw [run_split, ran] at failed
    cases failed
    have stopped := SplitNormal.stoppedAt_of_error ran
    refine ⟨order, held', rfl, stopped, stopped.right_eq order, ?_⟩
    obtain ⟨done, _, _, _, rfl⟩ := stopped
    exact SplitNormal.leftFactor?_putAll held done

/-- One left unknown and two right ones. -/
def coupledBlocks : SplitNormal Float where
  asSparse := false
  left := .matrix (.dense (.ofFn 1 1 fun _ _ => 4.0))
  coupling := .matrix (.dense (.ofFn 1 2 fun _ _ => 1.0))
  right := .matrix (.dense (.ofFn 2 2 fun _ _ => 3.0))
  leftFactor? := none

/-- One divisor too many for the right unknowns. -/
def longScaling : Operand Float := .ofVec [2.0, 1.0, 1.0, 1.0]

theorem longScaling_refused : (divide longScaling).run (.split coupledBlocks) =
    (.error .shape, ((divide longScaling).run (.split coupledBlocks)).2) := rfl

theorem failed_change_keeps_right : ∃ held,
    (divide longScaling).run (.split coupledBlocks) = (.error .shape, .split held) ∧
      coupledBlocks.StoppedAt ((divide longScaling).plan coupledBlocks) .shape held ∧
      held.right = coupledBlocks.right := by
  obtain ⟨_, held, same, stopped, right, _⟩ :=
    (failed_change_keeps _ longScaling_refused).2 _ rfl
  exact ⟨held, same ▸ longScaling_refused, stopped, right⟩

/-- The left block is divided before the coupling turns out not to fit. -/
theorem failed_change_replaces_block :
    ¬ ∀ (change : Change Float) (normal changed : NormalMatrix Float) (fault : Fault Float),
      change.run normal = (.error fault, changed) → changed.held = normal.held := by
  intro keeps
  have same := keeps _ _ _ _ longScaling_refused
  have lower : ((((divide longScaling).run (.split coupledBlocks)).2.held.map
      fun block => block.toDense.entry 0 0).headD 0.0) <
        (((NormalMatrix.split coupledBlocks).held.map
          fun block => block.toDense.entry 0 0).headD 0.0) := by
    decide +kernel
  rw [same] at lower
  exact irrefl _ lower

end Change

end DampedLeastSquares
