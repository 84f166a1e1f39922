import DampedLeastSquares.Proofs.Blind
import DampedLeastSquares.Proofs.Exact.Derivatives
import DampedLeastSquares.Solver.Choice

/-!
# Solvers that hold the same Jacobian differently

Densely or sparsely, in one piece or cut into two blocks of columns: solvers by
elimination are handed the same Jacobian in different forms, and each forms the
same normal matrix and the same gradient from it.
-/

set_option autoImplicit false

open scoped Matrix

namespace DampedLeastSquares

open Exact NormalMatrix

/-- A solver by elimination, and the form in which it is handed its Jacobians. -/
inductive Holding where
  | dense
  | sparse (handsSparse : Bool)
  | blocks (position : Nat) (asSparse handsSparse : Bool)

namespace Holding

def form : Holding → JacobianForm
  | dense => .whole
  | sparse _ => .whole
  | blocks _ _ _ => .split

def layout : Holding → Layout
  | dense => .wholeDense
  | sparse _ => .wholeSparse
  | blocks _ asSparse _ => if asSparse then .splitSparse else .splitDense

/-- The columns are cut behind one of them. -/
def Fits (holding : Holding) (parameters : Nat) : Prop :=
  match holding with
  | dense => True
  | sparse _ => True
  | blocks position _ _ => 1 ≤ position ∧ position ≤ parameters

noncomputable def handed (holding : Holding) (jacobian : DenseMatrix ℝ) : Derivative ℝ :=
  match holding with
  | dense => .whole (.matrix (.dense jacobian))
  | sparse handsSparse => .whole (.matrix ((Matrix.dense jacobian).stored handsSparse))
  | blocks position _ handsSparse =>
      let (left, right) := ((Matrix.dense jacobian).stored handsSparse).cutColumns position
      .split (.matrix left) (.matrix right)

/-- The solver before it is given a loss and functions. -/
noncomputable def solver {σ : Type} (holding : Holding) (settings : Settings ℝ) (world : σ) :
    Except (Fault ℝ) (Solver σ ℝ) :=
  match holding with
  | dense => Solver.dense settings false world
  | sparse _ => Solver.sparse settings world
  | blocks _ asSparse _ => Solver.blocks settings asSparse world

theorem form_defined (holding : Holding) : holding.form ≠ .undefined := by
  cases holding <;> nofun

variable {σ : Type}

noncomputable def jacobian (holding : Holding) (jacobian : Vec ℝ → Call σ ℝ (DenseMatrix ℝ))
    (x : Vec ℝ) : Call σ ℝ (Derivative ℝ) := do
  return holding.handed (← jacobian x)

/-- The Jacobian that is found is handed over in the form of the solver. -/
theorem evaluate_jacobian (holding : Holding) {found : Vec ℝ → Call σ ℝ (DenseMatrix ℝ)}
    {x : Vec ℝ} {solver : Solver σ ℝ} {after : σ} {ending : Except (Fault ℝ) (DenseMatrix ℝ)}
    (ran : (found x).run solver.world = (ending, after)) :
    (Solver.evaluate (holding.jacobian found x)).run solver =
      (ending.map holding.handed, { solver with world := after }) := by
  rw [Solver.run_evaluate, jacobian, Call.run_bind_return ran]

/-- A search that is ready to start. -/
noncomputable def search (holding : Holding) (settings : Settings ℝ) (loss : Loss σ ℝ)
    (residuals : Vec ℝ → Call σ ℝ (Tensor ℝ)) (jacobian : Vec ℝ → Call σ ℝ (DenseMatrix ℝ))
    (world : σ) : Except (Fault ℝ) (Solver σ ℝ) := do
  let created ← holding.solver settings world
  let functions := Solver.setFunctions residuals (some (holding.jacobian jacobian)) none world
  match functions.run (created.setLoss loss) with
  | (.ok (), ready) => return ready
  | (.error fault, _) => throw fault

/-- How a search with a given normal matrix is arranged. -/
noncomputable def arrangement (holding : Holding) (jacobian : Vec ℝ → Call σ ℝ (DenseMatrix ℝ))
    (normal : NormalMatrix ℝ) : Arrangement σ ℝ :=
  ⟨holding.form, holding.form_defined, normal, holding.jacobian jacobian⟩

/-- Of residuals that nothing else writes to, a search keeps the function as it is. -/
theorem setFunctions_run_own {solver : Solver σ ℝ} (form : solver.form ≠ .undefined)
    (residuals : Vec ℝ → Call σ ℝ (Tensor ℝ)) (jacobian : Vec ℝ → Call σ ℝ (Derivative ℝ))
    (world : σ) :
    (Solver.setFunctions residuals (some jacobian) none world).run solver =
      (.ok (), { solver with problem? := some ⟨residuals, jacobian⟩, world := world }) := by
  have given : solver.jacobianFunction residuals (some jacobian) none = .ok jacobian := by
    unfold Solver.jacobianFunction
    cases found : solver.form with
    | undefined => exact absurd found form
    | whole => rfl
    | split => rfl
  unfold Solver.setFunctions
  rw [Solver.run_get_bind, Solver.run_attempt_bind_ok given, View.copied_ofFresh]
  rfl

theorem search_of_created {holding : Holding} {settings : Settings ℝ} {world : σ}
    {created : Solver σ ℝ} (success : holding.solver settings world = .ok created)
    (form : created.form ≠ .undefined) (loss : Loss σ ℝ)
    (residuals : Vec ℝ → Call σ ℝ (Tensor ℝ)) (jacobian : Vec ℝ → Call σ ℝ (DenseMatrix ℝ)) :
    holding.search settings loss residuals jacobian world =
      .ok { created with
        loss := loss, problem? := some ⟨residuals, holding.jacobian jacobian⟩,
        world := world } := by
  have form : (created.setLoss loss).form ≠ .undefined := form
  have given := setFunctions_run_own form residuals (holding.jacobian jacobian) world
  unfold search
  rw [success, ok_bind]
  dsimp only
  rw [given]
  rfl

theorem create_eq {settings : Settings ℝ} (valid : settings.check = .ok ()) (world : σ) :
    ∃ core : Solver σ ℝ, core.settings = settings ∧ ∀ form normal,
      Solver.create form normal settings world =
        .ok { core with form := form, normal := normal } := by
  obtain ⟨core, created, same⟩ : ∃ core, Solver.create .whole
      (.whole (WholeNormal.create .elimination)) settings world = .ok core ∧
        core.settings = settings := by
    unfold Solver.create
    rw [valid]
    exact ⟨_, rfl, rfl⟩
  refine ⟨core, same, fun form normal => ?_⟩
  unfold Solver.create at created ⊢
  rw [valid] at created ⊢
  cases created
  rfl

/-- With valid settings there is a search for each solver and for all functions, and they have
the rest in common. -/
theorem search_eq {settings : Settings ℝ} (valid : settings.check = .ok ()) (loss : Loss σ ℝ)
    (world : σ) :
    ∃ core : Solver σ ℝ, core.settings = settings ∧ core.loss = loss ∧ ∀ (holding : Holding)
      (residuals : Vec ℝ → Call σ ℝ (Tensor ℝ)) (jacobian : Vec ℝ → Call σ ℝ (DenseMatrix ℝ)),
      ∃ normal : NormalMatrix ℝ, normal.layout? = some holding.layout ∧
        holding.search settings loss residuals jacobian world =
          .ok (core.arranged residuals (holding.arrangement jacobian normal) core.trace) := by
  obtain ⟨core, same, created⟩ := create_eq valid world
  refine ⟨{ core with loss := loss, world := world }, same, rfl,
    fun holding residuals jacobian => ?_⟩
  cases holding with
  | dense =>
      have success : Holding.dense.solver settings world = .ok _ := created .whole _
      exact ⟨.whole (WholeNormal.create .elimination), rfl,
        search_of_created success nofun loss residuals jacobian⟩
  | sparse handsSparse =>
      have success : (Holding.sparse handsSparse).solver settings world = .ok _ :=
        created .whole _
      exact ⟨.whole (WholeNormal.create .sparse), rfl,
        search_of_created success nofun loss residuals jacobian⟩
  | blocks position asSparse handsSparse =>
      have success : (Holding.blocks position asSparse handsSparse).solver settings world =
          .ok _ := created .split _
      exact ⟨.split (SplitNormal.create asSparse), rfl,
        search_of_created success nofun loss residuals jacobian⟩

/-- A search that is ready to start is arranged as its solver asks for. -/
theorem of_search {holding : Holding} {settings : Settings ℝ} (valid : settings.check = .ok ())
    {loss : Loss σ ℝ} {residuals : Vec ℝ → Call σ ℝ (Tensor ℝ)}
    {jacobian : Vec ℝ → Call σ ℝ (DenseMatrix ℝ)} {world : σ} {idle : Solver σ ℝ}
    (built : holding.search settings loss residuals jacobian world = .ok idle) :
    idle.form = holding.form ∧ idle.problem? = some ⟨residuals, holding.jacobian jacobian⟩ ∧
      idle.settings = settings ∧ idle.loss = loss ∧
      idle.normal.layout? = some holding.layout := by
  obtain ⟨core, same, loss_eq, searches⟩ := search_eq valid loss world
  obtain ⟨normal, layout, found⟩ := searches holding residuals jacobian
  cases found.symm.trans built
  exact ⟨rfl, rfl, same, loss_eq, layout⟩

variable {k l : Nat} {solver : Solver σ ℝ} {holding : Holding}

theorem represents_stored (jacobian : RealMatrix l k) (asSparse : Bool) :
    ((Matrix.dense (DenseMatrix.ofMatrix jacobian)).stored asSparse).Represents jacobian :=
  (Matrix.represents_dense jacobian).stored asSparse

theorem whole_of_layout {normal : NormalMatrix ℝ} (whole : holding.form = .whole)
    (found : normal.layout? = some holding.layout) : ∃ held : WholeNormal ℝ,
      normal = .whole held ∧ (held.method.isSparse = true ∨ holding = .dense) := by
  cases holding with
  | blocks _ _ _ => cases whole
  | dense =>
      cases normal with
      | whole held => exact ⟨held, rfl, .inr rfl⟩
      | split held => cases sparse : held.asSparse <;> simp [layout?, layout, sparse] at found
  | sparse _ =>
      cases normal with
      | whole held =>
          obtain ⟨method, matrix, prepared?⟩ := held
          cases method with
          | sparse => exact ⟨_, rfl, .inl rfl⟩
          | elimination => cases found
          | leastNorm cutoff => cases found
          | unfactorable => cases found
      | split held => cases sparse : held.asSparse <;> simp [layout?, layout, sparse] at found

theorem split_of_layout {normal : NormalMatrix ℝ} (split : holding.form = .split)
    (found : normal.layout? = some holding.layout) :
    ∃ held : SplitNormal ℝ, normal = .split held := by
  cases holding with
  | dense => cases split
  | sparse _ => cases split
  | blocks _ asSparse _ =>
      cases normal with
      | split held => exact ⟨held, rfl⟩
      | whole held =>
          obtain ⟨method, matrix, prepared?⟩ := held
          cases asSparse <;> cases method <;> cases found

theorem blocks_handed {position : Nat} {asSparse handsSparse : Bool}
    (fits : (blocks position asSparse handsSparse).Fits k) (jacobian : RealMatrix l k) :
    ∃ (left right : Operand ℝ) (rest : Nat) (size : position + rest = k),
      (blocks position asSparse handsSparse).handed (DenseMatrix.ofMatrix jacobian) =
        .split left right ∧
      left.Represents (leftColumns size jacobian) ∧
      right.Represents (rightColumns size jacobian) := by
  obtain ⟨rest, rfl⟩ := Nat.exists_eq_add_of_le fits.2
  obtain ⟨left, right⟩ := (represents_stored jacobian handsSparse).cutColumns
  exact ⟨_, _, rest, rfl, rfl, ⟨_, rfl, left⟩, ⟨_, rfl, right⟩⟩

theorem whole_handed (whole : holding.form = .whole) (jacobian : RealMatrix l k) :
    ∃ columns : Operand ℝ, holding.handed (DenseMatrix.ofMatrix jacobian) = .whole columns ∧
      columns.Represents jacobian := by
  cases holding with
  | dense => exact ⟨_, rfl, _, rfl, Matrix.represents_dense jacobian⟩
  | sparse handsSparse => exact ⟨_, rfl, _, rfl, represents_stored jacobian handsSparse⟩
  | blocks _ _ _ => cases whole

theorem represents_handed (fits : holding.Fits k) (jacobian : RealMatrix l k) :
    (holding.handed (DenseMatrix.ofMatrix jacobian)).Represents holding.form jacobian := by
  cases holding with
  | dense => exact whole_handed rfl jacobian
  | sparse handsSparse => exact whole_handed rfl jacobian
  | blocks position asSparse handsSparse =>
      obtain ⟨left, right, rest, size, handed, left_eq, right_eq⟩ := blocks_handed fits jacobian
      rw [handed]
      exact ⟨left, right, position, rest, size, rfl, left_eq, right_eq⟩

theorem admits_handed {normal : NormalMatrix ℝ} (layout : normal.layout? = some holding.layout)
    (jacobian : DenseMatrix ℝ) : normal.Admits holding.form (holding.handed jacobian) := by
  cases form : holding.form with
  | undefined => exact (holding.form_defined form).elim
  | whole =>
      obtain ⟨held, rfl, isSparse | rfl⟩ := whole_of_layout form layout
      · exact fun dense => nomatch isSparse.symm.trans dense
      · exact fun _ => ⟨_, rfl⟩
  | split =>
      obtain ⟨held, rfl⟩ := split_of_layout form layout
      trivial

/-- Whatever the layout, a Jacobian of the right size gives its own normal matrix and gradient. -/
theorem derive_handed (sized : solver.Sized k l)
    (layout : solver.normal.layout? = some holding.layout) (fits : holding.Fits k)
    (jacobian : RealMatrix l k) :
    ∃ changed : NormalMatrix ℝ, changed.Represents (jacobianᵀ * jacobian) ∧
      changed.layout? = some holding.layout ∧
      (Solver.derive holding.form (holding.handed (DenseMatrix.ofMatrix jacobian))).run solver =
        (Solver.gather jacobian).run { solver with normal := changed } := by
  obtain ⟨changed, product, same, ran⟩ := Solver.derive_run sized (represents_handed fits jacobian)
    (admits_handed layout (DenseMatrix.ofMatrix jacobian))
  exact ⟨changed, product, same.trans layout, ran⟩

/-- The number of columns that are handed over first. -/
def firstWidth (holding : Holding) (parameters : Nat) : Nat :=
  match holding with
  | dense => parameters
  | sparse _ => parameters
  | blocks position _ _ => position

/-- A Jacobian of another height is refused before anything changes. -/
theorem derive_refused (sized : solver.Sized k l) (fits : holding.Fits k)
    {height : Nat} (wrong : height ≠ l) (jacobian : RealMatrix height k) :
    (Solver.derive holding.form (holding.handed (DenseMatrix.ofMatrix jacobian))).run solver =
      (.error (.refused (.jacobianShape [(l : Int), holding.firstWidth k]
        [height, holding.firstWidth k])), solver) := by
  have refused {columns : Operand ℝ} {width : Nat} (shape : columns.shape = [height, width]) :
      Solver.checkShape solver.residuals.length width columns =
        .error (.refused (.jacobianShape [(l : Int), width] [height, width])) := by
    unfold Solver.checkShape
    rw [shape, sized.residuals]
    exact if_neg (by simp [wrong])
  have whole_refused (whole : holding.form = .whole) (wide : holding.firstWidth k = k) :
      (Solver.derive holding.form (holding.handed (DenseMatrix.ofMatrix jacobian))).run solver =
        (.error (.refused (.jacobianShape [(l : Int), holding.firstWidth k]
          [height, holding.firstWidth k])), solver) := by
    obtain ⟨columns, handed, represents⟩ := whole_handed whole jacobian
    rw [whole, handed, wide]
    change (Solver.deriveWhole (.whole columns)).run solver = _
    rw [Solver.deriveWhole, Solver.run_get_bind, sized.x]
    exact Solver.run_attempt_bind_error (refused represents.shape)
  cases holding with
  | dense => exact whole_refused rfl rfl
  | sparse _ => exact whole_refused rfl rfl
  | blocks position asSparse handsSparse =>
      obtain ⟨left, right, rest, size, handed, left_eq, _⟩ := blocks_handed fits jacobian
      have parts : (Derivative.split left right).blocks = .ok (left, right) := rfl
      rw [handed]
      change (Solver.deriveSplit (.split left right)).run solver = _
      rw [Solver.deriveSplit, Solver.run_attempt_bind_ok parts]
      dsimp only
      rw [Solver.run_get_bind, Solver.run_attempt_bind_ok left_eq.width]
      exact Solver.run_attempt_bind_error (refused left_eq.shape)

end Holding

end DampedLeastSquares
