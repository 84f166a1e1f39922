import Mathlib.Data.List.Induction
import DampedLeastSquares.Proofs.Commands
import DampedLeastSquares.Proofs.FloatOrder

/-!
# Tolerances that were refused

A start writes the tolerances it is given before they are checked. Settings that
it refuses for them stay in force, so every later start without tolerances is
refused as well, until settings are accepted again.
-/

set_option autoImplicit false

namespace DampedLeastSquares

variable {σ α : Type} [Scalar α]

namespace Settings

/-- The refusal of tolerances. -/
def toleranceFault (settings : Settings α) : Fault α :=
  .refused (.tolerances settings.costTolerance settings.gradientTolerance)

omit [Scalar α] in
theorem adopting_adopting (settings : Settings α) (cost? gradient? cost'? gradient'? : Option α) :
    (settings.adopting cost? gradient?).adopting cost'? gradient'? =
      settings.adopting (cost'?.or cost?) (gradient'?.or gradient?) := by
  cases cost'? <;> cases gradient'? <;> rfl

/-- With other tolerances, valid settings are refused for these or not at all. -/
theorem check_adopting {settings : Settings α} (valid : settings.check = .ok ())
    (cost? gradient? : Option α) :
    (settings.adopting cost? gradient?).check = .ok () ∨
      (settings.adopting cost? gradient?).check =
        .error (settings.adopting cost? gradient?).toleranceFault := by
  unfold check at valid
  obtain ⟨_, descent, rest⟩ := of_bind valid
  unfold DescentSettings.check at descent
  split at descent
  · cases descent
  split at descent
  · cases descent
  next interval =>
    by_cases negative : (settings.adopting cost? gradient?).gradientTolerance < 0.0 ∨
        (settings.adopting cost? gradient?).costTolerance < 0.0
    · refine .inr ?_
      unfold check DescentSettings.check
      rw [if_pos negative]
      rfl
    · refine .inl ?_
      have same : (settings.adopting cost? gradient?).toDescentSettings.check = .ok () := by
        unfold DescentSettings.check
        rw [if_neg negative]
        exact if_neg interval
      unfold check
      rw [same]
      exact rest

end Settings

namespace Solver

variable [Spectral α]

/-- The settings were written last by a start that was refused for them. -/
inductive Spoiled (idle : Solver σ α) : List (Command σ α) → Prop where
  | refused {history : List (Command σ α)} {point : Vec α} {cost? gradient? : Option α} :
      (idle.afterCommands history).canStart = true →
      ((idle.afterCommands history).settings.adopting cost? gradient?).check ≠ .ok () →
      Spoiled idle (history ++ [.start point cost? gradient?])
  | unwritten {history : List (Command σ α)} {command : Command σ α} :
      Spoiled idle history → (idle.afterCommands history).written? command = none →
      Spoiled idle (history ++ [command])

omit [Spectral α] in
/-- What a request writes is valid, or the request is a start that is refused for it. -/
theorem written?_cases {solver : Solver σ α} {command : Command σ α} {settings : Settings α}
    (written : solver.written? command = some settings) :
    settings.check = .ok () ∨ ∃ point cost? gradient?, command = .start point cost? gradient? ∧
      solver.canStart = true ∧ settings = solver.settings.adopting cost? gradient? := by
  cases command with
  | configure settings? =>
      cases settings? with
      | none => cases written
      | some asked =>
          simp only [written?] at written
          split at written
          · next checked =>
              cases written
              exact .inl checked
          · cases written
  | start point cost? gradient? =>
      simp only [written?] at written
      split at written
      · next able =>
          cases written
          exact .inr ⟨point, cost?, gradient?, rfl, able, rfl⟩
      · cases written
  | setLoss loss => cases written
  | setVerbose verbose => cases written
  | setFunctions residuals jacobian? split? world => cases written
  | iterate => cases written

variable [IsStrictOrder α (· < ·)] {idle : Solver σ α} {history : List (Command σ α)}

theorem Spoiled.invalid (spoiled : idle.Spoiled history) :
    (idle.afterCommands history).settings.check ≠ .ok () := by
  induction spoiled with
  | refused able refused =>
      simpa only [afterCommands_concat, obey_settings, written?, able, if_true,
        Option.getD_some] using refused
  | unwritten spoiled unwritten previous =>
      simpa only [afterCommands_concat, obey_settings, unwritten, Option.getD_none] using previous

theorem valid_of_unspoiled (valid : idle.settings.check = .ok ())
    (unspoiled : ¬ idle.Spoiled history) :
    (idle.afterCommands history).settings.check = .ok () := by
  induction history using List.reverseRecOn with
  | nil => exact valid
  | append_singleton history command previous =>
      rw [afterCommands_concat, obey_settings]
      cases written : (idle.afterCommands history).written? command with
      | none => exact previous fun spoiled => unspoiled (.unwritten spoiled written)
      | some settings =>
          obtain checked | ⟨point, cost?, gradient?, rfl, able, rfl⟩ := written?_cases written
          · exact checked
          · by_contra refused
            exact unspoiled (.refused able refused)

/-- Whatever was asked for, the settings are valid ones with perhaps other tolerances. -/
theorem settings_adopted (valid : idle.settings.check = .ok ()) (history : List (Command σ α)) :
    ∃ (settings : Settings α) (cost? gradient? : Option α), settings.check = .ok () ∧
      (idle.afterCommands history).settings = settings.adopting cost? gradient? := by
  induction history using List.reverseRecOn with
  | nil => exact ⟨idle.settings, none, none, valid, rfl⟩
  | append_singleton history command previous =>
      obtain ⟨settings, cost?, gradient?, checked, same⟩ := previous
      rw [afterCommands_concat, obey_settings]
      cases written : (idle.afterCommands history).written? command with
      | none => exact ⟨settings, cost?, gradient?, checked, same⟩
      | some found =>
          obtain valid | ⟨point, cost'?, gradient'?, rfl, able, rfl⟩ := written?_cases written
          · exact ⟨found, none, none, valid, rfl⟩
          · refine ⟨settings, cost'?.or cost?, gradient'?.or gradient?, checked, ?_⟩
            rw [same, Option.getD_some, Settings.adopting_adopting]

omit [Spectral α] [IsStrictOrder α (· < ·)] in
/-- Settings that are not valid are refused by every start that does not change them. -/
theorem start_run_invalid {solver : Solver σ α} {fault : Fault α} (able : solver.canStart = true)
    (invalid : solver.settings.check = .error fault) (point : Vec α) :
    (start point none none).run solver = (.error fault, solver) := by
  have refused : (solver.settings.adopting none none).check = .error fault := invalid
  exact start_run_refused able refused point

/-- A start that is refused before it does anything is refused for its tolerances, and these stay.
So it is refused again without any. -/
theorem start_refused (valid : idle.settings.check = .ok ()) {now : Solver σ α}
    (reached : idle.afterCommands history = now) (able : now.canStart = true)
    {cost? gradient? : Option α}
    (refused : (now.settings.adopting cost? gradient?).check ≠ .ok ()) (point : Vec α) :
    ∃ fault after, fault = (now.settings.adopting cost? gradient?).toleranceFault ∧
      after = { now with settings := now.settings.adopting cost? gradient? } ∧
      (start point cost? gradient?).run now = (.error fault, after) ∧
      ∀ point', (start point' none none).run after = (.error fault, after) := by
  subst reached
  obtain ⟨settings, cost'?, gradient'?, checked, same⟩ := settings_adopted valid history
  have failed : ((idle.afterCommands history).settings.adopting cost? gradient?).check =
      .error ((idle.afterCommands history).settings.adopting cost? gradient?).toleranceFault := by
    rw [same, Settings.adopting_adopting] at refused ⊢
    exact (Settings.check_adopting checked _ _).resolve_left refused
  refine ⟨_, _, rfl, rfl, start_run_refused able failed point, fun point' => ?_⟩
  have able : ({ idle.afterCommands history with
      settings := (idle.afterCommands history).settings.adopting cost? gradient? } :
        Solver σ α).canStart = true := able
  exact start_run_invalid able failed point'

/-- The settings in force are valid, unless they were written last by a start that was refused for
its tolerances. Such a start changes the settings and nothing else, and it makes every later start
fail that is given no tolerances. -/
theorem settings_valid_iff {form : JacobianForm} {normal : NormalMatrix α} {settings : Settings α}
    {world : σ} (created : create form normal settings world = .ok idle)
    (history : List (Command σ α)) :
    ((idle.afterCommands history).settings.check = .ok () ↔ ¬ idle.Spoiled history) ∧
    ∀ now, idle.afterCommands history = now → now.canStart = true → ∀ cost? gradient?,
      (now.settings.adopting cost? gradient?).check ≠ .ok () → ∀ point, ∃ fault after,
        fault = (now.settings.adopting cost? gradient?).toleranceFault ∧
        after = { now with settings := now.settings.adopting cost? gradient? } ∧
        (now.settings.check = .ok () → after.settings ≠ now.settings) ∧
        (start point cost? gradient?).run now = (.error fault, after) ∧
        ∀ point', (start point' none none).run after = (.error fault, after) := by
  have valid : idle.settings.check = .ok () := by
    obtain ⟨_, valid, made⟩ := of_bind created
    cases made
    exact valid
  constructor
  · exact ⟨fun checked spoiled => spoiled.invalid checked, valid_of_unspoiled valid⟩
  · intro now reached able cost? gradient? refused point
    obtain ⟨fault, after, named, rfl, ran, again⟩ :=
      start_refused valid reached able refused point
    refine ⟨fault, _, named, rfl, ?_, ran, again⟩
    intro checked same
    have same : now.settings.adopting cost? gradient? = now.settings := same
    rw [same] at refused
    exact refused checked

/-- One residual, the parameter itself. -/
def soleResidual (x : Vec Float) : Call Unit Float (Tensor Float) := pure (.vector x)

def soleJacobian (_ : Vec Float) : Call Unit Float (Derivative Float) :=
  pure (.whole (.matrix (.dense (.ofFn 1 1 fun _ _ => 1.0))))

def soleSearch : Solver Unit Float :=
  ⟨.whole, .whole (WholeNormal.create .elimination), Settings.standard, Loss.squared, none, (),
    false, [], .differentiate, 0, 0, false, [], [], [], [], [], 0.0 / 0.0, [], [], [], [], [],
    Settings.standard.initialDamping, initialGrowth⟩

theorem soleSearch_created : create .whole (.whole (WholeNormal.create .elimination))
    Settings.standard () = .ok soleSearch := by
  have valid : (Settings.standard : Settings Float).check.isOk = true := by decide +kernel
  cases checked : (Settings.standard : Settings Float).check with
  | error fault =>
      rw [checked] at valid
      cases valid
  | ok _ =>
      unfold create
      rw [checked]
      rfl

def givenFunctions : List (Command Unit Float) :=
  [.setFunctions soleResidual (some soleJacobian) none ()]

theorem negativeTolerance_refused :
    ((soleSearch.afterCommands givenFunctions).settings.adopting (some (-1.0)) none).check =
      .error (.refused (.tolerances (-1.0) 1.0e-8)) := by
  have negative : ((soleSearch.afterCommands givenFunctions).settings.adopting (some (-1.0))
      none).gradientTolerance < 0.0 ∨ ((soleSearch.afterCommands givenFunctions).settings.adopting
        (some (-1.0)) none).costTolerance < 0.0 := by
    decide +kernel
  unfold Settings.check DescentSettings.check
  rw [if_pos negative]
  rfl

/-- A negative tolerance for the cost stays, and it makes every later start fail. -/
theorem settings_valid_iff_negative :
    (soleSearch.afterCommands
        (givenFunctions ++ [.start [1.0] (some (-1.0)) none])).settings.check ≠ .ok () ∧
      ∃ fault after,
        (start [1.0] (some (-1.0)) none).run (soleSearch.afterCommands givenFunctions) =
          (.error fault, after) ∧
        ∀ point, (start point none none).run after = (.error fault, after) := by
  have refused : ((soleSearch.afterCommands givenFunctions).settings.adopting (some (-1.0))
      none).check ≠ .ok () := by
    rw [negativeTolerance_refused]
    nofun
  have able : (soleSearch.afterCommands givenFunctions).canStart = true := rfl
  constructor
  · intro valid
    exact (settings_valid_iff soleSearch_created _).1.mp valid (.refused able refused)
  · obtain ⟨fault, after, -, -, -, ran, again⟩ :=
      (settings_valid_iff soleSearch_created givenFunctions).2 _ rfl able _ _ refused [1.0]
    exact ⟨fault, after, ran, again⟩

/-- A start that is refused for its tolerances does not leave the settings as they were. -/
theorem refused_start_writes :
    ¬ ∀ (solver : Solver Unit Float) (point : Vec Float) (cost? gradient? : Option Float)
        (cost gradient : Float),
      ((start point cost? gradient?).run solver).1 =
          .error (.refused (.tolerances cost gradient)) →
        ((start point cost? gradient?).run solver).2.settings = solver.settings := by
  intro kept
  have ran := start_run_refused rfl negativeTolerance_refused [1.0]
  have same := kept _ [1.0] (some (-1.0)) none _ _ (congrArg Prod.fst ran)
  rw [ran] at same
  have lower : ((soleSearch.afterCommands givenFunctions).settings.adopting (some (-1.0))
      none).costTolerance < (soleSearch.afterCommands givenFunctions).settings.costTolerance := by
    decide +kernel
  rw [show (soleSearch.afterCommands givenFunctions).settings.adopting (some (-1.0)) none =
    (soleSearch.afterCommands givenFunctions).settings from same] at lower
  exact irrefl _ lower

end Solver

end DampedLeastSquares
