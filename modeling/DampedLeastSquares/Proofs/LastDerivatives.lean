import DampedLeastSquares.Proofs.Rescaling

/-!
# The derivatives that were computed last

Trials leave gradient and normal matrix as they are, but for the diagonal, and so do other settings
and another loss. What a search holds while it looks for a step is therefore the system of the call
that computed derivatives last. This is so even after a call that took a candidate over and stopped
halfway, where the derivatives are no longer those of the parameters.
-/

set_option autoImplicit false

open scoped Matrix

namespace DampedLeastSquares.Solver

open Exact NormalMatrix

variable {σ : Type} {k l : Nat}

variable [Spectral ℝ]

/-- After the history the search holds the system of the derivatives that the call after `earlier`
computed. -/
structure StemsFrom (started : Solver σ ℝ) (history earlier : List (Command σ ℝ))
    (jacobian : RealMatrix l k) (slopes : Fin l → ℝ) (carried : Fin k → ℝ) : Prop where
  derived : started.DerivedAfter history earlier
  linearized : (started.afterCommands (earlier ++ [.iterate])).Linearized jacobian slopes carried
  nonzero : ∀ index, carried index ≠ 0
  steep : jacobianᵀ *ᵥ slopes ≠ 0
  carries : (started.afterCommands history).Carries jacobian slopes carried
  undoes : Undoes { started.afterCommands history with
    settings := (started.afterCommands earlier).settings } carried

theorem StemsFrom.concat {started : Solver σ ℝ} {history earlier : List (Command σ ℝ)}
    {jacobian : RealMatrix l k} {slopes : Fin l → ℝ} {carried : Fin k → ℝ}
    (stems : started.StemsFrom history earlier jacobian slopes carried) {command : Command σ ℝ}
    (searching : (started.afterCommands (history ++ [command])).phase = .search)
    (carries : (started.afterCommands (history ++ [command])).Carries jacobian slopes carried)
    (scaling : (started.afterCommands (history ++ [command])).scaling =
      (started.afterCommands history).scaling) :
    started.StemsFrom (history ++ [command]) earlier jacobian slopes carried :=
  ⟨stems.derived.concat searching, stems.linearized, stems.nonzero, stems.steep, carries,
    fun rescaling => scaling.trans (stems.undoes.scaled rescaling), stems.undoes.plain⟩

/-- A gradient that does not vanish has an entry. -/
theorem StemsFrom.gradient {started : Solver σ ℝ} {history earlier : List (Command σ ℝ)}
    {jacobian : RealMatrix l k} {slopes : Fin l → ℝ} {carried : Fin k → ℝ}
    (stems : started.StemsFrom history earlier jacobian slopes carried) :
    (started.afterCommands history).gradient ≠ [] := by
  rw [stems.carries.gradient, Ne, List.ofFn_eq_nil_iff]
  rintro rfl
  exact stems.steep (Subsingleton.elim _ _)

/-- What holds after a history, whatever became of the loss: a system of derivatives is held
whenever a step is looked for. -/
structure Provided (started : Solver σ ℝ) (history : List (Command σ ℝ))
    (parameters functions : Nat) : Prop where
  sited : (started.afterCommands history).Sited parameters functions
  stems : (started.afterCommands history).phase = .search →
    ∃ (earlier : List (Command σ ℝ)) (jacobian : RealMatrix functions parameters)
      (slopes : Fin functions → ℝ) (carried : Fin parameters → ℝ),
      started.StemsFrom history earlier jacobian slopes carried

theorem Provided.retuned {started : Solver σ ℝ} {history : List (Command σ ℝ)}
    (provided : started.Provided history k l) {command : Command σ ℝ} {settings : Settings ℝ}
    {loss : Loss σ ℝ} {verbose : Bool} (valid : settings.check = .ok ())
    (retuned : (started.afterCommands history).obey command =
      { started.afterCommands history with
        settings := settings, loss := loss, verbose := verbose }) :
    started.Provided (history ++ [command]) k l := by
  rw [← afterCommands_concat] at retuned
  constructor
  · rw [retuned]
    exact ⟨{ provided.sited.sized with x := provided.sited.sized.x }, provided.sited.eliminates,
      valid, provided.sited.measured⟩
  · intro searching
    have before : (started.afterCommands history).phase = .search := by
      rw [retuned] at searching
      exact searching
    obtain ⟨earlier, jacobian, slopes, carried, stems⟩ := provided.stems before
    have same : (started.afterCommands (history ++ [command])).system =
        (started.afterCommands history).system := by
      rw [retuned]
      rfl
    exact ⟨earlier, jacobian, slopes, carried, stems.concat searching
      (stems.carries.of_system same) (congrArg (fun system => system.2.2.2) same)⟩

theorem Provided.iterate {started : Solver σ ℝ} {history : List (Command σ ℝ)}
    (provided : started.Provided history k l) : started.Provided (history ++ [.iterate]) k l := by
  have called : started.afterCommands (history ++ [.iterate]) =
      (started.afterCommands history).next := afterCommands_concat _ _ _
  cases phase : (started.afterCommands history).phase with
  | differentiate =>
      have supplied := next_supplied provided.sited phase
      have settings := (next_configured (started.afterCommands history)).settings
      rw [← called] at supplied settings
      refine ⟨supplied.toSited, fun searching => ?_⟩
      obtain ⟨jacobian, slopes, carried, ready⟩ := supplied.held searching
      have carries := ready.carries
      have undoes := ready.undoes
      have steep := ready.steep
      rw [← settings] at ready
      exact ⟨history, jacobian, slopes, carried, .of_differentiate phase searching,
        ready.toLinearized, ready.toLinearized.scaling_ne supplied.valid, steep, carries, undoes⟩
  | search =>
      obtain ⟨earlier, jacobian, slopes, carried, stems⟩ := provided.stems phase
      have kept := stems.carries.next provided.sited phase
      have sited := kept.sited provided.sited
      rw [← called] at kept sited
      exact ⟨sited, fun searching => ⟨earlier, jacobian, slopes, carried,
        stems.concat searching kept.toCarries kept.scaling⟩⟩
  | converged =>
      rw [(rests phase).2] at called
      refine ⟨?_, fun searching => ?_⟩
      · rw [called]
        exact provided.sited.counted _ _
      · rw [called] at searching
        cases phase.symm.trans searching

theorem provided_of_sited {started : Solver σ ℝ} (sited : started.Sited k l)
    (waits : started.phase ≠ .search) {history : List (Command σ ℝ)}
    (continues : ∀ command ∈ history, Continues command) : started.Provided history k l := by
  induction history using List.reverseRecOn with
  | nil => exact ⟨sited, fun searching => (waits searching).elim⟩
  | append_singleton history command previous =>
      have provided := previous fun command member =>
        continues command (List.mem_append_left _ member)
      have continues := continues command (List.mem_append_right _ (by simp))
      obtain rfl | ⟨settings, loss, verbose, valid, retuned⟩ :=
        obey_continues provided.sited.valid continues
      · exact provided.iterate
      · exact provided.retuned valid retuned

/-- All along a history of a search with a method of elimination, a system of derivatives is held
whenever a step is looked for. -/
theorem provided_of_start {idle started : Solver σ ℝ} {point : Vec ℝ} {cost? gradient? : Option ℝ}
    (success : (start point cost? gradient?).run idle = (.ok (), started))
    (eliminates : idle.normal.layout?.isSome) {history : List (Command σ ℝ)}
    (continues : ∀ command ∈ history, Continues command) :
    started.Provided history point.length started.residuals.length := by
  have ready := (start_ensures idle point cost? gradient?).of_run_ok success
  refine provided_of_sited (ready.sited eliminates) ?_ continues
  rw [ready.phase]
  nofun

end DampedLeastSquares.Solver
