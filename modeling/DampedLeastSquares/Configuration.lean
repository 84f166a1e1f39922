import DampedLeastSquares.Loss.Choice
import DampedLeastSquares.Settings

/-!
# Configurations

Settings of any kind as one value: of descent, of damped descent, and of a loss.
A configuration can take over what another one has in common with it. Settings
of descent have nothing in common with a choice of loss; they carry it along for
a choice of loss that takes it over from them. Asking a configuration for what
its kind does not have is a fault.
-/

set_option autoImplicit false

namespace DampedLeastSquares

inductive Configuration (α : Type) where
  | descent (settings : DescentSettings α) (carried? : Option (LossChoice α))
  | damped (settings : Settings α) (carried? : Option (LossChoice α))
  | loss (choice : LossChoice α)

namespace Configuration

variable {α : Type} [Scalar α]

/-- The choice of loss that the configuration is or carries. -/
def choice? : Configuration α → Option (LossChoice α)
  | descent _ carried? => carried?
  | damped _ carried? => carried?
  | loss choice => some choice

def copy : Configuration α → Configuration α
  | descent settings _ => descent settings none
  | damped settings _ => damped settings none
  | loss choice => loss choice

def takeOver (target source : Configuration α) : Except (Fault α) (Configuration α) :=
  match target, source with
  | descent _ carried?, descent settings _ => .ok (descent settings carried?)
  | descent _ carried?, damped settings _ => .ok (descent settings.toDescentSettings carried?)
  | damped kept carried?, descent settings _ =>
      .ok (damped { kept with toDescentSettings := settings } carried?)
  | damped _ carried?, damped settings _ => .ok (damped settings carried?)
  | descent kept _, loss choice => .ok (descent kept (some choice))
  | damped kept _, loss choice => .ok (damped kept (some choice))
  | loss _, found =>
      match found.choice? with
      | some choice => .ok (loss choice)
      | none => .error .unsupported

/-- Same kind and same values. What is carried along does not count. -/
def same : Configuration α → Configuration α → Bool
  | descent left _, descent right _ => left.same right
  | damped left _, damped right _ => left.same right
  | loss left, loss right => left.same right
  | _, _ => false

/-- Refuse settings that no solver takes. -/
def check : Configuration α → Except (Fault α) Unit
  | descent settings _ => settings.check
  | damped settings _ => settings.check
  | loss _ => .error .unsupported

def reset : Configuration α → Except (Fault α) (Configuration α)
  | loss _ => .ok (loss .standard)
  | _ => .error .unsupported

def isRobust : Configuration α → Except (Fault α) Bool
  | loss choice => .ok choice.isRobust
  | _ => .error .unsupported

end Configuration

end DampedLeastSquares
