import DampedLeastSquares.Call

/-!
# Answers that share memory

A function that is called with an array may answer with a part of that array, or with an array
that it keeps and writes to in every call. What such an answer shows is found when it is read, and
the array or the function's own state may have changed by then.
-/

set_option autoImplicit false

namespace DampedLeastSquares

/-- An answer in one piece of memory. Its entries are found in the array that the function was
called with and in the caller's state, as these are when the answer is read. -/
structure View (σ α : Type) where
  shape : List Nat
  entries : Vec α → σ → Vec α

namespace View

variable {σ α : Type}

/-- An array that nothing else writes to. -/
def fresh (tensor : Tensor α) : View σ α := ⟨tensor.shape, fun _ _ => tensor.data⟩

/-- What the answer shows now that the array has these entries. -/
def read (view : View σ α) (array : Vec α) : Call σ α (Tensor α) := do
  return ⟨view.shape, view.entries array (← get)⟩

@[simp] theorem run_read (view : View σ α) (array : Vec α) (world : σ) :
    (view.read array).run world = (.ok ⟨view.shape, view.entries array world⟩, world) := rfl

@[simp] theorem read_fresh (tensor : Tensor α) (array : Vec α) :
    (fresh tensor : View σ α).read array = pure tensor := rfl

/-- A function that answers with arrays of its own. -/
@[coe] def ofFresh (function : Vec α → Call σ α (Tensor α)) (x : Vec α) : Call σ α (View σ α) :=
  fresh <$> function x

instance : Coe (Vec α → Call σ α (Tensor α)) (Vec α → Call σ α (View σ α)) := ⟨ofFresh⟩

/-- A function whose answers are copied as soon as it has returned. -/
def copied (function : Vec α → Call σ α (View σ α)) (x : Vec α) : Call σ α (Tensor α) := do
  (← function x).read x

@[simp] theorem copied_ofFresh (function : Vec α → Call σ α (Tensor α)) :
    copied (ofFresh function) = function := by
  funext x
  simp only [copied, ofFresh, bind_map_left, read_fresh, bind_pure]

end View

end DampedLeastSquares
