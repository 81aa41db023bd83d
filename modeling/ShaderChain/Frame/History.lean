import ShaderChain.Frame.Target

/-!
# The history ring

The inputs of this frame and of those before it are kept in a ring of targets, the
newest first. Each frame the oldest target becomes the newest. The ring is created anew
when its length or the size of the input changes, and then all of it has to be cleared.
-/

namespace ShaderChain

inductive HistoryUpdate (τ : Type) where
  | disabled
  | renewed (ring : List (Target τ))
  /-- The ring stays and is cleared. -/
  | cleared
  /-- The oldest target becomes the newest. -/
  | rotated
  deriving DecidableEq, Repr

variable {σ τ ε : Type}

/-- Let the last element be the first. -/
def rotateRight {α : Type} (xs : List α) : List α :=
  match xs.getLast? with
  | some x => x :: xs.dropLast
  | none => []

namespace HistoryUpdate

/-- What the targets of a ring are created for. -/
def slotSpec (size : Extent) : TargetSpec := ⟨size, .native, false⟩

/-- Whether a ring has the given length and holds inputs of the given size. -/
def fits (ring : List (Target τ)) (length : Nat) (size : Extent) : Bool :=
  ring.length = length && ring.head?.any (·.spec.size = size)

/-- How a ring changes to be of the given length for inputs of the given size. -/
def stage (f : Factory σ τ ε) (ring : List (Target τ)) (length : Nat) (size : Extent)
    (clear : Bool) (s : σ) : Except ε (HistoryUpdate τ) × σ :=
  if length = 0 then (.ok .disabled, s)
  else if fits ring length size then (.ok (if clear then .cleared else .rotated), s)
  else
    let (r, s) := Target.createMany f (slotSpec size) length s
    (r.map .renewed, s)

def apply (u : HistoryUpdate τ) (ring : List (Target τ)) : List (Target τ) :=
  match u with
  | .disabled => []
  | .renewed new => new
  | .cleared => ring
  | .rotated => rotateRight ring

def isReset : HistoryUpdate τ → Bool
  | .renewed _ => true
  | .cleared => true
  | _ => false

end HistoryUpdate

end ShaderChain
