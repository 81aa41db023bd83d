import ShaderChain.Frame.Plan

/-!
# Target pairs

A pass has a target for its output and, if its output is read a frame late, a second
one of the same kind. At the start of a frame the two change places. A pass that
renders to the output has no target for it.
-/

namespace ShaderChain

structure TargetPair (τ : Type) where
  output : Option (Target τ)
  feedback : Option (Target τ)
  deriving DecidableEq, Repr

variable {σ τ ε : Type}

namespace TargetPair

def empty : TargetPair τ := ⟨none, none⟩

def swap (p : TargetPair τ) : TargetPair τ := ⟨p.feedback, p.output⟩

@[simp] theorem swap_swap (p : TargetPair τ) : p.swap.swap = p := rfl

/-- Swap the pairs of the passes that are read a frame late. -/
def swapLate : List CompiledPass → List (TargetPair τ) → List (TargetPair τ)
  | p :: passes, t :: pairs => (if p.isFeedback then t.swap else t) :: swapLate passes pairs
  | _, pairs => pairs

@[simp] theorem swapLate_swapLate (passes : List CompiledPass) (pairs : List (TargetPair τ)) :
    swapLate passes (swapLate passes pairs) = pairs := by
  induction passes generalizing pairs with
  | nil => rfl
  | cons p passes ih =>
      cases pairs with
      | nil => rfl
      | cons t pairs =>
          simp only [swapLate, ih, List.cons.injEq, and_true]
          split <;> simp

/-- As many pairs as there are passes: those at the end are dropped or empty. -/
def fit (count : Nat) (pairs : List (TargetPair τ)) : List (TargetPair τ) :=
  pairs.take count ++ List.replicate (count - pairs.length) empty

@[simp] theorem length_fit (count : Nat) (pairs : List (TargetPair τ)) :
    (fit count pairs).length = count := by
  simp [fit]
  omega

/-- Let a pass have the targets of its plan. -/
def allocate (f : Factory σ τ ε) (renew : Bool) (plan : PassPlan) (p : TargetPair τ) (s : σ) :
    Allocation σ ε (TargetPair τ) :=
  let output := Target.provide f renew (plan.target = .intermediate) plan.spec p.output s
  match output.result with
  | .error e => ⟨.error e, ⟨output.value, p.feedback⟩, output.factory⟩
  | .ok created =>
      let feedback :=
        Target.provide f renew plan.isFeedback plan.spec p.feedback output.factory
      ⟨feedback.result.map (created || ·), ⟨output.value, feedback.value⟩, feedback.factory⟩

/-- Let every pass have the targets of its plan, up to the first refusal. -/
def allocateAll (f : Factory σ τ ε) (renew : Bool) :
    List PassPlan → List (TargetPair τ) → σ → Allocation σ ε (List (TargetPair τ))
  | plan :: plans, p :: pairs, s =>
      let first := p.allocate f renew plan s
      match first.result with
      | .error e => ⟨.error e, first.value :: pairs, first.factory⟩
      | .ok created =>
          let others := allocateAll f renew plans pairs first.factory
          ⟨others.result.map (created || ·), first.value :: others.value, others.factory⟩
  | _, pairs, s => ⟨.ok false, pairs, s⟩

end TargetPair

end ShaderChain
