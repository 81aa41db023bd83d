import ShaderChain.PixelFormat
import ShaderChain.Size

/-!
# Render targets

A target is a texture with the specification it was created for. Textures come from a
factory, which may refuse a request. What a factory does may depend on all requests
before, so it has a state, and every function that asks it for textures takes the state
and gives it back.

An `Allocation` is the outcome of asking for textures: what is there afterwards, and
either whether a texture was created or the refusal that ended it. What was there
before a refusal stays.
-/

namespace ShaderChain

/-- What a target is created for. -/
structure TargetSpec where
  size : Extent
  format : PixelFormat
  mipmapped : Bool
  deriving DecidableEq, Repr

/-- A factory of textures of type `τ` with states `σ` and refusals `ε`. -/
structure Factory (σ τ ε : Type) where
  create : σ → TargetSpec → Except ε τ × σ

structure Target (τ : Type) where
  texture : τ
  spec : TargetSpec
  deriving DecidableEq, Repr

/-- The outcome of asking for textures. -/
structure Allocation (σ ε α : Type) where
  /-- Whether a texture was created, or the refusal. -/
  result : Except ε Bool
  value : α
  factory : σ

variable {σ τ ε : Type}

namespace Target

def create (f : Factory σ τ ε) (spec : TargetSpec) (s : σ) : Except ε (Target τ) × σ :=
  let (r, s) := f.create s spec
  (r.map (⟨·, spec⟩), s)

/-- Let a target meet a specification: replace it unless it does already. -/
def meet (f : Factory σ τ ε) (spec : TargetSpec) (t : Target τ) (s : σ) :
    Allocation σ ε (Target τ) :=
  if t.spec = spec then ⟨.ok false, t, s⟩
  else
    match create f spec s with
    | (.error e, s) => ⟨.error e, t, s⟩
    | (.ok t, s) => ⟨.ok true, t, s⟩

/-- Let there be a target: create it where there is none. One that is there must meet
the specification only if `renew` asks for it. -/
def ensure (f : Factory σ τ ε) (renew : Bool) (spec : TargetSpec) (slot : Option (Target τ))
    (s : σ) : Allocation σ ε (Option (Target τ)) :=
  match slot with
  | some t =>
      if renew then
        let a := t.meet f spec s
        ⟨a.result, some a.value, a.factory⟩
      else ⟨.ok false, some t, s⟩
  | none =>
      match create f spec s with
      | (.error e, s) => ⟨.error e, none, s⟩
      | (.ok t, s) => ⟨.ok true, some t, s⟩

/-- Let there be a target if one is wanted, and none otherwise. -/
def provide (f : Factory σ τ ε) (renew wanted : Bool) (spec : TargetSpec)
    (slot : Option (Target τ)) (s : σ) : Allocation σ ε (Option (Target τ)) :=
  if wanted then ensure f renew spec slot s else ⟨.ok false, none, s⟩

def createMany (f : Factory σ τ ε) (spec : TargetSpec) : Nat → σ → Except ε (List (Target τ)) × σ
  | 0, s => (.ok [], s)
  | n + 1, s =>
      match create f spec s with
      | (.error e, s) => (.error e, s)
      | (.ok t, s) =>
          let (r, s) := createMany f spec n s
          (r.map (t :: ·), s)

end Target

end ShaderChain
