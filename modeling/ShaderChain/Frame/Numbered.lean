import ShaderChain.Frame.Target

/-!
# Numbered textures

A factory whose textures are the numbers from zero on. It can be given a number of
requests to meet and then refuses one. It remembers what it has created.
-/

namespace ShaderChain

inductive OutOfMemory where
  | outOfMemory
  deriving DecidableEq, Repr

def OutOfMemory.message : OutOfMemory → String
  | outOfMemory => "out of memory"

structure TextureStock where
  next : Nat
  /-- How many requests are met before one is refused, if one is to be refused. -/
  left : Option Nat
  created : List (Target Nat)
  deriving DecidableEq, Repr

namespace TextureStock

def full : TextureStock := ⟨0, none, []⟩

def create (s : TextureStock) (spec : TargetSpec) : Except OutOfMemory Nat × TextureStock :=
  match s.left with
  | some 0 => (.error .outOfMemory, { s with left := none })
  | left =>
      (.ok s.next, ⟨s.next + 1, left.map (· - 1), s.created ++ [⟨s.next, spec⟩]⟩)

end TextureStock

namespace Factory

def numbered : Factory TextureStock Nat OutOfMemory := ⟨TextureStock.create⟩

end Factory

end ShaderChain
