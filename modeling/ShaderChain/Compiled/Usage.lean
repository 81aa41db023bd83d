import ShaderChain.Compiled.Basic

/-!
# What a chain keeps between frames

A chain keeps as many earlier inputs as the highest number that a pass asks for, be
it to sample the texture or to know its size, and it keeps the earlier output of
every pass that some pass samples a frame late. Both are found in one walk over the
passes.
-/

namespace ShaderChain

namespace CompiledPass

/-- The textures whose size the pass asks for. -/
def sizedTextures (p : CompiledPass) : List TextureRef :=
  (p.buffers.flatMap (·.slots)).filterMap fun s =>
    match s.role with
    | .textureSize r => some r
    | _ => none

def sampledTextures (p : CompiledPass) : List TextureRef := p.textures.map (·.reference)

end CompiledPass

/-- What a walk over passes has found: the highest number of an earlier input that one
of them asks for, and for each pass whether one of them samples it a frame late. -/
structure Usage where
  depth : Nat
  late : List Bool
  deriving DecidableEq, Repr

namespace Usage

/-- The size of a texture is asked for. -/
def addSized (u : Usage) (r : TextureRef) : Usage :=
  if r.semantic = .inputHistory then { u with depth := max u.depth r.index } else u

/-- A texture is sampled. A pass that is not there is passed over. -/
def addSampled (u : Usage) (r : TextureRef) : Usage :=
  match r.semantic with
  | .inputHistory => { u with depth := max u.depth r.index }
  | .passFeedback => { u with late := u.late.set r.index true }
  | _ => u

def addPass (u : Usage) (p : CompiledPass) : Usage :=
  p.sampledTextures.foldl addSampled (p.sizedTextures.foldl addSized u)

def ofPasses (passes : List CompiledPass) : Usage :=
  passes.foldl addPass ⟨0, List.replicate passes.length false⟩

end Usage

/-- The highest number of an earlier input that a pass asks for, or zero. -/
def historyDepth (passes : List CompiledPass) : Nat := (Usage.ofPasses passes).depth

/-- The passes, each flagged if some pass samples it a frame late. -/
def flagFeedback (passes : List CompiledPass) : List CompiledPass :=
  passes.zipWith (fun p late => { p with isFeedback := late }) (Usage.ofPasses passes).late

end ShaderChain
