import ShaderChain.Compiled.Usage
import ShaderChain.Compiler.Backend
import ShaderChain.Compiler.Error
import ShaderChain.Config.Compiler

/-!
# Compiling a preset

A preset is loaded, built, joined with its annotated sources and compiled pass by
pass. The steps run in this order, each over all passes, and the first failure of the
first failing pass is the error of the whole.
-/

namespace ShaderChain

namespace Preset.Model

/-- The model with the paths of its files read from a directory. -/
def inDirectory (m : Model) : Option String → Model
  | none => m
  | some base =>
      { m with
        passes := m.passes.map fun p => { p with path := Path.join base p.path }
        luts := m.luts.map fun l => { l with path := (FilePath.ofString base).join l.path } }

end Preset.Model

namespace Graph

def annotateAll (store : FileStore) (passes : List Preset.Pass) :
    Except CompileError (List Source.Annotation) :=
  passes.mapM fun p => (Source.Annotation.ofFile store p.path).mapError (.source p.index)

/-- The graph of the preset at `path`. The paths in a preset are read from the
directory that holds it. -/
def load (store : FileStore) (path : String) : Except CompileError Graph := do
  let text ← (store.load path).mapError (.unreadablePreset path)
  let model ← (Preset.Model.ofString text).mapError .preset
  let model := model.inDirectory (Path.parent? path)
  let annotations ← annotateAll store model.passes
  (assemble model annotations).mapError .graph

end Graph

namespace Backend

variable {ι : Type}

/-- Compile a stage: the reflection of its code, and its text for the renderer. -/
def compileStage (b : Backend ι) (p : Graph.Pass) (stage : Stage) :
    Except CompileError (StageReflection × String) :=
  let failed := CompileError.backend p.preset.index stage
  do
    let code ← (b.compile stage (p.source.text stage)).mapError failed
    let reflection ← (b.reflect stage code).mapError failed
    let text ← (b.emit stage code).mapError failed
    return (reflection, text)

/-- A compiled pass from the texts of its stages and its layouts. It is not flagged for
feedback yet. -/
def assemblePass (p : Graph.Pass) (vertex fragment : String) (l : PassBindings) :
    CompiledPass where
  index := p.preset.index
  name := p.name
  vertexSource := vertex
  fragmentSource := fragment
  scale := p.preset.scale
  format := p.format
  wrapMode := p.preset.wrapMode
  filter := p.preset.filter
  frameCountMod := p.preset.frameCountMod
  mipmapInput := p.preset.mipmapInput
  isFeedback := false
  uniformBuffer := l.uniformBuffer
  pushConstant := l.pushConstant
  textures := l.textures
  sourceHash := p.source.hash

/-- Compile a pass: the vertex stage, then the fragment stage, then the layouts. -/
def compilePass (b : Backend ι) (binder : Binder) (p : Graph.Pass) :
    Except CompileError CompiledPass := do
  let (vertex, vertexText) ← b.compileStage p .vertex
  let (fragment, fragmentText) ← b.compileStage p .fragment
  let layouts ← (binder.bind p.preset.index vertex fragment).mapError (.binding p.preset.index)
  return assemblePass p vertexText fragmentText layouts

/-- Compile the passes of a graph, and find out what the chain keeps between frames. -/
def compileGraph (b : Backend ι) (config : CompilerConfig) (g : Graph) :
    Except CompileError CompiledShader := do
  let binder := Binder.ofGraph g config.maxBindings
  let passes ← g.passes.mapM (b.compilePass binder)
  return {
    passes := flagFeedback passes
    parameters := g.parameters
    parameterGroups := g.groups
    luts := g.luts
    historyCount := historyDepth passes }

def compilePreset (b : Backend ι) (config : CompilerConfig) (store : FileStore) (path : String) :
    Except CompileError CompiledShader := do
  b.compileGraph config (← Graph.load store path)

end Backend

end ShaderChain
