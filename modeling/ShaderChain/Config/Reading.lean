import ShaderChain.Config.Compiler
import ShaderChain.Config.Scheduler
import ShaderChain.Toml.Reader

/-!
# Reading configurations

Both configurations are TOML documents. A setting that is absent has its standard value,
a setting of another type or out of range is refused, and other keys are ignored.
-/

namespace ShaderChain

namespace CompilerConfig

def ofToml? (text : String) : Option CompilerConfig := do
  let es ← Toml.read? text
  let parallel ← es.setting? "parallel" standard.parallel Toml.Value.boolean?
  let threadStackSize ← es.setting? "thread-stack-size" standard.threadStackSize fun v =>
    (v.natural? (Nat.pow 2 64)).map UInt64.ofNat
  let maxBindings ← es.setting? "max-bindings" standard.maxBindings fun v =>
    (v.natural? (Nat.pow 2 32)).map UInt32.ofNat
  return { parallel, threadStackSize, maxBindings }

end CompilerConfig

namespace SchedulerOptions

def ofToml? (text : String) : Option SchedulerOptions := do
  let es ← Toml.read? text
  let forceNoMipmaps ←
    es.setting? "force-no-mipmaps" standard.forceNoMipmaps Toml.Value.boolean?
  let maxTextureDimension ←
    es.setting? "max-texture-dimension" standard.maxTextureDimension fun v =>
      (v.natural? (Nat.pow 2 32)).map UInt32.ofNat
  let history ← es.setting? "history" standard.history Toml.Value.boolean?
  return { forceNoMipmaps, maxTextureDimension, history }

end SchedulerOptions

end ShaderChain
