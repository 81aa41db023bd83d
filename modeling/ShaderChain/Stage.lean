import ShaderChain.Named

/-!
# Shader stages
-/

namespace ShaderChain

inductive Stage where
  | vertex
  | fragment
  deriving DecidableEq, Repr

instance : Named Stage where
  all := [.vertex, .fragment]
  name
    | .vertex => "vertex"
    | .fragment => "fragment"
  find_name s := by cases s <;> rfl

end ShaderChain
