import ShaderChain.Named

/-!
# Semantics

What the names in a shader stand for. A texture is the chain's input, the output of
a pass, an input or output of an earlier frame, or a lookup texture; all but two
kinds are numbered. A uniform is a value that the renderer supplies, a parameter, or
the size of a texture.
-/

namespace ShaderChain

/-- A uniform that the renderer supplies to every pass. -/
inductive GlobalSemantic where
  | mvp
  | outputSize
  | finalViewportSize
  | frameCount
  | frameDirection
  deriving DecidableEq, Repr

namespace GlobalSemantic

instance : Named GlobalSemantic where
  all := [mvp, outputSize, finalViewportSize, frameCount, frameDirection]
  name
    | mvp => "mvp"
    | outputSize => "outputSize"
    | finalViewportSize => "finalViewportSize"
    | frameCount => "frameCount"
    | frameDirection => "frameDirection"
  find_name s := by cases s <;> rfl

def word : GlobalSemantic → String
  | mvp => "Mvp"
  | outputSize => "OutputSize"
  | finalViewportSize => "FinalViewportSize"
  | frameCount => "FrameCount"
  | frameDirection => "FrameDirection"

def uniformName : GlobalSemantic → String
  | mvp => "MVP"
  | s => s.word

def ofUniformName? (name : String) : Option GlobalSemantic :=
  Named.all.find? fun s : GlobalSemantic => s.uniformName == name

end GlobalSemantic

/-- The kinds of textures that a pass may sample. -/
inductive TextureSemantic where
  | chainInput
  /-- The output of the pass before, or the chain's input for the first pass. -/
  | source
  /-- The chain's inputs of this frame and those before it, counted back from 0. -/
  | inputHistory
  | passOutput
  /-- The output of a pass in the frame before. -/
  | passFeedback
  | user
  deriving DecidableEq, Repr

namespace TextureSemantic

instance : Named TextureSemantic where
  all := [chainInput, source, inputHistory, passOutput, passFeedback, user]
  name
    | chainInput => "original"
    | source => "source"
    | inputHistory => "originalHistory"
    | passOutput => "passOutput"
    | passFeedback => "passFeedback"
    | user => "user"
  find_name s := by cases s <;> rfl

/-- The word that starts a texture's name in shaders. -/
def word : TextureSemantic → String
  | chainInput => "Original"
  | source => "Source"
  | inputHistory => "OriginalHistory"
  | passOutput => "PassOutput"
  | passFeedback => "PassFeedback"
  | user => "User"

/-- Whether there are several textures of the kind, told apart by a number. -/
def isArray : TextureSemantic → Bool
  | chainInput => false
  | source => false
  | _ => true

end TextureSemantic

/-- One texture: its kind, and its number within the kind. -/
structure TextureRef where
  semantic : TextureSemantic
  index : Nat
  deriving DecidableEq, Repr

namespace TextureRef

def text (r : TextureRef) : String :=
  "TextureRef \x7b semantic: " ++ r.semantic.word ++ ", index: " ++ toString r.index ++ " \x7d"

end TextureRef

/-- What a member of a buffer stands for. -/
inductive UniformRole where
  | global (semantic : GlobalSemantic)
  /-- A parameter, by its number in the chain. -/
  | parameter (index : Nat)
  /-- The width, the height and their inverses of a texture. -/
  | textureSize (reference : TextureRef)
  deriving DecidableEq, Repr

namespace UniformRole

def text : UniformRole → String
  | global s => "Global(" ++ s.word ++ ")"
  | parameter i => "Parameter(" ++ toString i ++ ")"
  | textureSize r => "TextureSize(" ++ r.text ++ ")"

end UniformRole

end ShaderChain
