import ShaderChain.Binding.Reflection
import ShaderChain.Stage
import ShaderChain.Text.Pieces

/-!
# Backends

A backend turns the text of a stage into intermediate code, reflects the code, and
emits it in the language of the renderer. Each step may fail with a message.

The scripted backend does as the text tells it. Its code is the text itself, a step
fails if a line asks for the failure, and the reflection of a stage is the one that a
line names, or the stage's default.
-/

namespace ShaderChain

/-- A backend with intermediate code of type `ι`. -/
structure Backend (ι : Type) where
  compile : Stage → String → Except String ι
  reflect : Stage → ι → Except String StageReflection
  emit : Stage → ι → Except String String

namespace Backend

/-- What follows `start` in the first line of a text that starts with it. -/
def instruction? (start text : String) : Option String :=
  (Text.lines text.toList).findSome? fun line =>
    (Text.after? start.toList line).map String.ofList

/-- The stage that does nothing of its own. -/
def defaultReflection : Stage → StageReflection
  | .vertex => ⟨[⟨"Position", 0⟩, ⟨"TexCoord", 1⟩], [⟨"vTexCoord", 0⟩], []⟩
  | .fragment => ⟨[⟨"vTexCoord", 0⟩], [⟨"FragColor", 0⟩], []⟩

/-- Fail if a line of the text asks for it, and else go on. -/
def unlessFailing {α : Type} (step text : String) (result : Except String α) :
    Except String α :=
  match instruction? ("//@fail " ++ step ++ " ") text with
  | some message => .error message
  | none => result

def reflectionOf (reflections : List (String × StageReflection)) (key : String) :
    Except String StageReflection :=
  match reflections.lookup key with
  | some r => .ok r
  | none => .error ("no reflection " ++ key)

/-- The backend that follows the instructions in the text of a stage. -/
def scripted (reflections : List (String × StageReflection)) : Backend String where
  compile _ text := unlessFailing "compile" text (.ok text)
  reflect stage text :=
    unlessFailing "reflect" text <|
      match instruction? "//@reflect " text with
      | some key => reflectionOf reflections key
      | none => .ok (defaultReflection stage)
  emit stage text :=
    unlessFailing "cross" text (.ok ("// " ++ Named.name stage ++ "\n" ++ text))

end Backend

end ShaderChain
