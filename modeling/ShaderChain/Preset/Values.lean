import ShaderChain.Preset.Scan
import ShaderChain.Preset.Scale
import ShaderChain.Sampling
import ShaderChain.Single.Decimal

/-!
# Values of a preset

`valueOf? as k` is the value that the assignments `as` give to the key `k`: the
last one counts. The typed readers below take a value that does not parse for an
absent one.
-/

namespace ShaderChain.Preset

/-- The last value given to a key. -/
def valueOf? (as : List Assignment) (key : String) : Option String :=
  (as.reverse.find? (·.key == key)).map (·.value)

section Typed

variable (as : List Assignment) (key : String)

/-- A whole number below `2 ^ 32`. -/
def word? : Option UInt32 :=
  (valueOf? as key).bind fun v => (Text.unsigned? (Nat.pow 2 32) v.toList).map UInt32.ofNat

def single? : Option Single := (valueOf? as key).bind fun v => Single.read? v.toList

/-- A truth value, as a word or as a digit. -/
def flag? : Option Bool :=
  (valueOf? as key).bind fun v =>
    if v = "true" || v = "1" then some true
    else if v = "false" || v = "0" then some false
    else none

/-- A flag that is down unless it is raised. -/
def flag : Bool := (flag? as key).getD false

/-- A wrap mode, the border one unless another is named. -/
def wrapMode : WrapMode := ((valueOf? as key).bind WrapMode.ofWord?).getD .border

/-- A filter, by the wish for linear reading. -/
def filterMode : FilterMode := FilterMode.ofLinear (flag? as key)

def scaleType? : Option ScaleType := (valueOf? as key).bind ScaleType.ofWord?

def listOf : List String :=
  match valueOf? as key with
  | some v => (Text.items v.toList).map String.ofList
  | none => []

end Typed

end ShaderChain.Preset
