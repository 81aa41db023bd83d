import ShaderChain.Preset.Model
import ShaderChain.Preset.Values

/-!
# Building the model

`Model.ofAssignments` turns the assignments of a preset into its model. Three
things can be missing: the count of passes, the source of a pass, and the
description of a group. Everything else has a default, and a value that does not
parse is taken for absent. The keys of pass `i` are a stem followed by the decimal
of `i`.

The count can be far larger than the preset: the build notes which passes it visits.
-/

namespace ShaderChain.Preset

inductive BuildError where
  | missingKey (key : String)
  | invalidCount (text : String)
  | missingGroupDescription (group : String)
  deriving DecidableEq, Repr

namespace BuildError

def message : BuildError → String
  | missingKey key => "preset is missing required key `" ++ key ++ "`"
  | invalidCount text => "preset key `shaders` has an invalid count `" ++ text ++ "`"
  | missingGroupDescription group =>
      "parameter group `" ++ group ++ "` has no `" ++ group ++ "_group_desc`"

end BuildError

/-- The key of a pass: the stem and the pass's number. -/
def passKey (stem : String) (i : Nat) : String := stem ++ String.ofList (Text.decimal i)

/-- The factor and the absolute size of one axis. The axis's own key comes before
the key that both axes share. -/
def axisValue (as : List Assignment) (rule : ScaleType) (own shared : String) :
    Single × UInt32 :=
  match rule with
  | .unset => (Single.zero false, 0)
  | .absolute => (Single.one, ((word? as own).or (word? as shared)).getD 0)
  | .source | .viewport => (((single? as own).or (single? as shared)).getD Single.one, 0)

/-- The rules of both axes of pass `i`. A shared rule decides both; otherwise an
axis without a rule is sized by its source as soon as the other axis has a rule. -/
def axisRules (as : List Assignment) (i : Nat) : Option (ScaleType × ScaleType) :=
  match scaleType? as (passKey "scale_type" i) with
  | some rule => some (rule, rule)
  | none =>
      match scaleType? as (passKey "scale_type_x" i), scaleType? as (passKey "scale_type_y" i) with
      | none, none => none
      | x, y => some (x.getD .source, y.getD .source)

def scaleOf (as : List Assignment) (i : Nat) : Scale :=
  match axisRules as i with
  | none => Scale.unset
  | some (x, y) =>
      let horizontal := axisValue as x (passKey "scale_x" i) (passKey "scale" i)
      let vertical := axisValue as y (passKey "scale_y" i) (passKey "scale" i)
      ⟨x, y, ⟨horizontal.1, vertical.1⟩, ⟨horizontal.2, vertical.2⟩⟩

def passOf (as : List Assignment) (i : Nat) (path : String) : Pass where
  index := i
  path := path
  name := (valueOf? as (passKey "alias" i)).filter (· ≠ "")
  scale := scaleOf as i
  wrapMode := wrapMode as (passKey "wrap_mode" i)
  filter := filterMode as (passKey "filter_linear" i)
  frameCountMod := (word? as (passKey "frame_count_mod" i)).getD 0
  srgbFramebuffer := flag as (passKey "srgb_framebuffer" i)
  floatFramebuffer := flag as (passKey "float_framebuffer" i)
  mipmapInput := flag as (passKey "mipmap_input" i)

/-- The `n` passes from pass `i` on, up to the first one without a source, and the
numbers of those that are visited. -/
def visitFrom (as : List Assignment) : Nat → Nat → Except BuildError (List Pass) × List Nat
  | _, 0 => (.ok [], [])
  | i, n + 1 =>
      match valueOf? as (passKey "shader" i) with
      | none => (.error (.missingKey (passKey "shader" i)), [i])
      | some path =>
          let rest := visitFrom as (i + 1) n
          (rest.1.map (passOf as i path :: ·), i :: rest.2)

/-- A lookup texture, if its name is a key with its path. -/
def lut? (as : List Assignment) (name : String) : Option Lut :=
  (valueOf? as name).map fun path =>
    { name
      path := .ofString path
      wrapMode := wrapMode as (name ++ "_wrap_mode")
      filter := filterMode as (name ++ "_linear")
      mipmap := flag as (name ++ "_mipmap") }

/-- The value of a listed parameter, if its name is a key with a number. -/
def override? (as : List Assignment) (name : String) : Option Override :=
  (single? as name).map fun value => { name, value }

/-- The groups with the given keys, up to the first one without a description. -/
def groupsOf (as : List Assignment) : List String → Except BuildError (List Group)
  | [] => .ok []
  | key :: keys =>
      match valueOf? as (key ++ "_group_desc") with
      | none => .error (.missingGroupDescription key)
      | some description =>
          (groupsOf as keys).map
            ({ key, description, parameters := listOf as (key ++ "_group_parameters") } :: ·)

def passCount (as : List Assignment) : Except BuildError Nat :=
  match valueOf? as "shaders" with
  | none => .error (.missingKey "shaders")
  | some text =>
      match Text.count? text.toList with
      | none => .error (.invalidCount text)
      | some n => .ok n

namespace Model

/-- The model with the given passes and groups. -/
def assemble (as : List Assignment) (passes : List Pass) (groups : List Group) : Model where
  passes := passes
  luts := (listOf as "textures").filterMap (lut? as)
  overrides := (listOf as "parameters").filterMap (override? as)
  groups := groups

/-- The model of assignments, and the numbers of the passes that its build visits. -/
def visiting (as : List Assignment) : Except BuildError Model × List Nat :=
  match passCount as with
  | .error e => (.error e, [])
  | .ok count =>
      let visit := visitFrom as 0 count
      let model := do
        let passes ← visit.1
        let groups ← groupsOf as (listOf as "parameter_groups")
        return assemble as passes groups
      (model, visit.2)

def ofAssignments (as : List Assignment) : Except BuildError Model := (visiting as).1

/-- Scan a text and build its model. Keys behind a malformed line are absent. -/
def ofString (text : String) : Except BuildError Model := ofAssignments (scan text).assignments

end Model

end ShaderChain.Preset
