import ShaderChain.Graph.Basic

/-!
# Grouping parameters

The groups of a preset take parameters in the order of their declaration: a
parameter belongs to the first group that lists it. What no group takes falls to
the default group, behind the parameters that this group lists itself; a preset that
declares no default group gets one behind all others. Groups without parameters are
dropped, so that the groups partition the parameters.
-/

namespace ShaderChain.Graph

/-- The key of the group of all parameters that no other group takes. -/
def defaultKey : String := "default"

/-- The label of a default group that the preset does not declare. -/
def defaultLabel : String := "Default"

def firstByKey : List Preset.Group → List Preset.Group
  | [] => []
  | g :: gs => g :: (firstByKey gs).filter (·.key != g.key)

/-- The listed names that are known and free, each once. -/
def freeNames (known : String → Bool) (taken : List String) : List String → List String
  | [] => []
  | name :: rest =>
      if known name && !taken.contains name then
        name :: freeNames known (name :: taken) rest
      else freeNames known taken rest

/-- What each group takes of the names that the groups before it leave. -/
def memberships (known : String → Bool) (taken : List String) :
    List Preset.Group → List ParameterGroup
  | [] => []
  | g :: gs =>
      let members := freeNames known taken g.parameters
      ⟨g.key, g.description, members⟩ :: memberships known (members ++ taken) gs

/-- Add names to the default group, or a default group of them behind all others. -/
def addToDefault (names : List String) : List ParameterGroup → List ParameterGroup
  | [] => [⟨defaultKey, defaultLabel, names⟩]
  | g :: gs =>
      if g.key = defaultKey then { g with parameters := g.parameters ++ names } :: gs
      else g :: addToDefault names gs

def groupsOf (names : List String) (declared : List Preset.Group) : List ParameterGroup :=
  let gs := memberships names.contains [] (firstByKey declared)
  let taken := gs.flatMap (·.parameters)
  (addToDefault (names.filter fun n => !taken.contains n) gs).filter (·.parameters ≠ [])

def groupKey (groups : List ParameterGroup) (name : String) : String :=
  match groups.find? (·.parameters.contains name) with
  | some g => g.key
  | none => defaultKey

end ShaderChain.Graph
