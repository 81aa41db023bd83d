import ShaderChain.Graph.Groups

/-!
# Assembling a graph

`Graph.assemble` joins a preset model with one annotation per pass. Parameters are
numbered in the order in which the passes first declare them, and every further
declaration of a parameter must agree with the first. The preset's last value for a
parameter becomes its initial value.
-/

namespace ShaderChain.Graph

/-- Why a preset and its annotations do not join. -/
inductive AssemblyError where
  | parameterConflict (name : String)
  | passCountMismatch (expected actual : Nat)
  deriving DecidableEq, Repr

namespace AssemblyError

def message : AssemblyError → String
  | parameterConflict name => "parameter `" ++ name ++ "` is declared with conflicting values"
  | passCountMismatch expected actual =>
      "expected " ++ toString expected ++ " pass annotations, got " ++ toString actual

end AssemblyError

/-- The first declaration of each name behind those of `ds`, if the others agree. -/
def mergeDeclarations (ds : List Declaration) :
    List Declaration → Except AssemblyError (List Declaration)
  | [] => .ok ds
  | d :: rest =>
      match Declaration.add? ds d with
      | none => .error (.parameterConflict d.name)
      | some ds => mergeDeclarations ds rest

/-- The value that a parameter starts with. -/
def initialValue (overrides : List Preset.Override) (d : Declaration) : Single :=
  match overrides.reverse.find? (·.name == d.name) with
  | some o => o.value
  | none => d.initial

def parameterOf (overrides : List Preset.Override) (groups : List ParameterGroup)
    (d : Declaration) (index : Nat) : Parameter where
  index := index
  name := d.name
  description := d.description
  initial := initialValue overrides d
  minimum := d.minimum
  maximum := d.maximum
  step := d.step
  group := groupKey groups d.name

/-- The format of a pass: the one its source asks for, or the one for its preset's
framebuffer. -/
def formatOf (p : Preset.Pass) (a : Source.Annotation) : PixelFormat :=
  match a.format with
  | some format => format
  | none =>
      if p.srgbFramebuffer then .nativeSrgb
      else if p.floatFramebuffer then .nativeFloat
      else .native

def passOf (p : Preset.Pass) (a : Source.Annotation) : Pass where
  preset := p
  source := a
  name := (p.name.or a.name).getD ""
  format := formatOf p a

/-- Join a model with the annotations of its passes, in order. -/
def assemble (m : Preset.Model) (as : List Source.Annotation) : Except AssemblyError Graph := do
  if m.passes.length ≠ as.length then
    throw (.passCountMismatch m.passes.length as.length)
  let ds ← mergeDeclarations [] (as.flatMap (·.declarations))
  let groups := groupsOf (ds.map (·.name)) m.groups
  return {
    passes := m.passes.zipWith passOf as
    luts := m.luts
    parameters := ds.zipIdx.map fun (d, i) => parameterOf m.overrides groups d i
    groups }

end ShaderChain.Graph
