import ShaderChain.Json.Value
import ShaderChain.Stage
import ShaderChain.Text.Pieces

/-!
# Stage masks

A mask is a set of stages, one bit each. It is written as the names of its stages and,
in hexadecimal, the bits that belong to no stage, with a bar between each two. The empty
mask is the empty text.
-/

namespace ShaderChain

/-- A set of stages, one bit each: the vertex stage first, then the fragment stage.
A document may set bits that belong to no stage. -/
structure StageMask where
  bits : UInt8
  deriving DecidableEq, Repr

namespace StageMask

def empty : StageMask := ⟨0⟩

def ofStage : Stage → StageMask
  | .vertex => ⟨1⟩
  | .fragment => ⟨2⟩

def union (a b : StageMask) : StageMask := ⟨a.bits ||| b.bits⟩

/-- Whether all bits of `b` are set in `a`. -/
def contains (a b : StageMask) : Bool := a.bits &&& b.bits == b.bits

def stageName : Stage → String
  | .vertex => "VERTEX"
  | .fragment => "FRAGMENT"

/-- The bits of a mask that belong to no stage. -/
def otherBits (m : StageMask) : Nat := m.bits.toNat / 4 * 4

def names (m : StageMask) : List String :=
  (if m.contains (ofStage .vertex) then [stageName .vertex] else []) ++
    (if m.contains (ofStage .fragment) then [stageName .fragment] else []) ++
      (if m.otherBits = 0 then []
       else ["0x" ++ String.ofList (Nat.toDigits 16 m.otherBits)])

def text (m : StageMask) : String := String.intercalate " | " m.names

/-- Read a byte in hexadecimal; a plus sign may stand in front. -/
def byte? (s : List Char) : Option UInt8 :=
  let ds := match s with
    | '+' :: r => r
    | r => r
  if ds = [] then none else ((Json.hex? ds).filter (· < 256)).map UInt8.ofNat

def item? (s : List Char) : Option StageMask :=
  match Text.after? "0x".toList s with
  | some ds => (byte? ds).map (⟨·⟩)
  | none =>
      if s = (stageName .vertex).toList then some (ofStage .vertex)
      else if s = (stageName .fragment).toList then some (ofStage .fragment)
      else none

def ofText? (s : String) : Option StageMask :=
  if Text.trim s.toList = [] then some empty
  else
    ((s.toList.splitOn '|').mapM fun p => item? (Text.trim p)).map
      (·.foldl union empty)

end StageMask

end ShaderChain
