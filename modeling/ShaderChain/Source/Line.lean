import ShaderChain.Source.Digest
import ShaderChain.Stage

/-!
# Lines of an expanded source

An expanded source is a list of lines of three kinds: lines common to all stages,
lines of one stage, and markers. A marker announces the file and the number of the
line behind it, and stands in every stage. `extract` filters the text of one stage
out of the list, and `digest` identifies the whole list.

A line that was read from a file remembers where. A marker and a line that the
expansion adds on its own have no origin.
-/

namespace ShaderChain.Source

inductive LineKind where
  | common
  | stage (s : Stage)
  | marker
  deriving DecidableEq, Repr

/-- Where a line was read: the file, and its number there, from 1. -/
structure Origin where
  path : String
  number : Nat
  deriving DecidableEq, Repr

structure Line where
  text : String
  kind : LineKind
  origin : Option Origin
  deriving DecidableEq, Repr

/-- Whether a line of this kind stands in the stage. -/
def LineKind.isKept (k : LineKind) (s : Stage) : Bool :=
  match k with
  | .common => true
  | .stage t => t = s
  | .marker => true

/-- The kind of a line read while the stage is `s`. -/
def LineKind.ofStage : Option Stage → LineKind
  | none => .common
  | some s => .stage s

def kept (s : Stage) (ls : List Line) : List Line := ls.filter (·.kind.isKept s)

/-- The text of lines, each with a line feed behind it. -/
def textOf : List Line → String
  | [] => ""
  | l :: ls => l.text ++ "\n" ++ textOf ls

def extract (s : Stage) (ls : List Line) : String := textOf (kept s ls)

/-- The bytes of all lines, whatever their kind, each with a line feed behind it. -/
def bytesOf (ls : List Line) : List UInt8 := ls.flatMap fun l => l.text.toUTF8.toList ++ [10]

def digest (ls : List Line) : UInt64 := Digest.ofBytes (bytesOf ls)

/-- The text of a marker for line `number` of a file. -/
def markerText (number : Nat) (path : String) : String :=
  "#line " ++ toString number ++ " \"" ++ path ++ "\""

/-- A marker for line `number` of a file. -/
def Line.marker (number : Nat) (path : String) : Line := ⟨markerText number path, .marker, none⟩

@[simp] theorem kept_nil (s : Stage) : kept s [] = [] := rfl

theorem kept_append (s : Stage) (as bs : List Line) :
    kept s (as ++ bs) = kept s as ++ kept s bs := by
  simp [kept]

@[simp] theorem extract_nil (s : Stage) : extract s [] = "" := rfl

end ShaderChain.Source
