import ShaderChain.Single.Decimal
import ShaderChain.Text.Pieces

/-!
# Parameter declarations

A source declares a parameter by a name, a description in quotes, and three or
four numbers: its initial value, its bounds, and the step between its values. A
step that is not given is a tenth of the range.
-/

namespace ShaderChain

structure Declaration where
  name : String
  description : String
  initial : Single
  minimum : Single
  maximum : Single
  step : Single
  deriving DecidableEq, Repr

namespace Declaration

/-- Whether two declarations declare the same, number by number: a declaration
with a NaN agrees with none. -/
def agrees (a b : Declaration) : Bool :=
  a.name == b.name && a.description == b.description && a.initial.numEq b.initial &&
    a.minimum.numEq b.minimum && a.maximum.numEq b.maximum && a.step.numEq b.step

/-- Take one more declaration behind those of `ds`. A name that `ds` declares must be
declared alike, and then nothing is added. -/
def add? (ds : List Declaration) (d : Declaration) : Option (List Declaration) :=
  match ds.find? (·.name == d.name) with
  | none => some (ds ++ [d])
  | some first => if first.agrees d then some ds else none

/-- The declaration with the given parts, if there are three or four numbers. -/
def ofNumbers? (name description : List Char) : List Single → Option Declaration
  | [initial, minimum, maximum] =>
      some ⟨String.ofList name, String.ofList description, initial, minimum, maximum,
        Single.tenth * (maximum - minimum)⟩
  | [initial, minimum, maximum, step] =>
      some ⟨String.ofList name, String.ofList description, initial, minimum, maximum, step⟩
  | _ => none

/-- Read the numbers of a text, if all its words are numbers. -/
def numbers? (s : List Char) : Option (List Single) := (Text.words s).mapM Single.read?

/-- Read a description in quotes and the text behind it. -/
def description? (s : List Char) : Option (List Char × List Char) :=
  match Text.trimStart s with
  | '"' :: r => (Text.cutAt? (· == '"') r).map fun (d, rest) => (d, rest.tail)
  | _ => none

/-- Read a declaration: the name runs to the first space. -/
def read? (s : List Char) : Option Declaration := do
  let (name, rest) ← Text.cutAt? Text.isSpace (Text.trimStart s)
  let (description, rest) ← description? rest
  ofNumbers? name description (← numbers? rest)

end Declaration

end ShaderChain
