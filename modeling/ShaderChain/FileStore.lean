import ShaderChain.Path

/-!
# File stores

A store holds the texts of files under their normalized paths, so that every
spelling of a path finds the same file. Registering a file again replaces its
text.
-/

namespace ShaderChain

/-- Files by normalized path, the last registered one first. -/
structure FileStore where
  files : List (String × String)
  deriving DecidableEq, Repr

inductive LoadError where
  | notRegistered (path : String)
  deriving DecidableEq, Repr

def LoadError.message : LoadError → String
  | notRegistered path => path ++ " is not registered"

namespace FileStore

def empty : FileStore := ⟨[]⟩

def size (s : FileStore) : Nat := s.files.length

def insert (s : FileStore) (path text : String) : FileStore :=
  let path := Path.normalize path
  ⟨(path, text) :: s.files.filter (·.1 != path)⟩

def ofList (files : List (String × String)) : FileStore :=
  files.foldl (fun s (path, text) => s.insert path text) empty

/-- The text of a file, if it is registered. -/
def get? (s : FileStore) (path : String) : Option String := s.files.lookup (Path.normalize path)

/-- The text of a file. The error names the path as it was asked for. -/
def load (s : FileStore) (path : String) : Except LoadError String :=
  match s.get? path with
  | some text => .ok text
  | none => .error (.notRegistered path)

@[simp] theorem get?_empty (path : String) : empty.get? path = none := rfl

theorem get?_insert_self (s : FileStore) (path text : String) :
    (s.insert path text).get? path = some text := by
  simp [insert, get?]

theorem load_eq_ok_iff {s : FileStore} {path text : String} :
    s.load path = .ok text ↔ s.get? path = some text := by
  unfold load
  cases s.get? path <;> simp

end FileStore

end ShaderChain
