import ShaderChain.Text.Space

/-!
# Directives

A line is a directive when it starts, behind space, with one of six keywords as a
whole word. What follows the keyword is its argument. Every other line is text.
-/

namespace ShaderChain.Source

inductive Directive where
  | inclusion (argument : List Char)
  | name (argument : List Char)
  | format (argument : List Char)
  | parameter (argument : List Char)
  | stage (argument : List Char)
  | endif
  | text
  deriving DecidableEq, Repr

namespace Directive

/-- What follows the keyword, if the line starts with it as a whole word. -/
def argument? (keyword line : List Char) : Option (List Char) :=
  (Text.after? keyword line).filter fun rest => rest.head?.all Text.isSpace

/-- The keywords, each with the directive it makes of its argument. -/
def keywords : List (List Char × (List Char → Directive)) :=
  [("#include".toList, inclusion), ("#pragma name".toList, name),
    ("#pragma format".toList, format), ("#pragma parameter".toList, parameter),
    ("#pragma stage".toList, stage), ("#endif".toList, fun _ => endif)]

def ofLine (line : List Char) : Directive :=
  let s := Text.trimStart line
  (keywords.findSome? fun k => (argument? k.1 s).map k.2).getD text

/-- The path in quotes that an argument starts with, if it is not empty. -/
def quotedPath? (argument : List Char) : Option (List Char) :=
  match Text.trimStart argument with
  | '"' :: s => ((Text.cutAt? (· == '"') s).map (·.1)).filter (· ≠ [])
  | _ => none

end Directive

end ShaderChain.Source
