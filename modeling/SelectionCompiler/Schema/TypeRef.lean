/-!
References to types: a name, wrapped in any number of list and non-null markers.
The text of a reference puts a list in brackets and a mark of exclamation after
what may not be null.
-/

namespace SelectionCompiler

inductive TypeRef where
  | named (name : String)
  | list (item : TypeRef)
  | nonNull (inner : TypeRef)
deriving DecidableEq, Inhabited

namespace TypeRef

/-- The name below all wrappers. -/
def target : TypeRef → String
  | .named name => name
  | .list item => item.target
  | .nonNull inner => inner.target

def text : TypeRef → String
  | .named name => name
  | .list item => "[" ++ item.text ++ "]"
  | .nonNull inner => inner.text ++ "!"

end TypeRef

end SelectionCompiler
