import SelectionCompiler.Schema.Basic

/-!
Schema documents: definitions in the order of the text. Of a definition a
document keeps what a schema is made from; descriptions, directives, default
values, enum values, union members and input fields are left out.
-/

namespace SelectionCompiler.Sdl

/-- A field as it is written, always with a type. -/
structure Field where
  name : String
  arguments : List ArgumentDef
  type : TypeRef
deriving DecidableEq, Inhabited

/-- What a type definition, or an extension of a type, is about. -/
inductive Body where
  | scalar
  | object (fields : List Field)
  | interface (fields : List Field)
  | union
  | enumeration
  | input
deriving DecidableEq, Inhabited

/-- The operation types that a schema definition names. -/
structure Roots where
  query : Option String
  mutation : Option String
deriving DecidableEq, Inhabited

inductive Definition where
  | roots (roots : Roots)
  | type (name : String) (body : Body)
  | extension (name : String) (body : Body)
  | directive
deriving DecidableEq, Inhabited

abbrev Document := List Definition

end SelectionCompiler.Sdl
