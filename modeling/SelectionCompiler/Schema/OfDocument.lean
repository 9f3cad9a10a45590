import SelectionCompiler.Sdl.Parser

/-!
The schema of a document. Type definitions are added in the order of the text,
then extensions of objects and interfaces append their fields to the types they
name, wherever they stand. The last schema definition names the operation types;
without one they are the types called `Query` and `Mutation`, if there are such
types.
-/

namespace SelectionCompiler

namespace Sdl

def Field.toFieldDef (f : Field) : FieldDef := ⟨f.name, some f.type, f.arguments⟩

/-- The kind of type that a body defines. -/
def Body.kind : Body → TypeKind
  | .object _ | .interface _ | .union => .composite
  | .scalar => .scalar
  | .enumeration => .enumeration
  | .input => .input

/-- The fields to select; no other body than an object's or an interface's has any. -/
def Body.fields : Body → List FieldDef
  | .object fields | .interface fields => fields.map Field.toFieldDef
  | _ => []

/-- Whether an extension with this body changes the type that it names. -/
def Body.extends? : Body → Bool
  | .object _ | .interface _ => true
  | _ => false

def Body.toTypeDef (name : String) (body : Body) : TypeDef :=
  (TypeDef.bare name body.kind).addFields body.fields

end Sdl

namespace Schema

open Sdl

/-- Adds the type that a definition defines, if it defines one. -/
def define (schema : Schema) : Definition → Schema
  | .type name body => schema.addType (body.toTypeDef name)
  | _ => schema

/-- Appends the fields of an extension to the type it names; an extension of a type
that is not there has no effect. -/
def extend (schema : Schema) : Definition → Schema
  | .extension name body =>
      match schema.get? name with
      | some type => if body.extends? then schema.addType (type.addFields body.fields) else schema
      | none => schema
  | _ => schema

/-- The operation types that a document names, the last schema definition deciding. -/
def declaredRoots? (document : Document) : Option Roots :=
  document.foldl (fun found d => match d with
    | .roots roots => some roots
    | _ => found) none

/-- The operation types by their customary names. -/
def customaryRoots (schema : Schema) : Roots :=
  ⟨(schema.get? "Query").map (·.name), (schema.get? "Mutation").map (·.name)⟩

def ofDocument (document : Document) : Schema :=
  let schema := document.foldl extend (document.foldl define builtin)
  let roots := (declaredRoots? document).getD schema.customaryRoots
  (schema.setQueryType roots.query).setMutationType roots.mutation

/-- The schema of a text in the schema definition language. -/
def ofSdl? (text : String) : Option Schema := (Document.ofText? text).map ofDocument

end Schema

end SelectionCompiler
