import SelectionCompiler.OrdMap
import SelectionCompiler.Text.Quoted
import SelectionCompiler.Text.Words

/-!
How types are called in generated code. An explicit rename of a type decides;
next comes a custom function, if there is one, and last the casing policy.
-/

namespace SelectionCompiler

inductive NamingPolicy where
  | keep
  | pascal
  | camel
  | snake
deriving DecidableEq

namespace NamingPolicy

instance : Inhabited NamingPolicy := ⟨pascal⟩

def apply : NamingPolicy → String → String
  | .keep, name => name
  | .pascal, name => Text.pascalCase name
  | .camel, name => Text.camelCase name
  | .snake, name => Text.snakeCase name

def text : NamingPolicy → String
  | .keep => "keep"
  | .pascal => "pascal"
  | .camel => "camel"
  | .snake => "snake"

def ofText? : String → Option NamingPolicy
  | "keep" => some .keep
  | "pascal" => some .pascal
  | "camel" => some .camel
  | "snake" => some .snake
  | _ => none

end NamingPolicy

structure Naming where
  policy : NamingPolicy
  renames : OrdMap String
  custom : Option (String → String)

namespace Naming

instance : Inhabited Naming := ⟨⟨default, ∅, none⟩⟩

/-- The name of a type in generated code. -/
def render (n : Naming) (name : String) : String :=
  match n.renames.get? name with
  | some renamed => renamed
  | none =>
      match n.custom with
      | some f => f name
      | none => n.policy.apply name

/-- The name of the table with the fields of a type. -/
def tableName (n : Naming) (name : String) : String := n.render name ++ "Map"

/-- A description for people: the policy, the renames, and whether there is a custom
function. -/
def describe (n : Naming) : String :=
  let renames := n.renames.toList.map fun e => Text.quoted e.1 ++ ": " ++ Text.quoted e.2
  "Naming \x7b policy: " ++ Text.pascalCase n.policy.text
    ++ ", renames: \x7b" ++ ", ".intercalate renames
    ++ "\x7d, custom: " ++ (if n.custom.isSome then "true" else "false") ++ " \x7d"

end Naming

end SelectionCompiler
