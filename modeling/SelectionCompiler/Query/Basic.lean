import SelectionCompiler.Query.Arguments
import SelectionCompiler.Selection.Basic

/-!
The text of queries: a root field with its argument clause and its selection in
braces, or a named operation whose argument values travel beside the text as
variables. A reference that has not been resolved leaves nothing in the text.
-/

namespace SelectionCompiler

namespace Element

mutual

def text : Element → String
  | .field name => name
  | .nested name children => name ++ " \x7b " ++ listText children ++ " \x7d"
  | .reference _ _ => ""

/-- The elements with blanks between them. -/
def listText : List Element → String
  | [] => ""
  | [e] => e.text
  | e :: rest => e.text ++ " " ++ listText rest

end

end Element

namespace Selection

def fieldsText (s : Selection) : String := Element.listText s

/-- The selection in braces, which stay apart even when it is empty. -/
def braces (s : Selection) : String := "\x7b " ++ s.fieldsText ++ " \x7d"

end Selection

/-- The query that calls one root field. -/
def queryText (c : Classification) (root : String) (selection : Selection)
    (arguments : Arguments) : String :=
  "\x7b" ++ root ++ arguments.clause c ++ " " ++ selection.braces ++ " \x7d"

/-- An operation with a name, declared variables and values for them. -/
structure NamedOperation where
  kind : OperationKind
  name : String
  root : String
  selection : Selection
  variableTypes : OrdMap String
  variableValues : Arguments

/-- What is sent for an operation. -/
structure Request where
  query : String
  variableValues : List (String × Json)

namespace NamedOperation

def declarations (op : NamedOperation) : List String :=
  op.variableTypes.toList.map fun e => "$" ++ e.1 ++ ": " ++ e.2

/-- The call passes on each variable that has a value. -/
def callArguments (op : NamedOperation) : List String :=
  op.variableValues.present.map fun e => e.1 ++ ": $" ++ e.1

def text (op : NamedOperation) : String :=
  op.kind.keyword ++ " " ++ op.name ++ parenthesized ", " op.declarations
    ++ " \x7b " ++ op.root ++ parenthesized ", " op.callArguments
    ++ " " ++ op.selection.braces ++ " \x7d"

def request (op : NamedOperation) : Request := ⟨op.text, op.variableValues.present⟩

end NamedOperation

namespace Request

def toJson (r : Request) : Json :=
  .obj [("query", .str r.query), ("variables", .obj r.variableValues)]

end Request

end SelectionCompiler
