import SelectionCompiler.Classification
import SelectionCompiler.Json.Printer

/-!
Argument clauses of queries. Each argument is written by its style: a flag as a
bare token, or as a bracketed list of tokens; an enum as a bare token, the items
of a list being put one after the other; any other argument as a literal in
which strings are quoted and the keys of objects are not.
-/

namespace SelectionCompiler

/-- Argument values in the order of the call. An argument without a value is absent
and is not written, unlike one whose value is null. -/
abbrev Arguments := OrdMap (Option Json)

namespace Json

mutual

/-- The value as a literal. -/
def literal : Json → String
  | .arr items => "[" ++ literalItems items ++ "]"
  | .obj members => "\x7b" ++ literalMembers members ++ "\x7d"
  | .null => compact .null
  | .bool b => compact (.bool b)
  | .num n => compact (.num n)
  | .str s => compact (.str s)

def literalItems : List Json → String
  | [] => ""
  | [v] => v.literal
  | v :: rest => v.literal ++ "," ++ literalItems rest

def literalMembers : List (String × Json) → String
  | [] => ""
  | [(key, v)] => key ++ ":" ++ v.literal
  | (key, v) :: rest => key ++ ":" ++ v.literal ++ "," ++ literalMembers rest

end

mutual

/-- The value with strings as bare tokens; lists are put in brackets on demand. -/
def token (bracketed : Bool) : Json → String
  | .str s => s
  | .arr items =>
      if bracketed then "[" ++ tokenItems bracketed items ++ "]" else tokenItems bracketed items
  | .obj members => literal (.obj members)
  | .null => compact .null
  | .bool b => compact (.bool b)
  | .num n => compact (.num n)

def tokenItems (bracketed : Bool) : List Json → String
  | [] => ""
  | [v] => v.token bracketed
  | v :: rest => v.token bracketed ++ "," ++ tokenItems bracketed rest

end

end Json

namespace ArgumentStyle

/-- The text of a value in a style. -/
def render : ArgumentStyle → Json → String
  | .flag, v => v.token true
  | .enumeration, v => v.token false
  | .plain, v => v.literal

end ArgumentStyle

/-- The parts in parentheses, or nothing if there are none. -/
def parenthesized (separator : String) (parts : List String) : String :=
  if parts.isEmpty then "" else "(" ++ separator.intercalate parts ++ ")"

namespace Arguments

/-- The arguments of a JSON object; any other value has none. -/
def ofJson : Json → Arguments
  | .obj members => .ofList (members.map fun m => (m.1, some m.2))
  | _ => ∅

/-- The arguments that have a value, in the order of the call. -/
def present (arguments : Arguments) : List (String × Json) :=
  arguments.toList.filterMap fun e => e.2.map fun v => (e.1, v)

/-- The argument clause of a call. -/
def clause (arguments : Arguments) (c : Classification) : String :=
  parenthesized " " (arguments.present.map fun e => e.1 ++ ":" ++ (c.styleOf e.1).render e.2)

end Arguments

end SelectionCompiler
