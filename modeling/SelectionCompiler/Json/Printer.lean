import SelectionCompiler.Json.Number
import SelectionCompiler.Json.Quoted

/-!
Writing JSON texts: `compact` without any blanks, and `pretty` with one item or
member a line, two blanks of indentation for each container around it, a blank
after the colon, and empty containers closed at once.
-/

namespace SelectionCompiler.Json

def quote (s : String) : String := String.ofList (Quoted.encode s.toList)

def boolText (b : Bool) : String := if b then "true" else "false"

def numberText (n : Number) : String := String.ofList n.text

mutual

def compact : Json → String
  | .null => "null"
  | .bool b => boolText b
  | .num n => numberText n
  | .str s => quote s
  | .arr items => "[" ++ compactItems items ++ "]"
  | .obj members => "\x7b" ++ compactMembers members ++ "\x7d"

def compactItems : List Json → String
  | [] => ""
  | [v] => v.compact
  | v :: rest => v.compact ++ "," ++ compactItems rest

def compactMembers : List (String × Json) → String
  | [] => ""
  | [(key, v)] => quote key ++ ":" ++ v.compact
  | (key, v) :: rest => quote key ++ ":" ++ v.compact ++ "," ++ compactMembers rest

end

/-- A line end followed by the indentation of the given level. -/
def newline (level : Nat) : String := "\n" ++ "".pushn ' ' (2 * level)

mutual

/-- The pretty text of a value that stands inside `level` containers. -/
def prettyAt (level : Nat) : Json → String
  | .null => "null"
  | .bool b => boolText b
  | .num n => numberText n
  | .str s => quote s
  | .arr items =>
      if items.isEmpty then "[]" else "[" ++ prettyItems (level + 1) items ++ newline level ++ "]"
  | .obj members =>
      if members.isEmpty then "\x7b\x7d"
      else "\x7b" ++ prettyMembers (level + 1) members ++ newline level ++ "\x7d"

def prettyItems (level : Nat) : List Json → String
  | [] => ""
  | [v] => newline level ++ v.prettyAt level
  | v :: rest => newline level ++ v.prettyAt level ++ "," ++ prettyItems level rest

def prettyMembers (level : Nat) : List (String × Json) → String
  | [] => ""
  | [(key, v)] => newline level ++ quote key ++ ": " ++ v.prettyAt level
  | (key, v) :: rest =>
      newline level ++ quote key ++ ": " ++ v.prettyAt level ++ "," ++ prettyMembers level rest

end

def pretty (v : Json) : String := v.prettyAt 0

end SelectionCompiler.Json
