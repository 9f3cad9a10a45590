/-!
TOML values. A table is the list of its entries as they are written, so that a
repeated key can be seen; its style says how it came about. Of floating-point
numbers and dates only the kind is kept.
-/

namespace SelectionCompiler.Toml

/-- A table is written in braces, made by a dotted key, or made by a header. -/
inductive TableStyle where
  | braces
  | dotted
  | header
deriving DecidableEq, Inhabited

inductive Value where
  | string (text : String)
  | integer (value : Int)
  | float
  | boolean (value : Bool)
  | date
  | array (items : List Value)
  | table (style : TableStyle) (entries : List (String × Value))
deriving Inhabited

abbrev Entries := List (String × Value)

namespace Value

def toString? : Value → Option String
  | .string text => some text
  | _ => none

def toInt? : Value → Option Int
  | .integer value => some value
  | _ => none

def toItems? : Value → Option (List Value)
  | .array items => some items
  | _ => none

def toEntries? : Value → Option Entries
  | .table _ entries => some entries
  | _ => none

end Value

namespace Entries

/-- Adds a value under a dotted key. The tables on the way are made by such keys too;
any other value there is in the way. -/
def addDotted (value : Value) : List String → Entries → Option Entries
  | [], _ => none
  | [key], entries => some (entries ++ [(key, value)])
  | key :: path, entries =>
      match entries.span (·.1 != key) with
      | (before, (_, .table .dotted below) :: after) =>
          (addDotted value path below).map fun below =>
            before ++ (key, .table .dotted below) :: after
      | (_, _ :: _) => none
      | (before, []) =>
          (addDotted value path []).map fun below => before ++ [(key, .table .dotted below)]

end Entries

end SelectionCompiler.Toml
