import SelectionCompiler.Json.Basic

/-!
Reading typed values off JSON values. A record is an object with known members;
members with other names are passed over. A member is required, or optional
(absent or null stands for none), or has a default (only when absent). Only objects
are records: there is no positional form, and an array of the values of the members
in their order is refused like any other array.
-/

namespace SelectionCompiler.Json

/-- The bound of the natural numbers that a typed value can hold. -/
def natBound : Nat := Nat.pow 2 64

def toString? : Json → Option String
  | .str s => some s
  | _ => none

/-- A natural number below `natBound`, written as an integer. -/
def toNat? : Json → Option Nat
  | .num (.int n) => if 0 ≤ n && n < natBound then some n.toNat else none
  | _ => none

def toMembers? : Json → Option (List (String × Json))
  | .obj members => some members
  | _ => none

def toItems? : Json → Option (List Json)
  | .arr items => some items
  | _ => none

/-- The list of a JSON array, each item read by `decode`. -/
def toList? {α : Type} (decode : Json → Option α) (v : Json) : Option (List α) :=
  v.toItems?.bind (·.mapM decode)

/-- The member of an object with the given key. -/
def member? (v : Json) (key : String) : Option Json :=
  match v with
  | .obj members => members.lookup key
  | _ => none

def isNull : Json → Bool
  | .null => true
  | _ => false

/-- The name of a case without contents: a string, or the key of an object whose one
member is null. -/
def toCase? : Json → Option String
  | .str name => some name
  | .obj [(name, .null)] => some name
  | _ => none

def required {α : Type} (v : Json) (key : String) (decode : Json → Option α) : Option α :=
  (v.member? key).bind decode

def optional {α : Type} (v : Json) (key : String) (decode : Json → Option α) :
    Option (Option α) :=
  match v.member? key with
  | none => some none
  | some .null => some none
  | some w => (decode w).map some

def defaulted {α : Type} (v : Json) (key : String) (default : α) (decode : Json → Option α) :
    Option α :=
  match v.member? key with
  | none => some default
  | some w => decode w

end SelectionCompiler.Json
