import SelectionCompiler.Json.Token

/-!
Reading JSON texts. The grammar is the strict one: one value, nothing before or
after it but blanks, no comma before a closing bracket, and containers nested no
deeper than `maxNesting`. `raw?` keeps every member of an object as written;
`parse?` merges repeated keys.
-/

namespace SelectionCompiler.Json

/-! The readers take fuel, which bounds the depth of their calls: each token is the
cause of two calls at most. The number after it is how many containers may still
be opened inside one another. -/

mutual

def readValue : Nat → Nat → List Token → Option (Json × List Token)
  | 0, _, _ => none
  | fuel + 1, room, tokens =>
      match tokens with
      | .null :: rest => some (.null, rest)
      | .bool b :: rest => some (.bool b, rest)
      | .num n :: rest => some (.num n, rest)
      | .str s :: rest => some (.str s, rest)
      | .openBracket :: rest =>
          match room, rest with
          | 0, _ => none
          | _ + 1, .closeBracket :: rest => some (.arr [], rest)
          | room + 1, rest => (readItems fuel room rest).map fun (items, rest) => (.arr items, rest)
      | .openBrace :: rest =>
          match room, rest with
          | 0, _ => none
          | _ + 1, .closeBrace :: rest => some (.obj [], rest)
          | room + 1, rest =>
              (readMembers fuel room rest).map fun (members, rest) => (.obj members, rest)
      | _ => none

/-- One item or more, up to the closing bracket. -/
def readItems : Nat → Nat → List Token → Option (List Json × List Token)
  | 0, _, _ => none
  | fuel + 1, room, tokens =>
      match readValue fuel room tokens with
      | some (v, .closeBracket :: rest) => some ([v], rest)
      | some (v, .comma :: rest) =>
          (readItems fuel room rest).map fun (items, rest) => (v :: items, rest)
      | _ => none

/-- One member or more, up to the closing brace. -/
def readMembers : Nat → Nat → List Token → Option (List (String × Json) × List Token)
  | 0, _, _ => none
  | fuel + 1, room, tokens =>
      match tokens with
      | .str key :: .colon :: rest =>
          match readValue fuel room rest with
          | some (v, .closeBrace :: rest) => some ([(key, v)], rest)
          | some (v, .comma :: rest) =>
              (readMembers fuel room rest).map fun (members, rest) => ((key, v) :: members, rest)
          | _ => none
      | _ => none

end

/-- The value that a list of tokens spells from end to end. -/
def ofTokens? (tokens : List Token) : Option Json :=
  match readValue (2 * tokens.length) maxNesting tokens with
  | some (v, []) => some v
  | _ => none

/-- The value of a text, with the members of its objects as they are written. -/
def raw? (text : String) : Option Json := (Token.ofText? text.toList).bind ofTokens?

/-- The value of a text, with repeated keys merged. -/
def parse? (text : String) : Option Json := (raw? text).map merged

end SelectionCompiler.Json
