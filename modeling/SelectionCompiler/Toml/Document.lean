import SelectionCompiler.Toml.Parser

/-!
The table that a TOML text describes. Sections whose headers begin alike belong to
one table, in whatever order they come. A table may be given its entries by one
header only. Headers of an array of tables each begin an item, to which the
sections below them belong up to the next such header; no other header may name
the array, or have named a table in it before.
-/

namespace SelectionCompiler.Toml

namespace Section

/-- The name at the given place of the header's path. -/
def nameAt? (depth : Nat) (s : Section) : Option String := s.path[depth]?

end Section

/-- The names at the given place of the sections' paths, in order of first use. -/
def namesAt (depth : Nat) (sections : List Section) : List String :=
  (sections.filterMap (·.nameAt? depth)).foldl
    (fun names name => if names.contains name then names else names ++ [name]) []

/-- Cuts a list before each member that satisfies `p`. -/
def cutBefore {α : Type} (p : α → Bool) : List α → List (List α)
  | [] => []
  | x :: rest =>
      match cutBefore p rest with
      | [] => [[x]]
      | (y :: group) :: groups =>
          if p y then [x] :: (y :: group) :: groups else (x :: y :: group) :: groups
      | [] :: groups => [x] :: groups

/-- The entries of the table that the sections make together, which agree in the
first `depth` names of their headers. The fuel bounds the depth. -/
def tableOf? : Nat → Nat → List Section → Option Entries
  | 0, _, _ => none
  | fuel + 1, depth, sections => do
      let own := sections.filter (·.path.length = depth)
      let below := sections.filter (depth < ·.path.length)
      if 1 < own.length || own.any (·.array) then none
      else
        let tables ← (namesAt depth below).mapM fun name => do
          let group := below.filter (·.nameAt? depth = some name)
          let isItem (s : Section) := s.array && s.path.length = depth + 1
          if (group.head?.map isItem).getD false then
            let items ← (cutBefore isItem group).mapM fun chunk =>
              let chunk := match chunk with
                | first :: rest => { first with array := false } :: rest
                | [] => []
              (tableOf? fuel (depth + 1) chunk).map (.table .header)
            return (name, Value.array items)
          else
            let entries ← tableOf? fuel (depth + 1) group
            return (name, Value.table .header entries)
        return own.flatMap (·.entries) ++ tables

/-- The entries of the table that a text describes. -/
def parse? (text : String) : Option Entries := do
  let sections ← sections? text
  tableOf? ((sections.map (·.path.length)).foldl max 0 + 1) 0 sections

end SelectionCompiler.Toml
