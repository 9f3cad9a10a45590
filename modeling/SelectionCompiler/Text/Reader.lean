/-!
Readers of token lists. A reader takes tokens from the front of what is left, or
refuses; it never looks further ahead than one token unless it takes them.
Repetitions are bounded by the number of tokens left, since every item takes one.
-/

namespace SelectionCompiler

abbrev Reader (τ : Type) := StateT (List τ) Option

namespace Reader

variable {τ α : Type}

def refuse : Reader τ α := fun _ => none

/-- The token in front, which stays there. -/
def peek : Reader τ (Option τ) := do return (← get).head?

/-- Takes the token in front. -/
def next : Reader τ τ := fun tokens =>
  match tokens with
  | [] => none
  | t :: rest => some (t, rest)

def atEnd : Reader τ Bool := do return (← get).isEmpty

/-- More than the number of items that can still follow. -/
def bound : Reader τ Nat := do return (← get).length + 1

variable [DecidableEq τ]

/-- Takes the token in front if it is `t`, and says whether it did. -/
def accept (t : τ) : Reader τ Bool := do
  if (← peek) = some t then
    let _ ← next
    return true
  else return false

def expect (t : τ) : Reader τ Unit := do
  unless ← accept t do refuse

def itemsUntil (close : τ) (item : Reader τ α) : Nat → Reader τ (List α)
  | 0 => refuse
  | fuel + 1 => do
      if ← accept close then return []
      else
        let x ← item
        return x :: (← itemsUntil close item fuel)

/-- The items up to the closing token, which is taken too. -/
def untilClose (close : τ) (item : Reader τ α) : Reader τ (List α) := do
  itemsUntil close item (← bound)

/-- One item or more up to the closing token. -/
def someUntilClose (close : τ) (item : Reader τ α) : Reader τ (List α) := do
  let x ← item
  return x :: (← untilClose close item)

def itemsAfter (separator : τ) (item : Reader τ α) : Nat → Reader τ (List α)
  | 0 => refuse
  | fuel + 1 => do
      if ← accept separator then
        let x ← item
        return x :: (← itemsAfter separator item fuel)
      else return []

/-- The items that follow separators, one after each. -/
def eachAfter (separator : τ) (item : Reader τ α) : Reader τ (List α) := do
  itemsAfter separator item (← bound)

/-- One item or more with a separator between them. -/
def separated (separator : τ) (item : Reader τ α) : Reader τ (List α) := do
  let x ← item
  return x :: (← eachAfter separator item)

end Reader

end SelectionCompiler
