import SelectionCompiler.Text.CaseForm
import SelectionCompiler.Text.CharClass

/-!
Names as words. A name falls into words at every character that is no letter or
digit, which is dropped, and inside what remains at changes of case: after a
lowercase character that an uppercase one follows, and before the last of
several uppercase characters when a lowercase one follows it. The casings put
the words together again.
-/

namespace SelectionCompiler.Text

/-- The case of the last character of the current word that has one. -/
inductive WordCase where
  | none
  | lower
  | upper
deriving DecidableEq

/-- The case after one more character. -/
def WordCase.after (before : WordCase) (c : Char) : WordCase :=
  if isLowercase c then .lower else if isUppercase c then .upper else before

/-- The words of a run of letters and digits; `word` holds the characters of the
current word, last one first, and `before` its case. -/
def splitRun (before : WordCase) (word : List Char) : List Char → List (List Char)
  | [] => []
  | [c] => [(c :: word).reverse]
  | c :: next :: rest =>
      if before.after c = .lower && isUppercase next then
        (c :: word).reverse :: splitRun .none [] (next :: rest)
      else if before = .upper && isUppercase c && isLowercase next then
        word.reverse :: splitRun .none [c] (next :: rest)
      else splitRun (before.after c) (c :: word) (next :: rest)

/-- The longest stretches of letters and digits, some of them empty; `run` holds the
current one, last character first. -/
def runs (run : List Char) : List Char → List (List Char)
  | [] => [run.reverse]
  | c :: rest => if isAlphanumeric c then runs (c :: run) rest else run.reverse :: runs [] rest

def words (name : String) : List (List Char) := (runs [] name.toList).flatMap (splitRun .none [])

/-! ## Casings -/

/-- In lower case a sigma at the end of the word has a form of its own. -/
def lowerWord : List Char → List Char
  | [] => []
  | [c] => if c = 'Σ' then ['ς'] else lowerForm c
  | c :: rest => lowerForm c ++ lowerWord rest

def upperWord (word : List Char) : List Char := word.flatMap upperForm

/-- The first character in upper case and the others in lower case. -/
def capitalWord : List Char → List Char
  | [] => []
  | c :: rest => upperForm c ++ lowerWord rest

/-- Every word capitalized: `user_profile` becomes `UserProfile`. -/
def pascalCase (name : String) : String := String.ofList ((words name).flatMap capitalWord)

/-- Every word but the first capitalized: `user_profile` becomes `userProfile`. -/
def camelCase (name : String) : String :=
  match words name with
  | [] => ""
  | first :: rest => String.ofList (lowerWord first ++ rest.flatMap capitalWord)

/-- Words in lower case with underscores between them: `UserProfile` becomes
`user_profile`. -/
def snakeCase (name : String) : String :=
  "_".intercalate ((words name).map fun w => String.ofList (lowerWord w))

/-- Words in upper case with underscores between them: `UserProfile` becomes
`USER_PROFILE`. -/
def shoutingCase (name : String) : String :=
  "_".intercalate ((words name).map fun w => String.ofList (upperWord w))

end SelectionCompiler.Text
