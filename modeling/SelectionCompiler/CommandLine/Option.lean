/-!
Options of command lines. Every option takes a value: the rest of its word, after
an equals sign or, behind a single dash and a letter, at once; or else the next
word, unless that looks like an option. Two dashes alone end the options. An
option may be given once.
-/

namespace SelectionCompiler.CommandLine

/-- An option by its letter and its name. -/
structure OptionName where
  letter : Option Char
  name : String
deriving DecidableEq, Inhabited

/-- A word of a command line by its form. -/
inductive Word where
  | ending
  | long (name : String) (value : Option String)
  | short (letter : Char) (value : Option String)
  | plain (text : String)

/-- The value attached to the letter of an option. -/
def attachedValue : List Char → Option String
  | [] => none
  | '=' :: rest => some (String.ofList rest)
  | rest => some (String.ofList rest)

def Word.ofText (text : String) : Word :=
  match text.toList with
  | ['-', '-'] => .ending
  | '-' :: '-' :: rest =>
      let name := rest.takeWhile (· != '=')
      let value := rest.drop name.length
      .long (String.ofList name) (match value with
        | _ :: value => some (String.ofList value)
        | [] => none)
  | '-' :: letter :: rest => .short letter (attachedValue rest)
  | _ => .plain text

/-- What a command line gives: values of options by their names, and other words. -/
structure Given where
  options : List (String × String)
  words : List String

namespace Given

def empty : Given := ⟨[], []⟩

/-- Adds the value of an option, unless it has one. -/
def addOption (name value : String) (g : Given) : Option Given :=
  if (g.options.lookup name).isSome then none
  else some { g with options := (name, value) :: g.options }

def addWord (word : String) (g : Given) : Given := { g with words := word :: g.words }

def option? (g : Given) (name : String) : Option String := g.options.lookup name

end Given

/-- Reads words with the given options. With `leading` it stops in front of the first
word that is no option, and the result has the words from there on. -/
def read? (known : List OptionName) (leading : Bool) : List String → Option Given
  | [] => some .empty
  | text :: rest =>
      let withValue (o : Option OptionName) (value : Option String) : Option Given :=
        match o, value, rest with
        | none, _, _ => none
        | some o, some value, rest => (read? known leading rest).bind (·.addOption o.name value)
        | some o, none, next :: rest =>
            match Word.ofText next with
            | .plain value => (read? known leading rest).bind (·.addOption o.name value)
            | _ => none
        | some _, none, [] => none
      match Word.ofText text with
      | .ending => if leading then none else some ⟨[], rest⟩
      | .long name value => withValue (known.find? (·.name == name)) value
      | .short letter value => withValue (known.find? (·.letter == some letter)) value
      | .plain text =>
          if leading then some ⟨[], text :: rest⟩
          else (read? known leading rest).map (·.addWord text)

end SelectionCompiler.CommandLine
