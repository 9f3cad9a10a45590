import SelectionCompiler.CommandLine.Option

/-!
What a command line asks for: one of four commands on a schema file, with a file
of settings at will, which may be named before or after the command. Paths may
not be empty.
-/

namespace SelectionCompiler.CommandLine

inductive Format where
  | rust
  | json
deriving DecidableEq, Inhabited

inductive Command where
  | generate (schema : String) (out : Option String) (format : Format)
  | order (schema : String)
  | render (schema operation : String) (arguments : Option String) (depth : Option Nat)
  | classify (schema : String)
deriving DecidableEq, Inhabited

structure Request where
  config : Option String
  command : Command
deriving DecidableEq, Inhabited

def configOption : OptionName := ⟨some 'c', "config"⟩
def outOption : OptionName := ⟨some 'o', "out"⟩
def formatOption : OptionName := ⟨none, "format"⟩
def argumentsOption : OptionName := ⟨some 'a', "args"⟩
def depthOption : OptionName := ⟨some 'd', "depth"⟩

def path? (text : String) : Option String := if text.isEmpty then none else some text

def format? : String → Option Format
  | "rust" => some .rust
  | "json" => some .json
  | _ => none

/-- A natural number of 64 bits, with a plus sign at will. -/
def depth? (text : String) : Option Nat :=
  let digits := match text.toList with
    | '+' :: rest => rest
    | cs => cs
  if digits.isEmpty || !digits.all Char.isDigit then none
  else
    let n := Nat.ofDigitChars 10 digits 0
    if n < Nat.pow 2 64 then some n else none

/-- The value of an option read by `decode`; an option that is not given is none. -/
def Given.decoded? {α : Type} (g : Given) (o : OptionName) (decode : String → Option α) :
    Option (Option α) :=
  match g.option? o.name with
  | some text => (decode text).map some
  | none => some none

def generate? (g : Given) : Option Command := do
  let out ← g.decoded? outOption path?
  let format ← g.decoded? formatOption format?
  match g.words with
  | [schema] => return .generate (← path? schema) out (format.getD .rust)
  | _ => none

def order? (g : Given) : Option Command :=
  match g.words with
  | [schema] => (path? schema).map .order
  | _ => none

def render? (g : Given) : Option Command := do
  let depth ← g.decoded? depthOption depth?
  match g.words with
  | [schema, operation] =>
      return .render (← path? schema) operation (g.option? argumentsOption.name) depth
  | _ => none

def classify? (g : Given) : Option Command :=
  match g.words with
  | [schema] => (path? schema).map .classify
  | _ => none

/-- The options of a command beside the file of settings, and what is made of them. -/
def command? : String → Option (List OptionName × (Given → Option Command))
  | "generate" => some ([outOption, formatOption], generate?)
  | "order" => some ([], order?)
  | "render" => some ([argumentsOption, depthOption], render?)
  | "classify" => some ([], classify?)
  | _ => none

/-- The request of the words of a command line. Settings named after the command
prevail over settings named before it. -/
def Request.ofWords? (words : List String) : Option Request := do
  let before ← read? [configOption] true words
  let outer ← before.decoded? configOption path?
  match before.words with
  | [] => none
  | name :: rest =>
      let (options, build) ← command? name
      let given ← read? (configOption :: options) false rest
      let inner ← given.decoded? configOption path?
      return ⟨inner.or outer, ← build given⟩

end SelectionCompiler.CommandLine
