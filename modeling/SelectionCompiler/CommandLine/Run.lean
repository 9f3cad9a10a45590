import SelectionCompiler.CommandLine.Request
import SelectionCompiler.Compilation.Basic
import SelectionCompiler.Config.OfToml
import SelectionCompiler.Query.Basic
import SelectionCompiler.Schema.Load
import SelectionCompiler.StaticModule.OfCompilation

/-!
Carrying out requests. Settings are read first, then the schema; an operation is
looked up before its arguments are read. A request ends with a code and the texts
for the two standard streams.
-/

namespace SelectionCompiler.CommandLine

/-- How a command line has ended. Without an error text there is a message about the
usage, which is not part of the outcome. -/
structure Outcome where
  code : Nat
  output : String
  error : Option String
deriving DecidableEq, Inhabited

/-- Why a request is not carried out. -/
inductive Refusal where
  | failure (f : Failure)
  | schema (path : String)
  | arguments
deriving DecidableEq, Inhabited

namespace Refusal

def message : Refusal → String
  | .failure f => f.message
  | .schema path => "loading schema " ++ path
  | .arguments => "--args must be a JSON object"

/-- The text for the error stream; what is wrong with settings is left out, and with
it the end of the line. -/
def text (r : Refusal) : String :=
  "Error: " ++ r.message ++ match r with
    | .failure (.config _) => ""
    | _ => "\n"

end Refusal

/-- What a request that is carried out writes to the two streams. -/
structure Texts where
  output : String
  error : String

def lines (xs : List String) : String := String.join (xs.map (· ++ "\n"))

/-- The text of a compilation in a format. -/
def Format.text (format : Format) (config : Config) (c : Compilation) : String :=
  match format with
  | .rust => (c.staticModule config.naming config).text
  | .json => c.toJson.pretty

def classificationText (c : Classification) : String :=
  lines (["Flags:"] ++ c.flags.toList.map ("  " ++ ·)
    ++ ["Enums:"] ++ c.enums.toList.map ("  " ++ ·))

/-- The arguments of a JSON text; none without a text. -/
def arguments (text : Option String) : Except Refusal Arguments :=
  match text with
  | none => .ok ∅
  | some text =>
      match Json.parse? text with
      | some v => .ok (.ofJson v)
      | none => .error .arguments

/-- The query for an operation of a schema, at the depth of the root unless another
one is given. -/
def query (schema : Schema) (config : Config) (operation : String) (args : Option String)
    (depth : Option Nat) : Except Refusal String := do
  let compilation := schema.compile config
  match compilation.root? operation with
  | none => throw (.failure (.unknownOperation operation))
  | some root =>
      let selection := compilation.resolve root.selection (depth.getD root.depth)
      return queryText (schema.classify config.extraFlags) operation selection (← arguments args)

section

variable {m : Type → Type} [Monad m]

def loadConfig (disk : Disk m) (path : Option String) : ExceptT Refusal m Config :=
  match path with
  | some path => (Config.load disk path).adapt Refusal.failure
  | none => pure Config.standard

def loadSchema (disk : Disk m) (path : String) : ExceptT Refusal m Schema :=
  (Schema.load disk path).adapt fun _ => Refusal.schema path

/-- Writes a text to a file, or else to the standard output. -/
def deliver (disk : Disk m) (out : Option String) (text : String) : ExceptT Refusal m Texts :=
  match out with
  | none => return ⟨text, ""⟩
  | some path => do
      (disk.replace path text.toUTF8).adapt fun e => Refusal.failure (.file e)
      return ⟨"", "✓ Wrote " ++ path ++ "\n"⟩

def Command.run (disk : Disk m) (config : Config) : Command → ExceptT Refusal m Texts
  | .generate path out format => do
      let schema ← loadSchema disk path
      deliver disk out (format.text config (schema.compile config))
  | .order path => do
      let schema ← loadSchema disk path
      return ⟨lines (schema.compile config).order, ""⟩
  | .render path operation args depth => do
      let schema ← loadSchema disk path
      let text ← ExceptT.mk (pure (query schema config operation args depth))
      return ⟨text ++ "\n", ""⟩
  | .classify path => do
      let schema ← loadSchema disk path
      return ⟨classificationText (schema.classify config.extraFlags), ""⟩

def Request.run (disk : Disk m) (r : Request) : ExceptT Refusal m Texts := do
  let config ← loadConfig disk r.config
  r.command.run disk config

/-- Carries out a command line. -/
def run (disk : Disk m) (words : List String) : m Outcome := do
  match Request.ofWords? words with
  | none => return ⟨2, "", none⟩
  | some request =>
      match ← (request.run disk).run with
      | .ok texts => return ⟨0, texts.output, some texts.error⟩
      | .error refusal => return ⟨1, "", some refusal.text⟩

end

end SelectionCompiler.CommandLine
