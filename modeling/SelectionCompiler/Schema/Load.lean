import SelectionCompiler.Failure
import SelectionCompiler.Schema.OfDocument
import SelectionCompiler.Schema.OfIntrospection

/-!
Schemas from texts and files. A file whose name has the extension `json` holds an
introspection result, any other file a text in the schema definition language.
-/

namespace SelectionCompiler.Schema

def parseSdl (text : String) : Except Failure Schema :=
  match ofSdl? text with
  | some schema => .ok schema
  | none => .error .schemaText

def parseIntrospection (text : String) : Except Failure Schema :=
  match ofIntrospection? text with
  | some schema => .ok schema
  | none => .error .json

/-- The schema of the contents of the file that the path leads to. -/
def parseFile (path text : String) : Except Failure Schema :=
  if Path.extension? path = some "json" then parseIntrospection text else parseSdl text

def load {m : Type → Type} [Monad m] (disk : Disk m) (path : String) :
    ExceptT Failure m Schema := do
  let text ← (disk.readText path).adapt Failure.file
  ExceptT.mk (pure (parseFile path text))

end SelectionCompiler.Schema
