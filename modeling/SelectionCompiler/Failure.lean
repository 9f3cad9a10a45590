import SelectionCompiler.Files.Disk

/-!
What can go wrong from outside: files that cannot be read or written, texts that
do not parse, and operations that a schema does not have.
-/

namespace SelectionCompiler

inductive Failure where
  | file (error : FileError)
  | json
  | schemaText
  | config (path : String)
  | unknownOperation (name : String)
deriving DecidableEq, Inhabited

namespace Failure

def message : Failure → String
  | .file error => "I/O error: " ++ error.message
  | .json => "JSON error"
  | .schemaText => "Failed to parse schema"
  | .config path => "Invalid config " ++ path
  | .unknownOperation name => "Unknown root operation: " ++ name

end Failure

end SelectionCompiler
