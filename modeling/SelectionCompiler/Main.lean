import SelectionCompiler.CommandLine.Run

/-!
The program: command lines on the file system of the machine.
-/

namespace SelectionCompiler

def FileError.ofSystem : IO.Error → FileError
  | .noFileOrDirectory .. => .notFound
  | .inappropriateType .. => .isDirectory
  | e => .other (toString e)

/-- Runs an action and catches its error. -/
def catching {α : Type} (action : IO α) : IO (Except FileError α) := do
  try return .ok (← action)
  catch e => return .error (.ofSystem e)

/-- The file system of the machine. -/
def machineDisk : Disk IO where
  read path := catching (IO.FS.readBinFile path)
  create path := catching (IO.FS.writeBinFile path ByteArray.empty)
  write path contents := catching (IO.FS.writeBinFile path contents)
  sync _ := return .ok ()
  rename source target := catching (IO.FS.rename source target)

end SelectionCompiler

open SelectionCompiler in
def main (words : List String) : IO UInt32 := do
  let outcome ← CommandLine.run machineDisk words
  IO.print outcome.output
  IO.eprint (outcome.error.getD "usage: [-c FILE] generate|order|render|classify SCHEMA\n")
  return outcome.code.toUInt32
