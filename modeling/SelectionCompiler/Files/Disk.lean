import SelectionCompiler.Files.Path

/-!
File systems by the operations that a program calls on them, and the replacement
of a file in one go: the new contents are written to a sibling, which then takes
the place of the file. Whatever step fails, no later step is taken, so a file that
is not its own sibling has either its old contents or the new ones.
-/

namespace SelectionCompiler

/-- Why a file could not be read or written. -/
inductive FileError where
  | notFound
  | notDirectory
  | isDirectory
  | busy
  | nameTooLong
  | invalidName
  | invalidText
  | other (message : String)
deriving DecidableEq, Inhabited

def FileError.message : FileError → String
  | .notFound => "No such file or directory (os error 2)"
  | .notDirectory => "Not a directory (os error 20)"
  | .isDirectory => "Is a directory (os error 21)"
  | .busy => "Device or resource busy (os error 16)"
  | .nameTooLong => "File name too long (os error 36)"
  | .invalidName => "file name contained an unexpected NUL byte"
  | .invalidText => "stream did not contain valid UTF-8"
  | .other message => message

/-- The operations of a file system in the monad `m`. -/
structure Disk (m : Type → Type) where
  /-- The contents of a file. -/
  read : String → m (Except FileError ByteArray)
  /-- Makes a file empty, creating it if need be. -/
  create : String → m (Except FileError Unit)
  /-- Puts contents into a file that has just been created. -/
  write : String → ByteArray → m (Except FileError Unit)
  /-- Makes sure that what was written stays. -/
  sync : String → m (Except FileError Unit)
  /-- Puts the first file in the place of the second. -/
  rename : String → String → m (Except FileError Unit)

namespace Disk

variable {m : Type → Type} [Monad m]

/-- The sibling to which contents are written first. -/
def sibling (path : String) : String := Path.withExtension path "tmp"

def replace (disk : Disk m) (path : String) (contents : ByteArray) :
    ExceptT FileError m Unit := do
  let temporary := sibling path
  ExceptT.mk (disk.create temporary)
  ExceptT.mk (disk.write temporary contents)
  ExceptT.mk (disk.sync temporary)
  ExceptT.mk (disk.rename temporary path)

/-- The contents of a file that holds text. -/
def readText (disk : Disk m) (path : String) : ExceptT FileError m String := do
  match String.fromUTF8? (← ExceptT.mk (disk.read path)) with
  | some text => return text
  | none => throw .invalidText

end Disk

end SelectionCompiler
