import SelectionCompiler.Files.Disk
import SelectionCompiler.OrdMap

/-!
A file system as a value: files and directories below one directory, in which
relative paths begin. The operations can be made to fail at one step, to see what
a program leaves behind.
-/

namespace SelectionCompiler

inductive Node where
  | file (contents : ByteArray)
  | directory
deriving Inhabited

/-- Nodes by their location, which is the path to them with a slash between names. -/
structure FileTree where
  nodes : OrdMap Node
deriving Inhabited

namespace FileTree

def empty : FileTree := ⟨∅⟩

/-- The longest name in bytes. -/
def maxName : Nat := 255

/-- Follows segments from a directory. The last segment need not be there; all
others must be directories. Above the tree there is a directory of which nothing
else is known. -/
def follow (t : FileTree) (location : List String) :
    List String → Except FileError (List String)
  | [] => .ok location
  | segment :: rest =>
      if segment = ".." then
        match location with
        | [] => .error (if rest.isEmpty then .isDirectory else .notFound)
        | _ :: _ => t.follow location.dropLast rest
      else if maxName < segment.utf8ByteSize then .error .nameTooLong
      else
        let next := location ++ [segment]
        if rest.isEmpty then .ok next
        else
          match t.nodes.get? ("/".intercalate next) with
          | some .directory => t.follow next rest
          | some (.file _) => .error .notDirectory
          | none => .error .notFound

/-- Where a path leads to. Paths from the root lead out of the tree. -/
def locate (t : FileTree) (path : String) : Except FileError (List String) :=
  let segments := Path.segments path
  if path.contains '\x00' then .error .invalidName
  else if path.startsWith "/" then
    .error (if segments.isEmpty then .isDirectory else .notFound)
  else if path = "" then .error .notFound
  else t.follow [] segments

/-- The node at a location; the empty location is the directory itself. -/
def node? (t : FileTree) (location : List String) : Option Node :=
  if location.isEmpty then some .directory else t.nodes.get? ("/".intercalate location)

/-- Whether a path can only mean a directory. -/
def meansDirectory (path : String) : Bool := path.endsWith "/" || path.endsWith "/."

def read (t : FileTree) (path : String) : Except FileError ByteArray := do
  match t.node? (← t.locate path) with
  | some (.file contents) => if meansDirectory path then throw .notDirectory else return contents
  | some .directory => throw .isDirectory
  | none => throw .notFound

/-- Where a file can be made: not in the place of a directory. -/
def place (t : FileTree) (path : String) : Except FileError (List String) := do
  let location ← t.locate path
  match t.node? location with
  | some .directory => throw .isDirectory
  | _ => if meansDirectory path then throw .isDirectory else return location

/-- Where a file can be moved: to a name of its own that is no directory's. A path that
ends in dots names a directory that is in use. -/
def destination (t : FileTree) (path : String) : Except FileError (List String) := do
  let location ← t.locate path
  match Path.endsInDots path, t.node? location with
  | true, some .directory => throw .busy
  | true, some (.file _) => throw .notDirectory
  | true, none => throw .notFound
  | false, node =>
      if path.endsWith "/" then throw .notDirectory
      else if node matches some .directory then throw .isDirectory
      else return location

def put (t : FileTree) (path : String) (contents : ByteArray) : Except FileError FileTree := do
  return ⟨t.nodes.insert ("/".intercalate (← t.place path)) (.file contents)⟩

/-- Moves a file; what stood in the new place is gone. -/
def move (t : FileTree) (source target : String) : Except FileError FileTree := do
  let contents ← t.read source
  let sourceKey := "/".intercalate (← t.place source)
  let targetKey := "/".intercalate (← t.destination target)
  if sourceKey = targetKey then return t
  else
    return ⟨.ofList (((t.nodes.insert targetKey (.file contents)).toList).filter
      (·.1 ≠ sourceKey))⟩

/-- The steps of replacing a file at which the file system can fail. A write can fail
after some of the bytes. -/
inductive Fault where
  | create
  | write (kept : Nat)
  | sync
  | rename
deriving DecidableEq, Inhabited

/-- Goes on with the new tree, or keeps the old one. -/
def attempt (next : Except FileError FileTree) : StateM FileTree (Except FileError Unit) := do
  match next with
  | .ok t =>
      set t
      return .ok ()
  | .error e => return .error e

/-- The tree as a file system that fails at the given step. -/
def disk (fault : Option Fault) : Disk (StateM FileTree) where
  read path := return (← get).read path
  create path := do
    if fault = some .create then return .error (.other "create")
    else attempt ((← get).put path ByteArray.empty)
  write path contents := do
    match fault with
    | some (.write kept) =>
        let _ ← attempt ((← get).put path (contents.extract 0 kept))
        return .error (.other "write")
    | _ => attempt ((← get).put path contents)
  sync _ := return if fault = some .sync then .error (.other "sync") else .ok ()
  rename source target := do
    if fault = some .rename then return .error (.other "rename")
    else attempt ((← get).move source target)

/-- The file system in which every step works. -/
def soundDisk : Disk (StateM FileTree) := disk none

/-- The tree with one more file or, without contents, directory in it. -/
def add (t : FileTree) (name : String) (contents : Option String) : FileTree :=
  ⟨t.nodes.insert name (match contents with
    | some text => .file text.toUTF8
    | none => .directory)⟩

/-- The names directly below the directory in order, with the contents of files. -/
def listing (t : FileTree) : List (String × Option ByteArray) :=
  let top := t.nodes.toList.filter fun e => !e.1.contains '/'
  (top.map fun e => (e.1, match e.2 with
    | .file contents => some contents
    | .directory => none)).mergeSort fun a b => a.1 ≤ b.1

end FileTree

end SelectionCompiler
