/-!
Paths of files. A path is read as segments between slashes; empty segments and
single dots say nothing. The extension of a file name is what follows its last
dot, unless that dot is its first character.
-/

namespace SelectionCompiler.Path

/-- Whether a segment says nothing. -/
def isEmptySegment (s : String) : Bool := s == "" || s == "."

/-- What stands between the slashes of a path. -/
def allSegments (path : String) : List String :=
  (path.toList.splitOn '/').map String.ofList

/-- The segments of a path that say something. -/
def segments (path : String) : List String := (allSegments path).filter (!isEmptySegment ·)

/-- The segments of a path from the last to the first, beginning with one that says
something. -/
def reversedSegments (path : String) : List String :=
  (allSegments path).reverse.dropWhile isEmptySegment

/-- Whether the last segment is a dot or two, slashes after it not counted. -/
def endsInDots (path : String) : Bool :=
  match (allSegments path).reverse.dropWhile (· == "") with
  | last :: _ => last == "." || last == ".."
  | [] => false

/-- The name of the file that a path leads to; a path that ends by going up has none. -/
def fileName? (path : String) : Option String :=
  match reversedSegments path with
  | [] => none
  | last :: _ => if last = ".." then none else some last

/-- A file name as stem and extension. -/
def splitName (name : String) : String × Option String :=
  let cs := name.toList
  let extension := (cs.reverse.takeWhile (· != '.')).reverse
  let before := cs.take (cs.length - extension.length - 1)
  if extension.length = cs.length || before.isEmpty then (name, none)
  else (String.ofList before, some (String.ofList extension))

def extension? (path : String) : Option String := (fileName? path).bind fun n => (splitName n).2

/-- The path with the extension of its file name replaced; a path without a file
name stays as it is. -/
def withExtension (path extension : String) : String :=
  match reversedSegments path with
  | [] => path
  | last :: rest =>
      if last = ".." then path
      else "/".intercalate (((splitName last).1 ++ "." ++ extension) :: rest).reverse

end SelectionCompiler.Path
