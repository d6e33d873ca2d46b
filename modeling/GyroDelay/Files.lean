import GyroDelay.Fault
import GyroDelay.Text.Lines

/-!
# Files

What the program sees of a file system: the bytes at a path, or why there are none. Paths
are divided at slashes; empty parts and parts that are a single point do not count for the
name of a file.
-/

namespace GyroDelay

/-- The content of every path. -/
structure Files where
  /-- The bytes at a path, or why they cannot be read. -/
  read : String → Except FileFault (List UInt8)

namespace Files

/-- Whether a path names a file or a directory. -/
def holds (files : Files) (path : String) : Bool :=
  match files.read path with
  | .ok _ => true
  | .error fault => fault.isPresent

/-- The text at a path. -/
def text (files : Files) (path : String) : Except FileFault String := do
  match Text.decode (← files.read path) with
  | .ok cs => return String.ofList cs
  | .error _ => throw .notText

/-- The parts of a path, with those that are empty or a single point. -/
def steps (path : String) : List (List Char) := Text.fields '/' path.toList

/-- The path of a name in a directory; a name that begins with a slash is a path of its own. -/
def join (directory name : String) : String :=
  if name.startsWith "/" then name else directory ++ "/" ++ name

/-- The name of the file at a path; a path that ends in two points has none. -/
def fileName? (path : String) : Option (List Char) :=
  match ((steps path).filter fun part => part ≠ [] && part ≠ ['.']).getLast? with
  | none | some ['.', '.'] => none
  | some name => some name

/-- The extension of a path: what follows the last point of its file name. A point that begins
the name does not count. -/
def extension? (path : String) : Option String := do
  let name ← fileName? path
  match (Text.fields '.' name).reverse with
  | last :: stem =>
    if stem = [] || stem = [[]] then none else some (String.ofList last)
  | [] => none

end Files

end GyroDelay
