import GyroDelay.Files

/-!
# Trees of files

A file system given by its files. A path is followed part by part, from the top if it begins
with a slash and otherwise from the working directory, and every part but the last has to
lead to a directory.
-/

namespace GyroDelay.Files

/-- A place in a tree: the names on the way to it from the top. -/
abbrev Place := List (List Char)

/-- A tree of directories and files. -/
structure Tree where
  /-- Directories, besides those on the way to others. -/
  directories : List Place
  /-- Files with their bytes. -/
  files : List (Place × List UInt8)
  /-- The directory from which paths are followed. -/
  working : Place

/-- Where a part of a path leads. Two points lead up, as far as that goes; one point and no
name lead nowhere. -/
def follow (place : Place) (step : List Char) : Place :=
  if step = [] || step = ['.'] then place
  else if step = ['.', '.'] then place.dropLast
  else place ++ [step]

/-- How many bytes a name may have. -/
def nameLimit : Nat := 255

/-- How many bytes a path may have. -/
def pathLimit : Nat := 4095

namespace Tree

variable (t : Tree)

/-- The bytes of the file at a place. -/
def bytes? (place : Place) : Option (List UInt8) := (t.files.find? fun f => f.1 = place).map (·.2)

/-- Whether there is a directory at a place. -/
def isDirectory (place : Place) : Bool :=
  place = [] || t.directories.any (place.isPrefixOf ·) || place.isPrefixOf t.working ||
    t.files.any fun f => place ≠ f.1 && place.isPrefixOf f.1

/-- Why there is no directory at a place. -/
def noDirectory (place : Place) : FileFault :=
  if (t.bytes? place).isSome then .notDirectory else .missing

/-- The place to which the parts of a path lead. -/
def walk (place : Place) : List (List Char) → Except FileFault Place
  | [] => .ok place
  | step :: steps =>
    if !t.isDirectory place then .error (t.noDirectory place)
    else if nameLimit < (String.ofList step).utf8ByteSize then .error .nameTooLong
    else walk (follow place step) steps

/-- Where following a path begins. -/
def start (path : String) : Place := if path.startsWith "/" then [] else t.working

/-- The bytes at a path. -/
def read (path : String) : Except FileFault (List UInt8) :=
  if path.contains '\x00' then .error .forbiddenCharacter
  else if path.isEmpty then .error .missing
  else if pathLimit < path.utf8ByteSize then .error .nameTooLong
  else do
    let place ← t.walk (t.start path) (steps path)
    match t.bytes? place with
    | some bytes => return bytes
    | none => throw (if t.isDirectory place then .directory else .missing)

/-- The tree with one more file at a path. -/
def put (path : String) (bytes : List UInt8) : Tree :=
  { t with files := ((steps path).foldl follow (t.start path), bytes) :: t.files }

/-- What every system holds: its usual directories, and the file that is always empty. The
working directory lies two levels below the top; it is named by a slash, so that no path can
spell its name. -/
def bare : Tree :=
  { directories :=
      ["bin", "boot", "dev", "etc", "home", "lib", "media", "mnt", "opt", "proc", "root", "run",
        "sbin", "srv", "sys", "tmp", "usr", "var"].map fun name => [name.toList]
    files := [(["dev".toList, "null".toList], [])]
    working := ["tmp".toList, ['/']] }

end Tree

/-- The given files in a working directory that holds nothing else. -/
def ofList (entries : List (String × List UInt8)) : Files :=
  ⟨(entries.foldl (fun t e => t.put e.1 e.2) Tree.bare).read⟩

end GyroDelay.Files
