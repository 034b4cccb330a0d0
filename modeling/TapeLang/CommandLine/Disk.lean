/-!
# Files

The part of a file system that the program sees, as a value.

* `Path`, `Path.text`: the components of an absolute path.
* `Disk`: a working directory, a home directory, some files and the directories of the system.
* `Disk.resolve?`: the absolute path that a name stands for.
* `Disk.lookup`: what is found at a path.
-/

namespace TapeLang.CommandLine

/-- The components of an absolute path. -/
abbrev Path := List String

/-- A path with its slashes. -/
def Path.text (p : Path) : String := "/" ++ "/".intercalate p

/-- The greatest length of a component of a path, in bytes. -/
def maxNameSize : Nat := 255

/-- The greatest length of a path with its slashes, in bytes. -/
def maxPathSize : Nat := 4095

/-- Whether a path is short enough, its components apart. -/
def Path.fits (p : Path) : Bool := p.text.utf8ByteSize ≤ maxPathSize

/-- Whether a component of a path is short enough. -/
def nameFits (name : String) : Bool := name.utf8ByteSize ≤ maxNameSize

/-- The components of a name, without those that are empty or a dot. -/
def components (name : String) : List String :=
  (name.splitOn "/").filter fun c => c != "" && c != "."

/-- The directories that stand at the root of a system. -/
def rootDirectories : List Path :=
  ["bin", "boot", "dev", "etc", "home", "lib", "media", "mnt", "opt", "proc", "root", "run", "sbin",
    "srv", "sys", "tmp", "usr", "var"].map fun name => [name]

/-- The file that takes every text and keeps none. -/
def nullDevice : Path := ["dev", "null"]

/-- The part of a file system that the program sees. -/
structure Disk where
  /-- The working directory. -/
  cwd : Path
  /-- The home directory. -/
  home : Path
  files : List (Path × ByteArray)
  /-- Directories besides those that lead to the working directory and to the files. -/
  directories : List Path := rootDirectories

/-- What is found at a path. -/
inductive Found where
  | file (bytes : ByteArray)
  /-- There is no file. -/
  | absent
  /-- The path is too long to be looked up. -/
  | tooLong

namespace Disk

/-- The path with another component at its end; two dots lead back. -/
def descend (p : Path) (c : String) : Path := if c = ".." then p.dropLast else p ++ [c]

/-- The absolute path of a name. A leading tilde stands for the home directory; there is no path for
the home of another user, nor for a name with a null character. -/
def resolve? (d : Disk) (name : String) : Option Path :=
  if name.toList.contains '\x00' then none
  else if "/".toList.isPrefixOf name.toList then some ((components name).foldl descend [])
  else
    match components name with
    | "~" :: rest => some (rest.foldl descend d.home)
    | c :: rest =>
      if "~".toList.isPrefixOf c.toList then none else some ((c :: rest).foldl descend d.cwd)
    | [] => some d.cwd

/-- The contents of a file. -/
def read? (d : Disk) (p : Path) : Option ByteArray :=
  (d.files.find? fun f => f.1 = p).map Prod.snd

/-- Whether a path is a directory: it is known as one, or leads to the working directory or to a
file. -/
def isDirectory (d : Disk) (p : Path) : Bool :=
  d.directories.contains p || p.isPrefixOf d.cwd ||
    d.files.any fun f => p.isPrefixOf f.1 && p.length < f.1.length

/-- What is found at a path. A component that is too long counts only if the look-up comes to it, that
is, if what stands before it is a directory. -/
def lookup (d : Disk) (p : Path) : Found :=
  let start := p.takeWhile nameFits
  if !p.fits || (start.length < p.length && d.isDirectory start) then .tooLong
  else
    match d.read? p with
    | some bytes => .file bytes
    | none => .absent

/-- Whether a file can be written at a path: the path is not too long, is no directory and does not lie
below a file. -/
def canWrite (d : Disk) (p : Path) : Bool :=
  p.fits && p.all nameFits && !d.isDirectory p &&
    !((nullDevice :: d.files.map Prod.fst).any fun f => f.isPrefixOf p && f.length < p.length)

end Disk

end TapeLang.CommandLine
