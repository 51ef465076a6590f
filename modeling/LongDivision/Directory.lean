import LongDivision.Configuration

/-!
A working directory in memory, and what a path leads to in it. It stands in for a disk in a run whose
files are given with the run: what `look` finds is the `file` of the run's environment.
-/

namespace LongDivision

/-- A file: the names on the way to it from the working directory, and its bytes. -/
structure StoredFile where
  path : List String
  bytes : List UInt8

/-- The working directory with all files in and below it. Every name on the way to a file is a
directory. -/
abbrev Directory := List StoredFile

namespace Directory

/-- The names in a path, without the ones that do not move. -/
def names (path : String) : List String :=
  ((path.toList.splitOn '/').map String.ofList).filter fun name => name ≠ "" && name ≠ "."

/-- Whether a path is written so that only a directory can stand there. -/
def namesDirectory (path : String) : Bool :=
  let last := (path.toList.splitOn '/').getLast?
  last == some [] || last == some ['.']

def isDirectory (directory : Directory) (path : List String) : Bool :=
  directory.any fun file => path.isPrefixOf file.path && path.length < file.path.length

/-- Follows names from a directory that exists. Of what lies above the working directory, nothing
but the directories themselves is known. -/
def follow (directory : Directory) (onlyDirectory : Bool) (here : List String) :
    List String → ConfigurationFile
  | [] => .directory
  | name :: rest =>
      if name = ".." then
        if here.isEmpty then if rest.all (· == "..") then .directory else .missing
        else follow directory onlyDirectory here.dropLast rest
      else
        let there := here ++ [name]
        match directory.find? (·.path == there) with
        | some file => if rest.isEmpty && !onlyDirectory then .content file.bytes else .missing
        | none =>
            if directory.isDirectory there then follow directory onlyDirectory there rest
            else .missing

/-- Directories that every system has at its root. -/
def rootDirectories : List String :=
  ["bin", "dev", "etc", "lib", "proc", "tmp", "usr", "var"]

/-- Follows names from the root, or from a directory right `below` it. The root is its own parent,
and nothing is known of what is in the directories below. -/
def followRoot (below : Bool) : List String → ConfigurationFile
  | [] => .directory
  | name :: rest =>
      if name = ".." then followRoot false rest
      else if !below && rootDirectories.contains name then followRoot true rest
      else .missing

/-- What stands at a path, which starts from the root or from the working directory. The empty path
leads nowhere. -/
def look (directory : Directory) (path : String) : ConfigurationFile :=
  if path.isEmpty then .missing
  else if path.startsWith "/" then followRoot false (names path)
  else directory.follow (namesDirectory path) [] (names path)

end Directory

end LongDivision
