set_option autoImplicit false

/-!
# Files

What reading gives at every path. Nothing ties the paths together, so this covers whatever a file
system may hold: relative and absolute paths, links, files that must not be read. A `FileTree` is a
file system as data. Looking a path up in it walks the components of the path, from the root or from
the working directory; empty components and single dots stay where they are, double dots go back.
-/
namespace LayeredConfig

/-- What reading a file gives. Where it fails, the system has words for the reason. -/
inductive Contents where
  | bytes (b : ByteArray)
  | missing
  | unreadable (words : String)

structure Files where
  read : String → Contents

namespace Files

/-- No file exists. -/
def empty : Files := ⟨fun _ => .missing⟩

def components (path : String) : List String := path.splitOn "/"

def staysHere (name : String) : Bool := name.isEmpty || name == "."

def isAbsolute (path : String) : Bool := path.toList.head? = some '/'

end Files

inductive Entry where
  | file (bytes : ByteArray)
  | directory

/-- Entries by the names that lead to them from the root, and the names that lead to the working
directory. A directory exists when it is listed or when something lies inside it. Of two entries
with one name the later counts. -/
structure FileTree where
  entries : List (List String × Entry)
  here : List String

namespace FileTree

open Files (components staysHere isAbsolute)

/-- Where the walk along a path starts. -/
def start (here : List String) (path : String) : List String :=
  if isAbsolute path then [] else here

/-- Entries by paths, seen from the working directory. -/
def ofList (here : List String) (entries : List (String × Entry)) : FileTree where
  entries := entries.map fun entry =>
    (start here entry.1 ++ (components entry.1).filter (!staysHere ·), entry.2)
  here := here

def listed? (tree : FileTree) (names : List String) : Option Entry :=
  (tree.entries.reverse.find? (·.1 == names)).map Prod.snd

def isDirectory (tree : FileTree) (names : List String) : Bool :=
  tree.entries.any (fun entry => names.isPrefixOf entry.1 && names.length < entry.1.length) ||
    match tree.listed? names with
    | some .directory => true
    | _ => false

/-- The greatest sizes of a component and of a whole path, in bytes. -/
def componentLimit : Nat := 255

def pathLimit : Nat := 4095

def tooLong : Contents := .unreadable "File name too long (os error 36)"

/-- Follows the components from a directory, given by the names that lead to it. A directory cannot
be read, and nothing lies below a file. The root is the directory above itself. -/
def walk (tree : FileTree) : List String → List String → Contents
  | _, [] => .unreadable "Is a directory (os error 21)"
  | names, name :: rest =>
    if staysHere name then tree.walk names rest
    else if name = ".." then tree.walk names.dropLast rest
    else if componentLimit < name.utf8ByteSize then tooLong
    else
      let there := names ++ [name]
      if tree.isDirectory there then tree.walk there rest
      else
        match tree.listed? there with
        | some (.file bytes) =>
          if rest.isEmpty then .bytes bytes else .unreadable "Not a directory (os error 20)"
        | _ => .missing

/-- The contents of the file at a path. The empty path leads nowhere, and a path that holds a NUL
or is too long cannot be followed. -/
def read (tree : FileTree) (path : String) : Contents :=
  if path.isEmpty then .missing
  else if path.toList.contains '\x00' then
    .unreadable "file name contained an unexpected NUL byte"
  else if pathLimit < path.utf8ByteSize then tooLong
  else tree.walk (start tree.here path) (components path)

def files (tree : FileTree) : Files := ⟨tree.read⟩

end FileTree

end LayeredConfig
