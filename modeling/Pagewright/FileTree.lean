namespace Pagewright

/-!
# File trees

The files below a directory, as a value.  The programs of this library that
read and write files are functions on such trees; the outside world is only
asked for a tree and told of the changes.

A path is a text with slashes between its parts.  A point stays where it is,
two points go up, and any part leads on only from a directory.  A slash at the
end asks for a directory.

Paths start at the root of the tree, which stands for the working directory.
What lies above it, or is named from the top of the file system, is found under
the entries `..` and `/` of the root, if it is known at all.
-/

/-- The content of a file. -/
inductive Content where
  | text (contents : String)
  | bytes (contents : ByteArray)

/-- Bytes are text when they are valid UTF-8. -/
def Content.ofBytes (contents : ByteArray) : Content :=
  match String.fromUTF8? contents with
  | some decoded => .text decoded
  | none => .bytes contents

inductive FileTree where
  | file (content : Content)
  | directory (entries : List (String × FileTree))

namespace FileTree

/-- Why a file cannot be read or written. -/
inductive AccessError where
  | notFound
  | notDirectory
  | isDirectory
  | notText
deriving Repr, DecidableEq

def AccessError.message : AccessError → String
  | .notFound => "No such file or directory (os error 2)"
  | .notDirectory => "Not a directory (os error 20)"
  | .isDirectory => "Is a directory (os error 21)"
  | .notText => "stream did not contain valid UTF-8"

/-- The empty directory. -/
def empty : FileTree := .directory []

/-! ## Places

A place is the list of names that leads from the root to a file or
directory. -/

/-- What stands at a place. -/
def at? : FileTree → List String → Option FileTree
  | tree, [] => some tree
  | .file _, _ :: _ => none
  | .directory entries, name :: rest =>
      match entries.lookup name with
      | some inner => inner.at? rest
      | none => none

/-- The entries of a directory with one entry replaced or added. -/
def setEntry (name : String) (tree : FileTree) :
    List (String × FileTree) → List (String × FileTree)
  | [] => [(name, tree)]
  | (other, old) :: rest =>
      if other = name then (name, tree) :: rest
      else (other, old) :: setEntry name tree rest

/-- The tree with something put at a place.  Directories on the way that do not
exist are made. -/
def put (new : FileTree) : List String → FileTree → FileTree
  | [], _ => new
  | name :: rest, tree =>
      let entries := match tree with
        | .directory entries => entries
        | .file _ => []
      let inner := (entries.lookup name).getD empty
      .directory (setEntry name (put new rest inner) entries)

mutual

/-- The places of all files of a tree. -/
def files : FileTree → List (List String)
  | .file _ => [[]]
  | .directory entries => filesOf entries

/-- The places of all files of some entries. -/
def filesOf : List (String × FileTree) → List (List String)
  | [] => []
  | (name, tree) :: rest => tree.files.map (name :: ·) ++ filesOf rest

end

/-! ## Paths -/

/-- The name of the top of the file system. -/
def top : String := "/"

/-- The parts of a path.  Empty parts do not count, except that a slash at the
beginning is a part of its own. -/
def parts (path : String) : List String :=
  let named := ((path.toList.splitOn '/').map String.ofList).filter fun part =>
    !part.isEmpty
  if path.toList.head? = some '/' then top :: named else named

/-- The name that a path ends with. -/
def lastName? (path : String) : Option String :=
  (parts path).getLast?

def endsWithSlash (path : String) : Bool :=
  path.toList.getLast? = some '/'

/-- The path of a place below the directory at a path. -/
def join (path : String) (place : List String) : String :=
  let separator := if path.isEmpty || endsWithSlash path then "" else "/"
  path ++ separator ++ String.intercalate "/" place

/-- A path in reverse without the slashes and points at its end. -/
def withoutTail : List Char → List Char
  | '/' :: rest => withoutTail rest
  | '.' :: '/' :: rest => withoutTail rest
  | reversed => reversed

/-- The path of another file in the directory of a file. -/
def sibling (path name : String) : String :=
  let outer := withoutTail (path.toList.reverse.dropWhile (· != '/'))
  let root := if outer.isEmpty && path.toList.head? = some '/' then "/" else ""
  join (root ++ String.ofList outer.reverse) [name]

/-- The place that a part of a path leads to from another place.  Names of
places stand in reverse. -/
def advance (place : List String) (part : String) : List String :=
  if part = "." then
    place
  else if part = ".." then
    match place with
    | [] => [".."]
    | name :: outer =>
        if name = ".." then ".." :: place
        else if name = top then place
        else outer
  else
    part :: place

/-- Follow the parts of a path from a place. -/
def walk (tree : FileTree) (place : List String) :
    List String → Except AccessError (List String)
  | [] => .ok place
  | part :: rest =>
      match tree.at? place.reverse with
      | none => .error .notFound
      | some (.file _) => .error .notDirectory
      | some (.directory _) => walk tree (advance place part) rest

/-- The file or directory at a path.  The empty path leads nowhere. -/
def find (tree : FileTree) (path : String) : Except AccessError FileTree := do
  if path.isEmpty then throw .notFound
  let place ← tree.walk [] (parts path)
  match tree.at? place.reverse with
  | none => throw .notFound
  | some (.file content) =>
      if endsWithSlash path then throw .notDirectory else return .file content
  | some (.directory entries) => return .directory entries

/-- The text of the file at a path. -/
def readText (tree : FileTree) (path : String) : Except AccessError String := do
  match ← tree.find path with
  | .directory _ => throw .isDirectory
  | .file (.bytes _) => throw .notText
  | .file (.text contents) => return contents

/-- Is there a file at a path? -/
def isFile (tree : FileTree) (path : String) : Bool :=
  match tree.find path with
  | .ok (.file _) => true
  | _ => false

/-- Write a text to the file at a path.  The file may be new, but the directory
that it lies in has to exist. -/
def writeText (tree : FileTree) (path contents : String) : Except AccessError FileTree := do
  if path.isEmpty then throw .notFound
  match lastName? path with
  | none => throw .isDirectory
  | some name =>
      let outer ← tree.walk [] (parts path).dropLast
      match tree.at? outer.reverse with
      | none => throw .notFound
      | some (.file _) => throw .notDirectory
      | some (.directory entries) =>
          if name = "." || name = ".." || endsWithSlash path then throw .isDirectory
          match entries.lookup name with
          | some (.directory _) => throw .isDirectory
          | _ => return put (.file (.text contents)) (outer.reverse ++ [name]) tree

end FileTree

end Pagewright
