import RenpyScript.Files.Access
import RenpyScript.Files.Path

/-!
# Files in memory

A tree of files with a working directory at its top. What lies above the top is not known: it is a
directory in which nothing is found.
-/

namespace RenpyScript

/-- Files by the names on the way to them. Their directories need not be listed; others are. -/
structure FileTree where
  files : List (List (List Char) × ByteArray)
  directories : List (List (List Char))

namespace FileTree

/-- The tree with given entries. A path that ends with a slash is that of a directory. -/
def ofEntries (entries : List (String × ByteArray)) : FileTree where
  files := (entries.filter fun e => e.1.toList.getLast? != some '/').map fun e => (Path.names e.1, e.2)
  directories := (entries.filter fun e => e.1.toList.getLast? = some '/').map fun e => Path.names e.1

def file? (t : FileTree) (place : List (List Char)) : Option ByteArray :=
  t.files.lookup place

def isDirectoryAt (t : FileTree) (place : List (List Char)) : Bool :=
  place.isEmpty || t.directories.any (place.isPrefixOf ·) ||
    t.files.any fun f => place.isPrefixOf f.1 && place != f.1

def longestName : Nat := 255

/-- The number of bytes that a path must stay below. -/
def longestPath : Nat := 4096

/-- The place where the segments of a path lead from `place`; `none` is above the top. -/
def follow (t : FileTree) :
    Option (List (List Char)) → List (List Char) → Except FileError (Option (List (List Char)))
  | place, [] => .ok place
  | none, s :: ss =>
    if Path.isVoid s || s = ['.', '.'] then t.follow none ss
    else if longestName < (String.ofList s).utf8ByteSize then .error .nameTooLong
    else .error .notFound
  | some place, s :: ss =>
    if !t.isDirectoryAt place then .error .notDirectory
    else if Path.isVoid s then t.follow (some place) ss
    else if s = ['.', '.'] then t.follow (if place.isEmpty then none else some place.dropLast) ss
    else if longestName < (String.ofList s).utf8ByteSize then .error .nameTooLong
    else
      let next := place ++ [s]
      if (t.file? next).isSome || t.isDirectoryAt next then t.follow (some next) ss
      else .error .notFound

def locate (t : FileTree) (path : String) : Except FileError (Option (List (List Char))) :=
  if path.toList.contains '\x00' then .error .nulInPath
  else if path.isEmpty then .error .notFound
  else if longestPath ≤ path.utf8ByteSize then .error .nameTooLong
  else t.follow (if Path.isAbsolute path then none else some []) (Path.segments path.toList)

def read (t : FileTree) (path : String) : Except FileError ByteArray := do
  match (← t.locate path) with
  | none => .error .isDirectory
  | some place =>
    match t.file? place with
    | some bytes => .ok bytes
    | none => .error .isDirectory

def isDirectory (t : FileTree) (path : String) : Bool :=
  match t.locate path with
  | .ok none => true
  | .ok (some place) => t.isDirectoryAt place
  | .error _ => false

def filesBelow (t : FileTree) (path : String) : Except FileError (List String) := do
  match (← t.locate path) with
  | none => .ok []
  | some place =>
    let below := t.files.filter fun f => place.isPrefixOf f.1 && place != f.1
    .ok (below.map fun f => Path.join path (String.ofList (Path.ofSegments (f.1.drop place.length))))

def access (t : FileTree) : FileAccess Id where
  read := t.read
  isDirectory := t.isDirectory
  filesBelow := t.filesBelow

end FileTree

end RenpyScript
