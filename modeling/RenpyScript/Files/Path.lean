/-!
# Paths

A path is a text whose segments are separated by slashes. A segment names something unless it is empty
or a single dot.
-/

namespace RenpyScript.Path

/-- The segments of a path. There is one at least. -/
def segments : List Char → List (List Char)
  | [] => [[]]
  | c :: cs =>
    match segments cs with
    | s :: ss => if c = '/' then [] :: s :: ss else (c :: s) :: ss
    | [] => [[c]]

/-- Whether a segment stands for the directory it is in. -/
def isVoid (segment : List Char) : Bool :=
  segment = [] || segment = ['.']

def names (path : String) : List (List Char) :=
  (segments path.toList).filter fun s => !isVoid s

/-- Whether a path starts from the top of all files. -/
def isAbsolute (path : String) : Bool :=
  path.toList.head? = some '/'

/-- What stands behind the last dot of a file's name. A dot at the very beginning does not count. -/
def extensionOfName? (name : List Char) : Option (List Char) :=
  let behind := name.reverse.takeWhile (· ≠ '.')
  if behind.length + 1 < name.length then some behind.reverse else none

/-- The extension of the file that a path names. The way up names no file. -/
def extension? (path : String) : Option (List Char) :=
  (names path).getLast?.bind fun name => if name = ['.', '.'] then none else extensionOfName? name

def ofSegments : List (List Char) → List Char
  | [] => []
  | [s] => s
  | s :: ss => s ++ '/' :: ofSegments ss

/-- The directory of a file: the path without the file's name. -/
def directory (path : String) : String :=
  let before := (segments path.toList).dropLast
  match before with
  | [] => ""
  | first :: rest =>
    let kept := first :: (rest.reverse.dropWhile isVoid).reverse
    if kept = [[]] then "/" else String.ofList (ofSegments kept)

/-- A path as seen from a directory. An absolute path is left alone. -/
def join (directory path : String) : String :=
  if isAbsolute path then path
  else if directory.isEmpty || directory.toList.getLast? = some '/' then directory ++ path
  else directory ++ "/" ++ path

end RenpyScript.Path
