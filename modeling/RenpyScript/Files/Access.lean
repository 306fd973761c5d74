/-!
# Access to files

What the library asks of the files around it, and what can go wrong. The access is a parameter of the
functions that need it: a program gives them the files of its machine, a test those it holds in memory.
-/

namespace RenpyScript

/-- Why a file cannot be read. -/
inductive FileError where
  | notFound
  | notDirectory
  | isDirectory
  | nameTooLong
  | nulInPath
  | notText
  | machine (words : String)
deriving DecidableEq, Repr

def FileError.message : FileError → String
  | notFound => "No such file or directory (os error 2)"
  | notDirectory => "Not a directory (os error 20)"
  | isDirectory => "Is a directory (os error 21)"
  | nameTooLong => "File name too long (os error 36)"
  | nulInPath => "file name contained an unexpected NUL byte"
  | notText => "stream did not contain valid UTF-8"
  | machine words => words

/-- Access to files. -/
structure FileAccess (m : Type → Type) where
  read : String → m (Except FileError ByteArray)
  isDirectory : String → m Bool
  /-- The paths of all files below a directory, each beginning with the path of the directory. -/
  filesBelow : String → m (Except FileError (List String))

def FileAccess.readText {m : Type → Type} [Monad m] (files : FileAccess m) (path : String) :
    m (Except FileError String) := do
  return (← files.read path).bind fun bytes =>
    match String.fromUTF8? bytes with
    | some text => .ok text
    | none => .error .notText

end RenpyScript
