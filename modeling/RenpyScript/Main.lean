import RenpyScript.Command.Run

/-!
# The program

Runs the command line on the files of the machine.
-/

namespace RenpyScript

/-- What the library calls an error of the machine. -/
def fileError : IO.Error → FileError
  | .noFileOrDirectory _ _ _ => .notFound
  | .inappropriateType _ code words => if code = 20 then .notDirectory
      else if code = 21 then .isDirectory else .machine words
  | e => .machine (toString e)

def entryOf (directory : String) : IO.FS.DirEntry :=
  ⟨directory, "."⟩

partial def pathsBelow (directory : String) : IO (List String) := do
  let mut found := []
  for entry in (← (entryOf directory).path.readDir) do
    let path := Path.join directory entry.fileName
    if (← (entryOf path).path.isDir) then found := found ++ (← pathsBelow path)
    else found := found ++ [path]
  return found

def machineFiles : FileAccess IO where
  read path := do
    try return .ok (← IO.FS.readBinFile path)
    catch e => return .error (fileError e)
  isDirectory path := if path.isEmpty then return false else (entryOf path).path.isDir
  filesBelow path := do
    try return .ok (← pathsBelow path)
    catch e => return .error (fileError e)

end RenpyScript

/-- Answers the arguments, and leaves with the code of the answer. -/
def main (arguments : List String) : IO UInt32 := do
  let outcome ← RenpyScript.runProgram RenpyScript.machineFiles arguments
  (← IO.getStdout).putStr outcome.output
  (← IO.getStderr).putStr outcome.errors
  return outcome.code.toUInt32
