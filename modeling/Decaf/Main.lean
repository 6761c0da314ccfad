import Decaf.CommandLine

open Decaf

/-!
# The program

Reads the file that the arguments name, writes what `CommandLine.run` says, and ends with its
status.
-/

/-- Reads the content of a file. A folder is found out when it is read, with the system's own number
    for that error. -/
def readContent (path : String) : IO (Except ReadError (List UInt8)) := do
  try
    return .ok (← IO.FS.readBinFile path).toList
  catch e =>
    match e with
    | .noFileOrDirectory .. => return .error .notFound
    | .inappropriateType _ 21 _ => return .error .isDirectory
    | .inappropriateType .. => return .error .notDirectory
    | .invalidArgument .. => return .error .nameTooLong
    | e => return .error (.other (toString e))

def main (args : List String) : IO UInt32 := do
  let content ←
    match CommandLine.inputPath args with
    | .ok path => readContent path
    | .error _ => pure (.error .notFound)
  let outcome := CommandLine.run args fun _ => content
  IO.print outcome.output
  IO.eprint outcome.errors
  return outcome.code.toUInt32
