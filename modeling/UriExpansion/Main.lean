import UriExpansion.CommandLine.Run

/-!
# Entry point

Reads the parameter file, runs the command and prints what it leaves behind.
-/

namespace UriExpansion

namespace CommandLine

def refusal (code : UInt32) (details : String) : FileError :=
  -- some system calls negate the number
  match min code.toNat (0 - code).toNat with
  | 2 => .notFound
  | 13 => .system "Permission denied" 13
  | 20 => .notDirectory
  | 21 => .isDirectory
  | 36 => .nameTooLong
  | n => .system details n

def refusalOf : IO.Error → FileError
  | .noFileOrDirectory _ code details | .inappropriateType _ code details
  | .permissionDenied _ code details | .invalidArgument _ code details
  | .resourceExhausted _ code details | .noSuchThing _ code details
  | .hardwareFault code details | .otherError code details => refusal code details
  | e => .system e.toString 0

def readFile (path : String) : IO (Except FileError ByteArray) := do
  try return .ok (← IO.FS.readBinFile path)
  catch e => return .error (refusalOf e)

def readParams (arguments : List String) : IO (Except FileError ByteArray) :=
  match (Options.parse arguments).toOption.bind Options.file with
  | some path => readFile path
  | none => return .error .notFound

end CommandLine

end UriExpansion

def main (arguments : List String) : IO UInt32 := do
  let contents ← UriExpansion.CommandLine.readParams arguments
  let outcome := UriExpansion.CommandLine.run arguments fun _ => contents
  (← IO.getStdout).putStr outcome.stdout
  (← IO.getStderr).putStr outcome.stderr
  return outcome.code
