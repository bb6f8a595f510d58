import UriExpansion.CommandLine.Arguments
import UriExpansion.ParamFile.Load
import UriExpansion.Template.Expansion

/-!
# The command

The template is read first, then the parameter file, then the assignments in order; the first
failure is reported. An assignment overrides the file and the assignments before it. The help and
the reports of refused arguments are worded by this library and not by the command's own parser of
arguments, so there the two agree in the exit code only.
-/

namespace UriExpansion

namespace CommandLine

inductive Failure
  | template (source : String) (e : Unterminated)
  | load (path : String) (e : LoadError)
  | assignment (text : String)

def splitAssignment (text : String) : Except Failure (String × String) :=
  let cs := text.toList
  match cs.dropWhile (· ≠ '=') with
  | [] => .error (.assignment text)
  | _ :: value => .ok (String.ofList (cs.takeWhile (· ≠ '=')), String.ofList value)

def assign (s : Store) (text : String) : Except Failure Store := do
  let (name, value) ← splitAssignment text
  .ok (s.insert name (.str value))

def loadFile (read : String → Except FileError ByteArray) : Option String → Except Failure Store
  | none => .ok ∅
  | some path => (Store.ofFile path (read path)).mapError (.load path)

def Options.expand (o : Options) (read : String → Except FileError ByteArray) :
    Except Failure String := do
  let template ← (Template.parse o.template).mapError (.template o.template)
  let params ← loadFile read o.file
  let params ← o.assignments.foldlM assign params
  .ok (template.expand params)

def indentLines (blanks : String) (text : String) : String :=
  String.ofList (text.toList.flatMap fun c => if c = '\n' then '\n' :: blanks.toList else [c])

/-- A failure and its causes, which are numbered when there are several. -/
def report (message : String) : List String → String
  | [] => "Error: " ++ message ++ "\n"
  | [cause] =>
    "Error: " ++ message ++ "\n\nCaused by:\n    " ++ indentLines "    " cause ++ "\n"
  | causes =>
    let line (c : String × Nat) : String :=
      "\n    " ++ toString c.2 ++ ": " ++ indentLines "       " c.1
    "Error: " ++ message ++ "\n\nCaused by:" ++ String.join (causes.zipIdx.map line) ++ "\n"

namespace Failure

def report : Failure → String
  | .template source e =>
    CommandLine.report ("Could not parse template '" ++ source ++ "'") [e.message]
  | .load path e =>
    CommandLine.report ("Could not load parameters from " ++ path) [e.message, e.cause]
  | .assignment text =>
    CommandLine.report ("Invalid --set argument '" ++ text ++ "': expected NAME=VALUE") []

end Failure

def usageLine : String :=
  "Usage: uritemplate [OPTIONS] <TEMPLATE>"

def helpText : String :=
  "Expand an RFC 6570-style URI template\n\n" ++ usageLine ++ "\n\n" ++
  "Arguments:\n" ++
  "  <TEMPLATE>  Template to expand, e.g. '/api\x7b/id\x7d\x7b?q\x7d'\n\n" ++
  "Options:\n" ++
  "  -p, --params <FILE>     Path to a YAML or JSON file containing parameters\n" ++
  "  -s, --set <NAME=VALUE>  Bind a string parameter, overriding the parameter file\n" ++
  "  -h, --help              Print help\n"

namespace UsageError

def message : UsageError → String
  | .unexpected argument => "unexpected argument '" ++ argument ++ "' found"
  | .missingValue option => "a value is required for '" ++ option ++ "' but none was supplied"
  | .unneededValue option => "unexpected value for '" ++ option ++ "' found; no more were expected"
  | .repeated option => "the argument '" ++ option ++ "' cannot be used multiple times"
  | .missingTemplate => "the following required arguments were not provided:\n  <TEMPLATE>"

def report (e : UsageError) : String :=
  "error: " ++ e.message ++ "\n\n" ++ usageLine ++ "\n\nFor more information, try '--help'.\n"

end UsageError

inductive Outcome
  | help
  | refused (e : UsageError)
  | expanded (text : String)
  | failed (e : Failure)

namespace Outcome

def ofStop : Stop → Outcome
  | .help => .help
  | .usage e => .refused e

def ofExpansion : Except Failure String → Outcome
  | .ok text => .expanded text
  | .error e => .failed e

def code : Outcome → UInt32
  | .help | .expanded _ => 0
  | .failed _ => 1
  | .refused _ => 2

def stdout : Outcome → String
  | .help => helpText
  | .expanded text => text ++ "\n"
  | .refused _ | .failed _ => ""

def stderr : Outcome → String
  | .help | .expanded _ => ""
  | .refused e => e.report
  | .failed e => e.report

end Outcome

def run (arguments : List String) (read : String → Except FileError ByteArray) : Outcome :=
  match Options.parse arguments with
  | .error stop => .ofStop stop
  | .ok options => .ofExpansion (options.expand read)

end CommandLine

end UriExpansion
