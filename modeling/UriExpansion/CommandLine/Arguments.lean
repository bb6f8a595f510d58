/-!
# Arguments

The command takes a template, at most one parameter file, and any number of assignments. Arguments
are read in order, so the first fault or request for help decides.
-/

namespace UriExpansion

namespace CommandLine

structure Options where
  template : String
  file : Option String
  assignments : List String
  deriving DecidableEq

inductive UsageError
  | unexpected (argument : String)
  | missingValue (option : String)
  | unneededValue (option : String)
  | repeated (option : String)
  | missingTemplate
  deriving DecidableEq

inductive Stop
  | help
  | usage (e : UsageError)
  deriving DecidableEq

inductive Setting
  | params
  | set
  deriving DecidableEq

namespace Setting

def ofLong? : List Char → Option Setting
  | ['p', 'a', 'r', 'a', 'm', 's'] => some .params
  | ['s', 'e', 't'] => some .set
  | _ => none

def ofShort? : Char → Option Setting
  | 'p' => some .params
  | 's' => some .set
  | _ => none

def usage : Setting → String
  | .params => "--params <FILE>"
  | .set => "--set <NAME=VALUE>"

end Setting

structure Reading where
  template : Option String
  file : Option String
  assignments : List String

namespace Reading

def empty : Reading := ⟨none, none, []⟩

def fail {α : Type} (e : UsageError) : Except Stop α :=
  .error (.usage e)

def addTemplate (r : Reading) (argument : String) : Except Stop Reading :=
  match r.template with
  | none => .ok { r with template := some argument }
  | some _ => fail (.unexpected argument)

def addSetting (r : Reading) (value : String) : Setting → Except Stop Reading
  | .set => .ok { r with assignments := r.assignments ++ [value] }
  | .params =>
    match r.file with
    | none => .ok { r with file := some value }
    | some _ => fail (.repeated Setting.params.usage)

def isValue (argument : String) : Bool :=
  match argument.toList with
  | '-' :: _ :: _ => false
  | _ => true

inductive Shape
  | positional
  | escape
  | help
  | setting (s : Setting)
  | attached (s : Setting) (value : String)
  | fault (e : UsageError)

def longShape (argument : String) (cs : List Char) : Shape :=
  let name := cs.takeWhile (· ≠ '=')
  let value := (cs.dropWhile (· ≠ '=')).tail?
  match Setting.ofLong? name, value with
  | some s, none => .setting s
  | some s, some v => .attached s (String.ofList v)
  | none, _ =>
    if name = ['h', 'e', 'l', 'p'] then
      if value.isNone then .help else .fault (.unneededValue "--help")
    else .fault (.unexpected argument)

def shortShape (argument : String) (c : Char) (cs : List Char) : Shape :=
  match Setting.ofShort? c, cs with
  | some s, [] => .setting s
  | some s, '=' :: v | some s, v => .attached s (String.ofList v)
  | none, _ => if c = 'h' then .help else .fault (.unexpected argument)

def shape (argument : String) : Shape :=
  match argument.toList with
  | ['-', '-'] => .escape
  | '-' :: '-' :: cs => longShape argument cs
  | '-' :: c :: cs => shortShape argument c cs
  | _ => .positional

def readPositional : List String → Reading → Except Stop Reading
  | [], r => .ok r
  | a :: as, r => do readPositional as (← r.addTemplate a)

def read : List String → Reading → Except Stop Reading
  | [], r => .ok r
  | a :: as, r =>
    match shape a with
    | .positional => do read as (← r.addTemplate a)
    | .escape => readPositional as r
    | .help => .error .help
    | .attached s value => do read as (← r.addSetting value s)
    | .fault e => fail e
    | .setting s =>
      match as with
      | [] => fail (.missingValue s.usage)
      | v :: as => do
        if isValue v then read as (← r.addSetting v s) else fail (.missingValue s.usage)

def finish (r : Reading) : Except Stop Options :=
  match r.template with
  | some template => .ok ⟨template, r.file, r.assignments⟩
  | none => fail .missingTemplate

end Reading

namespace Options

def parse (arguments : List String) : Except Stop Options :=
  (Reading.read arguments .empty).bind Reading.finish

end Options

end CommandLine

end UriExpansion
