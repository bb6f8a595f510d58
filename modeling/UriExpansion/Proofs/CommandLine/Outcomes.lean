import UriExpansion.Proofs.CommandLine.Assignments

/-!
# Outcomes of a run

A run checks the template, then loads the parameter file if one is given, then makes the
assignments. It fails with the first of these that goes wrong, and writes nothing then. Otherwise it
writes the expansion under a store in which assignments override the file.
-/

namespace UriExpansion

namespace CommandLine

namespace Reading

end Reading

namespace Options

def arguments (o : Options) : List String :=
  o.assignments.map ("--set=" ++ ·) ++ (o.file.toList.map ("--params=" ++ ·) ++ ["--", o.template])

end Options

variable {read : String → Except FileError ByteArray} {o : Options} {e : Failure}

end CommandLine

end UriExpansion
