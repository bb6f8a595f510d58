import UriExpansion.Params
import UriExpansion.Template.Scan

/-!
# Expansion

Expansion is total: an undefined variable contributes nothing, and an expression without a defined
variable disappears together with its operator.
-/

namespace UriExpansion

def assignment (name text : String) : String :=
  name ++ "=" ++ text

namespace VarSpec

def render (v : VarSpec) (op : Operator) : Value → String
  | .str text => if op.named then assignment v.name text else text
  | .list items =>
    match v.exploded, op.named with
    | false, false => ",".intercalate items
    | false, true => assignment v.name (",".intercalate items)
    | true, false => op.separator.intercalate items
    | true, true => op.separator.intercalate (items.map (assignment v.name))
  | .map pairs =>
    match v.exploded, op.named with
    | false, false => ",".intercalate (Value.alternate pairs)
    | false, true => assignment v.name (",".intercalate (Value.alternate pairs))
    | true, _ => op.separator.intercalate (pairs.map fun (k, x) => assignment k x)

end VarSpec

namespace Store

def defined? (s : Store) (name : String) : Option Value :=
  (s.get? name).filter Value.defined

end Store

namespace Expression

def rendered (e : Expression) (s : Store) : List String :=
  e.varspecs.filterMap fun v => (s.defined? v.name).map (v.render e.operator)

def expand (e : Expression) (s : Store) : String :=
  match e.rendered s with
  | [] => ""
  | texts => e.operator.lead ++ e.operator.separator.intercalate texts

end Expression

namespace Segment

def expand (s : Store) : Segment → String
  | .literal text => text
  | .expression e => e.expand s

end Segment

def expandAll (segments : List Segment) (s : Store) : String :=
  String.join (segments.map (Segment.expand s))

namespace Template

def expand (t : Template) (s : Store) : String :=
  expandAll t.segments s

end Template

end UriExpansion
