/-!
# Parts of a template

A template is a sequence of segments: literal text, and expressions that list variables. An
expression begins with at most one operator character. The operator fixes what is written before the
expression, what stands between its values, and whether values carry their names.
-/

namespace UriExpansion

inductive Operator
  | simple
  | pathSegment
  | query
  | queryContinuation
  deriving DecidableEq

namespace Operator

def ofChar? : Char → Option Operator
  | '/' => some .pathSegment
  | '?' => some .query
  | '&' => some .queryContinuation
  | _ => none

def lead : Operator → String
  | .simple => ""
  | .pathSegment => "/"
  | .query => "?"
  | .queryContinuation => "&"

def separator : Operator → String
  | .simple => ","
  | .pathSegment => "/"
  | .query | .queryContinuation => "&"

def named : Operator → Bool
  | .query | .queryContinuation => true
  | .simple | .pathSegment => false

theorem ofChar?_eq_some_iff {c : Char} {op : Operator} :
    ofChar? c = some op ↔ op.lead = String.singleton c := by
  constructor
  · intro h
    unfold ofChar? at h
    split at h <;> first | (cases h; decide) | contradiction
  · intro h
    have hc : op.lead.toList = [c] := by rw [h]; simp
    cases op <;> simp [lead] at hc <;> subst hc <;> rfl

end Operator

structure VarSpec where
  name : String
  exploded : Bool
  deriving DecidableEq

structure Expression where
  operator : Operator
  varspecs : List VarSpec
  deriving DecidableEq

inductive Segment
  | literal (text : String)
  | expression (expr : Expression)
  deriving DecidableEq

namespace VarSpec

/-- A name with one trailing `*` is exploded; further stars belong to the name. -/
def ofToken (token : List Char) : VarSpec :=
  if token.getLast? = some '*' then ⟨String.ofList token.dropLast, true⟩
  else ⟨String.ofList token, false⟩

def token (v : VarSpec) : List Char :=
  v.name.toList ++ if v.exploded then ['*'] else []

theorem token_ofToken (t : List Char) : (ofToken t).token = t := by
  unfold ofToken token
  split
  case isTrue h =>
    obtain ⟨front, rfl⟩ := List.getLast?_eq_some_iff.1 h
    simp
  case isFalse h => simp

end VarSpec

namespace Expression

def varSpecs (list : List Char) : List VarSpec :=
  if list.isEmpty then [] else (list.splitOn ',').map VarSpec.ofToken

def ofBody : List Char → Expression
  | [] => ⟨.simple, []⟩
  | c :: cs =>
    match Operator.ofChar? c with
    | some op => ⟨op, varSpecs cs⟩
    | none => ⟨.simple, varSpecs (c :: cs)⟩

end Expression

namespace Segment

def vars : Segment → List VarSpec
  | .literal _ => []
  | .expression e => e.varspecs

end Segment

end UriExpansion
