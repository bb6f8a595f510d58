import Mathlib.Data.List.Basic
import UriExpansion.Template.Scan

/-!
# Source text of segments

The text that a segment stands for: a literal is its own text, and an expression is its operator and
its variables between two braces. Reading the body of an expression and printing it again gives the
body, so nothing of it is lost.
-/

namespace UriExpansion

namespace Expression

def body (e : Expression) : List Char :=
  e.operator.lead.toList ++ [','].intercalate (e.varspecs.map VarSpec.token)

end Expression

namespace Segment

def source : Segment → List Char
  | .literal text => text.toList
  | .expression e => '{' :: (e.body ++ ['}'])

end Segment

def sourceOf (segments : List Segment) : String :=
  String.ofList (segments.flatMap Segment.source)

theorem toList_sourceOf (segments : List Segment) :
    (sourceOf segments).toList = segments.flatMap Segment.source :=
  String.toList_ofList

namespace Expression

theorem intercalate_varSpecs (list : List Char) :
    [','].intercalate ((varSpecs list).map VarSpec.token) = list := by
  unfold varSpecs
  split
  case isTrue h => simp [List.isEmpty_iff.1 h]
  case isFalse h =>
    have ht : VarSpec.token ∘ VarSpec.ofToken = id := funext VarSpec.token_ofToken
    rw [List.map_map, ht, List.map_id, List.intercalate_splitOn]

theorem ofBody_lead_append (op : Operator) (list : List Char)
    (h : op = .simple → ∀ c ∈ list.head?, Operator.ofChar? c = none) :
    ofBody (op.lead.toList ++ list) = ⟨op, varSpecs list⟩ := by
  cases op with
  | simple =>
    cases list with
    | nil => rfl
    | cons c cs => simp [Operator.lead, ofBody, h rfl c rfl]
  | pathSegment => simp [Operator.lead, ofBody, Operator.ofChar?]
  | query => simp [Operator.lead, ofBody, Operator.ofChar?]
  | queryContinuation => simp [Operator.lead, ofBody, Operator.ofChar?]

theorem exists_eq_lead_append (body : List Char) : ∃ (op : Operator) (list : List Char),
    body = op.lead.toList ++ list ∧
      (op = .simple → ∀ c ∈ list.head?, Operator.ofChar? c = none) := by
  cases body with
  | nil => exact ⟨.simple, [], by simp [Operator.lead], by simp⟩
  | cons c cs =>
    cases hop : Operator.ofChar? c with
    | none => exact ⟨.simple, c :: cs, by simp [Operator.lead], by simp [hop]⟩
    | some op =>
      have hl := Operator.ofChar?_eq_some_iff.1 hop
      refine ⟨op, cs, by simp [hl], ?_⟩
      rintro rfl
      have he := congrArg String.toList hl
      simp [Operator.lead] at he

theorem body_ofBody (body : List Char) : (ofBody body).body = body := by
  obtain ⟨op, list, rfl, h⟩ := exists_eq_lead_append body
  rw [ofBody_lead_append op list h, Expression.body, intercalate_varSpecs]

end Expression

theorem Segment.source_ofBody (body : List Char) :
    (Segment.expression (.ofBody body)).source = '{' :: (body ++ ['}']) := by
  rw [source, Expression.body_ofBody]

end UriExpansion
