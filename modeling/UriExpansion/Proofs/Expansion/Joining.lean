import UriExpansion.Proofs.Expansion.Decoding

/-!
# Joined collections read back

A variable that is not exploded is written as all of its texts, joined by commas behind the name if
the operator asks for one. As long as no text holds a comma, cutting at the commas gives the texts
back, one for each place: an empty text leaves two commas side by side and moves nothing. The texts
of a map are its keys and values in turn, so the pairs are found two by two.
-/

namespace UriExpansion

def pairUp : List String → Option (List (String × String))
  | [] => some []
  | [_] => none
  | k :: v :: texts => (pairUp texts).map ((k, v) :: ·)

theorem pairUp_alternate (pairs : List (String × String)) :
    pairUp (Value.alternate pairs) = some pairs := by
  induction pairs with
  | nil => rfl
  | cons pair pairs ih =>
    have hcons : Value.alternate (pair :: pairs) =
        pair.1 :: pair.2 :: Value.alternate pairs := rfl
    rw [hcons, pairUp, ih, Option.map_some]

namespace Value

theorem alternate_injective : Function.Injective alternate := by
  intro pairs pairs' h
  apply Option.some.inj
  rw [← pairUp_alternate pairs, h, pairUp_alternate]

theorem texts_ne_nil {x : Value} (hx : x.defined = true) : x.texts ≠ [] := by
  cases x with
  | str text => exact List.cons_ne_nil text []
  | list items => simpa [defined, texts] using hx
  | map pairs =>
    cases pairs with
    | nil => cases hx
    | cons pair pairs => exact List.cons_ne_nil _ _

structure CommaFree (x : Value) : Prop where
  defined : x.defined = true
  commas : ∀ text ∈ x.texts, ',' ∉ text.toList

theorem CommaFree.pieces_intercalate {x : Value} (h : x.CommaFree) :
    pieces ',' (",".intercalate x.texts) = x.texts :=
  UriExpansion.pieces_intercalate (texts_ne_nil h.defined) h.commas

end Value

namespace Operator

theorem label_injective (op : Operator) (name : String) : Function.Injective (op.label name) := by
  rw [label_eq]
  split
  case isTrue =>
    intro text text' h
    simpa [assignment] using h
  case isFalse => exact Function.injective_id

end Operator

namespace VarSpec

variable {v : VarSpec} {op : Operator} {x y : Value}

theorem render_of_not_exploded (hv : v.exploded = false) (op : Operator) (x : Value) :
    v.render op x = op.label v.name (",".intercalate x.texts) := by
  cases x <;> cases hnamed : op.named <;>
    simp [render, Value.texts, Operator.label_eq, hv, hnamed]

theorem pieces_render (hv : v.exploded = false) (hop : op.named = false) (hx : x.CommaFree) :
    pieces ',' (v.render op x) = x.texts := by
  rw [render_of_not_exploded hv, Operator.label_of_unnamed hop, id, hx.pieces_intercalate]

theorem texts_eq_of_render_eq (hv : v.exploded = false) (hx : x.CommaFree) (hy : y.CommaFree)
    (h : v.render op x = v.render op y) : x.texts = y.texts := by
  rw [render_of_not_exploded hv, render_of_not_exploded hv] at h
  rw [← hx.pieces_intercalate, op.label_injective v.name h, hy.pieces_intercalate]

/-- Collections without commas can be read back from their joined text, repeated and empty members
included, and under every operator no two lists and no two maps share it. -/
theorem render_reads_back (v : VarSpec) (op : Operator) (hv : v.exploded = false) :
    (∀ items, Value.CommaFree (.list items) → op.named = false →
      pieces ',' (v.render op (.list items)) = items) ∧
    (∀ pairs, Value.CommaFree (.map pairs) → op.named = false →
      pairUp (pieces ',' (v.render op (.map pairs))) = some pairs) ∧
    (∀ items items', Value.CommaFree (.list items) → Value.CommaFree (.list items') →
      (v.render op (.list items) = v.render op (.list items') ↔ items = items')) ∧
    ∀ pairs pairs', Value.CommaFree (.map pairs) → Value.CommaFree (.map pairs') →
      (v.render op (.map pairs) = v.render op (.map pairs') ↔ pairs = pairs') := by
  refine ⟨?_, ?_, ?_, ?_⟩
  · intro items hitems hop
    exact pieces_render hv hop hitems
  · intro pairs hpairs hop
    rw [pieces_render hv hop hpairs]
    exact pairUp_alternate pairs
  · intro items items' hitems hitems'
    exact ⟨texts_eq_of_render_eq hv hitems hitems', fun h => by rw [h]⟩
  · intro pairs pairs' hpairs hpairs'
    refine ⟨fun h => ?_, fun h => by rw [h]⟩
    exact Value.alternate_injective (texts_eq_of_render_eq hv hpairs hpairs' h)

theorem render_reads_back_at_empty_members :
    pieces ',' (render ⟨"x", false⟩ .pathSegment (.list ["", "é", "é", ""])) =
      ["", "é", "é", ""] ∧
    render ⟨"x", false⟩ .simple (.map [("", "1"), ("k", ""), ("", "1")]) = ",1,k,,,1" ∧
    pairUp (pieces ',' (render ⟨"x", false⟩ .simple (.map [("", "1"), ("k", ""), ("", "1")]))) =
      some [("", "1"), ("k", ""), ("", "1")] ∧
    render ⟨"x", false⟩ .query (.list ["", "a"]) ≠ render ⟨"x", false⟩ .query (.list ["a", ""]) ∧
    render ⟨"x", false⟩ .query (.map [("", ""), ("a", "")]) ≠
      render ⟨"x", false⟩ .query (.map [("", "a"), ("", "")]) := by
  obtain ⟨hitems, -⟩ := render_reads_back ⟨"x", false⟩ .pathSegment rfl
  obtain ⟨-, hpairs, -⟩ := render_reads_back ⟨"x", false⟩ .simple rfl
  obtain ⟨-, -, hlists, hmaps⟩ := render_reads_back ⟨"x", false⟩ .query rfl
  refine ⟨hitems _ ⟨rfl, by decide⟩ rfl, rfl, hpairs _ ⟨rfl, by decide⟩ rfl, fun h => ?_,
    fun h => ?_⟩
  · exact absurd ((hlists _ _ ⟨rfl, by decide⟩ ⟨rfl, by decide⟩).1 h) (by decide)
  · exact absurd ((hmaps _ _ ⟨rfl, by decide⟩ ⟨rfl, by decide⟩).1 h) (by decide)

end VarSpec

end UriExpansion
