import Mathlib.Data.List.Chain
import UriExpansion.Proofs.Template.Source
import UriExpansion.Proofs.Texts

/-!
# Canonical segments

The segments that some template text reads as. A canonical literal cannot be taken for a brace or
run into the next literal, and a canonical expression cannot be read back in another way: no name
holds a character that ends it, and none begins or ends with a character that has a meaning there.
-/

namespace UriExpansion

structure VarSpec.Canonical (v : VarSpec) : Prop where
  comma : ',' ∉ v.name.toList
  brace : '}' ∉ v.name.toList
  star : v.exploded = false → v.name.toList.getLast? ≠ some '*'

structure Expression.Canonical (e : Expression) : Prop where
  varspecs : ∀ v ∈ e.varspecs, v.Canonical
  nonempty : e.varspecs ≠ [⟨"", false⟩]
  operator : e.operator = .simple →
    ∀ v ∈ e.varspecs.head?, v.name.toList.head? ∉ [some '/', some '?', some '&']

namespace Segment

def isLiteral : Segment → Bool
  | .literal _ => true
  | .expression _ => false

def Canonical : Segment → Prop
  | .literal text => text ≠ "" ∧ '{' ∉ text.toList
  | .expression e => e.Canonical

end Segment

/-- Every segment is canonical, and no literal follows a literal. -/
structure Canonical (segments : List Segment) : Prop where
  each : ∀ x ∈ segments, x.Canonical
  apart : segments.IsChain fun x y => ¬(x.isLiteral ∧ y.isLiteral)

instance (v : VarSpec) : Decidable v.Canonical :=
  decidable_of_iff (',' ∉ v.name.toList ∧ '}' ∉ v.name.toList ∧
      (v.exploded = false → v.name.toList.getLast? ≠ some '*'))
    ⟨fun ⟨hcomma, hbrace, hstar⟩ => ⟨hcomma, hbrace, hstar⟩,
      fun ⟨hcomma, hbrace, hstar⟩ => ⟨hcomma, hbrace, hstar⟩⟩

instance (e : Expression) : Decidable e.Canonical :=
  decidable_of_iff ((∀ v ∈ e.varspecs, v.Canonical) ∧ e.varspecs ≠ [⟨"", false⟩] ∧
      (e.operator = .simple →
        ∀ v ∈ e.varspecs.head?, v.name.toList.head? ∉ [some '/', some '?', some '&']))
    ⟨fun ⟨hvs, hne, hop⟩ => ⟨hvs, hne, hop⟩, fun ⟨hvs, hne, hop⟩ => ⟨hvs, hne, hop⟩⟩

instance : DecidablePred Segment.Canonical
  | .literal text => inferInstanceAs (Decidable (text ≠ "" ∧ '{' ∉ text.toList))
  | .expression e => inferInstanceAs (Decidable e.Canonical)

instance (segments : List Segment) : Decidable (Canonical segments) :=
  decidable_of_iff ((∀ x ∈ segments, x.Canonical) ∧
      segments.IsChain fun x y => ¬(x.isLiteral ∧ y.isLiteral))
    ⟨fun ⟨heach, hapart⟩ => ⟨heach, hapart⟩, fun ⟨heach, hapart⟩ => ⟨heach, hapart⟩⟩

theorem Operator.ofChar?_eq_none_iff {c : Char} :
    Operator.ofChar? c = none ↔ c ∉ ['/', '?', '&'] := by
  unfold ofChar?
  split <;> simp_all

namespace VarSpec

theorem canonical_ofToken {token : List Char} (hcomma : ',' ∉ token) (hbrace : '}' ∉ token) :
    (ofToken token).Canonical := by
  unfold ofToken
  split
  case isTrue h =>
    obtain ⟨front, rfl⟩ := List.getLast?_eq_some_iff.1 h
    exact ⟨by simp_all, by simp_all, by simp⟩
  case isFalse h => exact ⟨by simpa, by simpa, by simpa⟩

theorem ofToken_token {v : VarSpec} (h : v.Canonical) : ofToken v.token = v := by
  obtain ⟨name, exploded⟩ := v
  cases exploded with
  | true => simp [token, ofToken]
  | false =>
    have hs := h.star rfl
    simp_all [token, ofToken]

theorem token_eq_nil_iff {v : VarSpec} : v.token = [] ↔ v = ⟨"", false⟩ := by
  obtain ⟨name, exploded⟩ := v
  cases exploded <;> simp [token]

theorem head?_intercalate_tokens {c : Char} (hcomma : c ≠ ',') (hstar : c ≠ '*') (v : VarSpec)
    (vs : List VarSpec) :
    ([','].intercalate ((v :: vs).map token)).head? = some c ↔ v.name.toList.head? = some c := by
  obtain ⟨name, exploded⟩ := v
  cases hn : name.toList <;> cases exploded <;> cases vs <;>
    simp [token, hn, hcomma.symm, hstar.symm]

theorem forall_head?_intercalate_tokens_iff (vs : List VarSpec) :
    (∀ c ∈ ([','].intercalate (vs.map token)).head?, Operator.ofChar? c = none) ↔
      ∀ v ∈ vs.head?, v.name.toList.head? ∉ [some '/', some '?', some '&'] := by
  cases vs with
  | nil => simp
  | cons v vs =>
    have hhead : ∀ c ∈ ['/', '?', '&'],
        (([','].intercalate ((v :: vs).map token)).head? = some c ↔
          v.name.toList.head? = some c) := by
      intro c hc
      refine head?_intercalate_tokens ?_ ?_ v vs <;> rintro rfl <;> simp at hc
    simp only [List.head?_cons, Option.mem_def, Option.some.injEq, forall_eq',
      Operator.ofChar?_eq_none_iff]
    have hops : [some '/', some '?', some '&'] = ['/', '?', '&'].map some := rfl
    rw [hops, List.mem_map]
    constructor
    · rintro h ⟨c, hc, hname⟩
      exact h c ((hhead c hc).2 hname.symm) hc
    · intro h c hlist hc
      exact h ⟨c, hc, ((hhead c hc).1 hlist).symm⟩

theorem varSpecs_intercalate {vs : List VarSpec} (hvs : ∀ v ∈ vs, v.Canonical)
    (hne : vs ≠ [⟨"", false⟩]) :
    Expression.varSpecs ([','].intercalate (vs.map token)) = vs := by
  cases vs with
  | nil => rfl
  | cons v vs =>
    have hlist : [','].intercalate ((v :: vs).map token) ≠ [] := by
      cases vs with
      | nil =>
        intro h
        rw [List.map_singleton, List.intercalate_singleton] at h
        exact hne (by rw [token_eq_nil_iff.1 h])
      | cons w ws => simp
    have hcomma : ∀ l ∈ (v :: vs).map token, ',' ∉ l := by
      intro l hl
      obtain ⟨w, hw, rfl⟩ := List.mem_map.1 hl
      have hc := (hvs w hw).comma
      cases he : w.exploded <;> simp [token, hc, he]
    have hback : ∀ w ∈ v :: vs, (ofToken ∘ token) w = w := fun w hw => ofToken_token (hvs w hw)
    rw [Expression.varSpecs, if_neg (by simpa using hlist),
      List.splitOn_intercalate ',' hcomma (by simp), List.map_map, List.map_congr_left hback,
      List.map_id']

end VarSpec

namespace Expression

theorem canonical_of_mem_varSpecs {list : List Char} (hbrace : '}' ∉ list) {v : VarSpec}
    (hv : v ∈ varSpecs list) : v.Canonical := by
  unfold varSpecs at hv
  split at hv
  case isTrue => cases hv
  case isFalse =>
    obtain ⟨piece, hpiece, rfl⟩ := List.mem_map.1 hv
    obtain ⟨hcomma, hmem⟩ := mem_splitOn hpiece
    exact VarSpec.canonical_ofToken hcomma fun h => hbrace (hmem _ h)

theorem varSpecs_ne_singleton_empty (list : List Char) : varSpecs list ≠ [⟨"", false⟩] := by
  intro h
  have hlist := intercalate_varSpecs list
  rw [h] at hlist
  have hnil : list = [] := by simpa [VarSpec.token] using hlist.symm
  subst hnil
  cases h

theorem canonical_ofBody {body : List Char} (hbody : '}' ∉ body) : (ofBody body).Canonical := by
  obtain ⟨op, list, rfl, hop⟩ := exists_eq_lead_append body
  rw [ofBody_lead_append op list hop]
  have hlist : '}' ∉ list := fun h => hbody (List.mem_append_right _ h)
  refine ⟨fun v hv => canonical_of_mem_varSpecs hlist hv, varSpecs_ne_singleton_empty list, ?_⟩
  intro hsimple
  apply (VarSpec.forall_head?_intercalate_tokens_iff (varSpecs list)).1
  rw [intercalate_varSpecs]
  exact hop hsimple

theorem ofBody_body {e : Expression} (h : e.Canonical) : ofBody e.body = e := by
  rw [body, ofBody_lead_append, VarSpec.varSpecs_intercalate h.varspecs h.nonempty]
  intro hsimple
  exact (VarSpec.forall_head?_intercalate_tokens_iff e.varspecs).2 (h.operator hsimple)

theorem brace_not_mem_body {e : Expression} (h : e.Canonical) : '}' ∉ e.body := by
  intro hmem
  rcases List.mem_append.1 hmem with hlead | hlist
  · cases hop : e.operator <;> simp [hop, Operator.lead] at hlead
  · rcases mem_of_mem_intercalate hlist with hsep | ⟨token, htoken, hmem⟩
    · simp at hsep
    · obtain ⟨v, hv, rfl⟩ := List.mem_map.1 htoken
      have hb := (h.varspecs v hv).brace
      cases he : v.exploded <;> simp [VarSpec.token, he, hb] at hmem

end Expression

end UriExpansion
