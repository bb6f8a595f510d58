import UriExpansion.Proofs.Decimal.Layouts
import UriExpansion.Proofs.Json.Effects

/-!
# Two texts of one number

A document that is bound writes its numbers as JSON does; a parameter that is read off a text gets
the canonical text of its numbers. The two agree on integers, and on doubles that have a fraction
and are neither very large nor very small. So the bindings of a flat document agree exactly when all
of its numbers are of this kind.
-/

namespace UriExpansion

namespace JsonNumber

/-- The number is an integer, or a double between `1e-5` and `1e16` whose shortest decimal has a
fraction and does not depend on how ties go. -/
def WrittenAlike : JsonNumber → Prop
  | .natural _ | .negative _ => True
  | .float _ x =>
    (x.shortest .toEven).value = (x.shortest .upward).value ∧
    (∀ n : ℕ, (x.shortest .toEven).value ≠ n) ∧
    1 / 10 ^ 5 ≤ (x.shortest .toEven).value ∧ (x.shortest .toEven).value < 10 ^ 16

theorem jsonText_eq_canonical_iff {n : JsonNumber} :
    n.jsonText = n.toScalar.canonical ↔ n.WrittenAlike := by
  cases n with
  | natural n => exact iff_of_true rfl trivial
  | negative n => exact iff_of_true rfl trivial
  | float sign x =>
    simp only [jsonText, toScalar, Scalar.canonical, NumberLayout.text, String.append_right_inj]
    exact NumberLayout.json_decimalText_eq_plain_iff

end JsonNumber

namespace Json

open JsonNumber

def number? : Json → Option JsonNumber
  | .number n => some n
  | .null | .bool _ | .string _ | .array _ | .object _ => none

def numbers (j : Json) : List JsonNumber :=
  (j :: j.parts).filterMap number?

/-- What a name is bound to by a document, given how numbers are written. -/
def valueBy (write : JsonNumber → String) : Json → Option Value
  | .null => none
  | j => some (j.boundBy write)

variable {write write' : JsonNumber → String} {j : Json}

theorem memberTextBy_eq_iff : j.memberTextBy write = j.memberTextBy write' ↔
    ∀ n, j.number? = some n → write n = write' n := by
  cases j <;> simp [memberTextBy, number?]

theorem forall_mem_numbers_iff {P : JsonNumber → Prop} : (∀ n ∈ j.numbers, P n) ↔
    (∀ n, j.number? = some n → P n) ∧ ∀ x ∈ j.parts, ∀ n, x.number? = some n → P n := by
  rw [numbers, List.forall_mem_filterMap, List.forall_mem_cons]

theorem valueBy_eq_iff :
    j.valueBy write = j.valueBy write' ↔ ∀ n ∈ j.numbers, write n = write' n := by
  rw [forall_mem_numbers_iff]
  cases j with
  | array items => simp [valueBy, boundBy, number?, parts, memberTextBy_eq_iff]
  | object members =>
    rw [parts, List.forall_mem_map]
    simp [valueBy, boundBy, number?, memberTextBy_eq_iff]
  | _ => simp [valueBy, boundBy, memberTextBy, number?, parts]

theorem valueBy_of_ne_null (h : j ≠ .null) : j.valueBy write = some (j.boundBy write) := by
  cases j with
  | null => exact absurd rfl h
  | _ => rfl

theorem value?_eq_valueBy (j : Json) : j.value? = j.valueBy jsonText := by
  by_cases h : j = .null
  · subst h
    rfl
  · rw [value?_eq_boundBy h, valueBy_of_ne_null h]

theorem valueBy_of_toValue {v : Value} (h : j.toValue = .ok v) :
    j.valueBy canonicalText = some v := by
  have hnull : j ≠ .null := (exists_toValue_eq_ok_iff.1 ⟨v, h⟩).2
  rw [valueBy_of_ne_null hnull, boundBy_of_toValue h]

theorem get?_bindJson (s : Store) (name : String) (j : Json) :
    (s.bindJson name j).get? name = j.valueBy jsonText := by
  rw [Store.bindJson, Store.get?_apply, ← value?_eq_valueBy]
  cases j.value? <;> simp [Change.ofOption, Change.name, Change.value?]

theorem get?_bindJson_eq_iff (s : Store) (name : String) {v : Value}
    (h : j.valueBy canonicalText = some v) :
    (s.bindJson name j).get? name = some v ↔ ∀ n ∈ j.numbers, n.WrittenAlike := by
  rw [get?_bindJson, ← h, valueBy_eq_iff]
  exact forall₂_congr fun _ _ => jsonText_eq_canonical_iff

/-- A text that is accepted as a document can be bound to a name, and when what is written is flat
it can also stand as the value of a parameter. The first way writes its numbers as JSON does, the
second one canonically, so the two bind the same exactly when every number is written alike. -/
theorem bindJson_agrees_iff_writtenAlike {key name text : String} {d : Json}
    (hkey : parse key = .ok (.string name)) (htext : parse text = .ok d) :
    ∃ j, parseWritten text = .ok j ∧ j.merge = d ∧
      (j.isFlat → j ≠ .null → ∃ s v, Store.parse (singleMember key text) .json = .ok s ∧
        s.entries = [(name, v)] ∧ d.valueBy canonicalText = some v.merged ∧
        ∀ p : Store, (p.bindJson name d).get? name = d.valueBy jsonText ∧
          ((p.bindJson name d).get? name = some v.merged ↔ ∀ n ∈ d.numbers, n.WrittenAlike)) := by
  obtain ⟨j, hwritten, rfl⟩ := (follows_readValue_written depthLimit).readText htext
  refine ⟨j, hwritten, rfl, fun hflat hnull => ?_⟩
  obtain ⟨s, v, hparse, hentries, hv⟩ := exists_parse_single hkey hwritten hflat hnull
  have hmerged := valueBy_of_toValue (toValue_merge hv)
  exact ⟨s, v, hparse, hentries, hmerged, fun p =>
    ⟨get?_bindJson p name j.merge, get?_bindJson_eq_iff p name hmerged⟩⟩

theorem bindJson_agrees_iff_writtenAlike_at_quarter :
    ∃ d s, parse "[1,0.25]" = .ok d ∧ (∀ n ∈ d.numbers, n.WrittenAlike) ∧
      (∀ p : Store, (p.bindJson "x" d).get? "x" = some (.list ["1", "0.25"])) ∧
      Store.parse (singleMember "\"x\"" "[1,0.25]") .json = .ok s ∧
      s.entries = [("x", .list ["1", "0.25"])] := by
  have hread : parse "[1,0.25]" =
      .ok (.array [.number (.natural 1), .number (.float false ⟨4503599627370496, -54⟩)]) := rfl
  have hwritten : parseWritten "[1,0.25]" =
      .ok (.array [.number (.natural 1), .number (.float false ⟨4503599627370496, -54⟩)]) := rfl
  have hstore : Store.parse (singleMember "\"x\"" "[1,0.25]") .json =
      .ok ⟨[("x", .list ["1", "0.25"])], by decide⟩ := rfl
  have hkey : parse "\"x\"" = .ok (.string "x") := rfl
  obtain ⟨j, hj, -, hbound⟩ := bindJson_agrees_iff_writtenAlike hkey hread
  cases hwritten.symm.trans hj
  obtain ⟨s, v, hparse, hentries, -, hbind⟩ := hbound rfl nofun
  cases hstore.symm.trans hparse
  cases hentries
  have hlist : ∀ p : Store, (p.bindJson "x" _).get? "x" = some (.list ["1", "0.25"]) := fun p =>
    (hbind p).1.trans rfl
  exact ⟨_, _, hread, (hbind ∅).2.1 (hlist ∅), hlist, hstore, rfl⟩

theorem bindJson_differs_at_whole_double :
    ¬∀ (key name text : String) (n : JsonNumber) (s : Store),
      parse key = .ok (.string name) → parse text = .ok (.number n) →
      Store.parse (singleMember key text) .json = .ok s →
      ((∅ : Store).bindJson name (.number n)).get? name = s.get? name := by
  intro h
  have hstore : Store.parse (singleMember "\"x\"" "1.0") .json =
      .ok ⟨[("x", .str "1")], by decide⟩ := rfl
  have hone := h "\"x\"" "x" "1.0" (.float false ⟨4503599627370496, -52⟩) _ rfl rfl hstore
  have htext : ((∅ : Store).bindJson "x"
      (.number (.float false ⟨4503599627370496, -52⟩))).get? "x" = some (.str "1.0") := rfl
  rw [htext] at hone
  revert hone
  decide

end Json

end UriExpansion
