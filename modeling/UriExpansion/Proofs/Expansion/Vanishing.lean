import UriExpansion.Proofs.Expansion.Undefined
import UriExpansion.Proofs.Texts

/-!
# Expressions that vanish

An operator with a lead shows it as soon as one variable is defined, so such an expression is empty
only when all of its variables are undefined. A simple expression has no lead. It is empty also when
its only atom is the empty text, and a variable gives that atom in two ways only: it is bound to the
empty text, or to the list that holds nothing but the empty text.
-/

namespace UriExpansion

namespace Operator

theorem lead_eq_empty_iff {op : Operator} : op.lead = "" ↔ op = .simple := by
  cases op <;> simp [lead]

theorem separator_ne_empty (op : Operator) : op.separator ≠ "" := by
  cases op <;> simp [separator]

theorem joined_eq_empty_iff {op : Operator} {atoms : List String} :
    op.joined atoms = "" ↔ atoms = [] ∨ op = .simple ∧ atoms = [""] := by
  unfold joined
  split
  case isTrue hnil => simp [hnil]
  case isFalse hne =>
    rw [String.append_eq_empty_iff, lead_eq_empty_iff,
      intercalate_eq_empty_iff op.separator_ne_empty]
    simp [hne]

end Operator

theorem Value.intercalate_alternate_ne_empty {pairs : List (String × String)} (h : pairs ≠ []) :
    ",".intercalate (alternate pairs) ≠ "" := by
  intro hempty
  obtain ⟨pair, pairs, rfl⟩ := List.exists_cons_of_ne_nil h
  have htexts := (intercalate_eq_empty_iff (by decide)).1 hempty
  simp [alternate] at htexts

theorem VarSpec.atoms_simple_eq_singleton_empty_iff {v : VarSpec} {x : Option Value} :
    v.atoms .simple x = [""] ↔ x = some (.str "") ∨ x = some (.list [""]) := by
  cases x with
  | none => simp [atoms]
  | some x =>
    cases x with
    | str text => simp [atoms, Operator.label]
    | list items =>
      by_cases hitems : items = []
      · simp [atoms, hitems]
      · have hjoin : ",".intercalate items = "" ↔ items = [""] := by
          rw [intercalate_eq_empty_iff (by decide)]
          simp [hitems]
        have hlabel : Operator.label .simple v.name = id := rfl
        by_cases he : v.exploded <;> simp [atoms, hitems, he, hlabel, hjoin]
    | map pairs =>
      by_cases hpairs : pairs = []
      · simp [atoms, hpairs]
      · have hjoin := Value.intercalate_alternate_ne_empty hpairs
        by_cases he : v.exploded
        · have hpair : ∀ k x : String, k ++ "=" ++ x ≠ "" := by simp
          simp [atoms, hpairs, he, hpair]
        · simpa [atoms, hpairs, he, Operator.label, Value.alternate] using hjoin

namespace Expression

variable {e : Expression} {s : Store}

theorem atoms_eq_singleton_iff {a : String} :
    e.atoms s = [a] ↔ ∃ front v back, e.varspecs = front ++ v :: back ∧
      (∀ w ∈ front ++ back, s.Undefined w.name) ∧ v.atoms e.operator (s.get? v.name) = [a] := by
  rw [atoms, List.flatMap_def, List.flatten_eq_singleton_iff]
  constructor
  · intro h
    obtain ⟨before, behind, hmap, hbefore, hbehind⟩ := h
    obtain ⟨front, rest, hvars, rfl, hrest⟩ := List.map_eq_append_iff.1 hmap
    obtain ⟨v, back, rfl, hv, rfl⟩ := List.map_eq_cons_iff.1 hrest
    refine ⟨front, v, back, hvars, fun w hw => ?_, hv⟩
    apply VarSpec.atoms_get?_eq_nil_iff.1
    rcases List.mem_append.1 hw with hw | hw
    · exact hbefore _ (List.mem_map_of_mem hw)
    · exact hbehind _ (List.mem_map_of_mem hw)
  · intro h
    obtain ⟨front, v, back, hvars, hothers, hv⟩ := h
    have hnil : ∀ w ∈ front ++ back, w.atoms e.operator (s.get? w.name) = [] := fun w hw =>
      VarSpec.atoms_get?_eq_nil_iff.2 (hothers w hw)
    refine ⟨front.map _, back.map _, by rw [hvars, List.map_append, List.map_cons, hv], ?_, ?_⟩
    · simpa using fun w hw => hnil w (List.mem_append_left back hw)
    · simpa using fun w hw => hnil w (List.mem_append_right front hw)

/-- One occurrence of a variable is the only defined one, and its value is written as nothing. -/
def LoneBlank (e : Expression) (s : Store) : Prop :=
  ∃ front v back, e.varspecs = front ++ v :: back ∧ (∀ w ∈ front ++ back, s.Undefined w.name) ∧
    (s.get? v.name = some (.str "") ∨ s.get? v.name = some (.list [""]))

theorem atoms_simple_eq_singleton_empty_iff (h : e.operator = .simple) :
    e.atoms s = [""] ↔ e.LoneBlank s := by
  simp only [atoms_eq_singleton_iff, h, VarSpec.atoms_simple_eq_singleton_empty_iff, LoneBlank]

theorem expand_eq_empty_iff :
    e.expand s = "" ↔
      (∀ v ∈ e.varspecs, s.Undefined v.name) ∨ e.operator = .simple ∧ e.LoneBlank s := by
  rw [expand_eq_joined_atoms, Operator.joined_eq_empty_iff, atoms_eq_nil_iff]
  exact or_congr_right (and_congr_right atoms_simple_eq_singleton_empty_iff)

/-- With a lead, an expression vanishes exactly when all of its variables are undefined, and begins
with the lead otherwise. Without one, it also vanishes when the only occurrence of a defined
variable is bound to the empty text or to the list of one empty text. -/
theorem expand_vanishes_iff (e : Expression) (s : Store) :
    (e.operator ≠ .simple →
      (e.expand s = "" ↔ ∀ v ∈ e.varspecs, s.Undefined v.name) ∧
      ((∃ v ∈ e.varspecs, ¬s.Undefined v.name) → ∃ body, e.expand s = e.operator.lead ++ body)) ∧
    (e.operator = .simple →
      (e.expand s = "" ↔ (∀ v ∈ e.varspecs, s.Undefined v.name) ∨ e.LoneBlank s)) := by
  refine ⟨fun hlead => ⟨?_, fun hdefined => ⟨_, expand_of_defined hdefined⟩⟩, fun hsimple => ?_⟩
  · rw [expand_eq_empty_iff]
    simp [hlead]
  · rw [expand_eq_empty_iff]
    simp [hsimple]

theorem expand_vanishes_iff_at_blanks :
    (Operator.query ≠ .simple ∧ ¬Store.Undefined (.ofList [("x", .str "")]) "x" ∧
      expand ⟨.query, [⟨"l", true⟩, ⟨"x", false⟩]⟩ (.ofList [("x", .str "")]) ≠ "" ∧
      ∃ body, expand ⟨.query, [⟨"l", true⟩, ⟨"x", false⟩]⟩ (.ofList [("x", .str "")]) =
        "?" ++ body) ∧
    (LoneBlank ⟨.simple, [⟨"l", true⟩, ⟨"m", true⟩]⟩ (.ofList [("m", .map []), ("l", .list [""])]) ∧
      expand ⟨.simple, [⟨"l", true⟩, ⟨"m", true⟩]⟩
        (.ofList [("m", .map []), ("l", .list [""])]) = "") := by
  obtain ⟨hquery, -⟩ := expand_vanishes_iff ⟨.query, [⟨"l", true⟩, ⟨"x", false⟩]⟩
    (.ofList [("x", .str "")])
  obtain ⟨hempty, hlead⟩ := hquery (by decide)
  obtain ⟨-, hsimple⟩ := expand_vanishes_iff ⟨.simple, [⟨"l", true⟩, ⟨"m", true⟩]⟩
    (.ofList [("m", .map []), ("l", .list [""])])
  have hblank : LoneBlank ⟨.simple, [⟨"l", true⟩, ⟨"m", true⟩]⟩
      (.ofList [("m", .map []), ("l", .list [""])]) :=
    ⟨[], ⟨"l", true⟩, [⟨"m", true⟩], rfl, by decide, Or.inr rfl⟩
  refine ⟨⟨by decide, by decide, fun h => ?_, hlead ⟨⟨"x", false⟩, by simp, by decide⟩⟩, hblank, ?_⟩
  · exact absurd (hempty.1 h ⟨"x", false⟩ (by simp)) (by decide)
  · exact (hsimple rfl).2 (Or.inr hblank)

end Expression

end UriExpansion
