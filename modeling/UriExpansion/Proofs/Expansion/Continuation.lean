import UriExpansion.Proofs.Expansion.Undefined

/-!
# Expressions that continue each other

One operator continues another when it begins with the separator of the other and writes values in
the same way. Then the seam between two expressions looks like a place between two variables of one
expression, wherever the variables are split, as long as something is written ahead of the seam.
-/

namespace UriExpansion

namespace Operator

structure Continues (second first : Operator) : Prop where
  lead : second.lead = first.separator
  separator : second.separator = first.separator
  named : second.named = first.named

theorem pathSegment_continues : Continues .pathSegment .pathSegment :=
  ⟨rfl, rfl, rfl⟩

theorem queryContinuation_continues : Continues .queryContinuation .queryContinuation :=
  ⟨rfl, rfl, rfl⟩

theorem queryContinuation_continues_query : Continues .queryContinuation .query :=
  ⟨rfl, rfl, rfl⟩

variable {first second : Operator}

theorem Continues.label (h : second.Continues first) : second.label = first.label := by
  funext name
  rw [label_eq, label_eq, h.named]

theorem Continues.joined_append (h : second.Continues first) {xs : List String} (hxs : xs ≠ [])
    (ys : List String) : first.joined (xs ++ ys) = first.joined xs ++ second.joined ys := by
  by_cases hys : ys = []
  · simp [hys, joined]
  · have happend : xs ++ ys ≠ [] := List.append_ne_nil_of_left_ne_nil hxs ys
    have hjoin : first.separator.intercalate (xs ++ ys) =
        first.separator.intercalate xs ++ (second.lead ++ second.separator.intercalate ys) := by
      rw [String.intercalate_append_of_ne_nil hxs hys, h.lead, h.separator, String.append_assoc]
    rw [joined, joined, joined, if_neg happend, if_neg hxs, if_neg hys, hjoin, String.append_assoc]

end Operator

namespace Expression

variable {first second op : Operator} {s : Store} {xs : List VarSpec}

theorem atoms_append (op : Operator) (xs ys : List VarSpec) (s : Store) :
    atoms ⟨op, xs ++ ys⟩ s = atoms ⟨op, xs⟩ s ++ atoms ⟨op, ys⟩ s :=
  List.flatMap_append

theorem atoms_of_continues (h : second.Continues first) (ys : List VarSpec) (s : Store) :
    atoms ⟨second, ys⟩ s = atoms ⟨first, ys⟩ s := by
  have hvar : ∀ (v : VarSpec) (x : Option Value), v.atoms second x = v.atoms first x := by
    intro v x
    unfold VarSpec.atoms
    rw [h.label]
  simp only [atoms, hvar]

theorem expand_append_of_undefined (hxs : ∀ v ∈ xs, s.Undefined v.name) (ys : List VarSpec) :
    expand ⟨op, xs ++ ys⟩ s = expand ⟨op, ys⟩ s := by
  have hnil : atoms ⟨op, xs⟩ s = [] := atoms_eq_nil_iff.2 hxs
  rw [expand_eq_joined_atoms, expand_eq_joined_atoms, atoms_append, hnil, List.nil_append]

theorem expand_append_of_defined (h : second.Continues first)
    (hxs : ∃ v ∈ xs, ¬s.Undefined v.name) (ys : List VarSpec) :
    expand ⟨first, xs ++ ys⟩ s = expand ⟨first, xs⟩ s ++ expand ⟨second, ys⟩ s := by
  have hne : atoms ⟨first, xs⟩ s ≠ [] := atoms_ne_nil_iff.2 hxs
  simp only [expand_eq_joined_atoms]
  rw [atoms_append, atoms_of_continues h, h.joined_append hne]

theorem expand_append_self (h : op.Continues op) (xs ys : List VarSpec) (s : Store) :
    expand ⟨op, xs ++ ys⟩ s = expand ⟨op, xs⟩ s ++ expand ⟨op, ys⟩ s := by
  by_cases hxs : ∃ v ∈ xs, ¬s.Undefined v.name
  · exact expand_append_of_defined h hxs ys
  · have hundefined : ∀ v ∈ xs, s.Undefined v.name := by simpa using hxs
    have hempty : expand ⟨op, xs⟩ s = "" := expand_of_undefined hundefined
    rw [expand_append_of_undefined hundefined, hempty, String.empty_append]

/-- Path segments and query continuations can be split between any two variables. A query is
continued behind its first defined variable, and begins there if none is defined ahead. -/
theorem expand_append_continues (xs ys : List VarSpec) (s : Store) :
    expand ⟨.pathSegment, xs ++ ys⟩ s =
      expand ⟨.pathSegment, xs⟩ s ++ expand ⟨.pathSegment, ys⟩ s ∧
    expand ⟨.queryContinuation, xs ++ ys⟩ s =
      expand ⟨.queryContinuation, xs⟩ s ++ expand ⟨.queryContinuation, ys⟩ s ∧
    ((∃ v ∈ xs, ¬s.Undefined v.name) → expand ⟨.query, xs ++ ys⟩ s =
      expand ⟨.query, xs⟩ s ++ expand ⟨.queryContinuation, ys⟩ s) ∧
    ((∀ v ∈ xs, s.Undefined v.name) → expand ⟨.query, xs ++ ys⟩ s = expand ⟨.query, ys⟩ s) :=
  ⟨expand_append_self Operator.pathSegment_continues xs ys s,
    expand_append_self Operator.queryContinuation_continues xs ys s,
    fun hxs => expand_append_of_defined Operator.queryContinuation_continues_query hxs ys,
    fun hxs => expand_append_of_undefined hxs ys⟩

theorem expand_append_continues_at_map :
    (¬Store.Undefined (.ofList [("m", .map [("k", "1"), ("k", "2")]), ("l", .list [])]) "m" ∧
      expand ⟨.query, [⟨"l", true⟩, ⟨"m", true⟩] ++ [⟨"m", false⟩]⟩
        (.ofList [("m", .map [("k", "1"), ("k", "2")]), ("l", .list [])]) =
        "?k=1&k=2" ++ "&m=k,1,k,2") ∧
    (Store.Undefined (.ofList [("l", .list []), ("x", .str "")]) "l" ∧
      expand ⟨.query, [⟨"l", true⟩, ⟨"u", false⟩] ++ [⟨"x", false⟩]⟩
        (.ofList [("l", .list []), ("x", .str "")]) = "?x=") := by
  obtain ⟨-, -, hdefined, -⟩ := expand_append_continues [⟨"l", true⟩, ⟨"m", true⟩] [⟨"m", false⟩]
    (.ofList [("m", .map [("k", "1"), ("k", "2")]), ("l", .list [])])
  obtain ⟨-, -, -, hundefined⟩ := expand_append_continues [⟨"l", true⟩, ⟨"u", false⟩] [⟨"x", false⟩]
    (.ofList [("l", .list []), ("x", .str "")])
  exact ⟨⟨by decide, hdefined ⟨⟨"m", true⟩, by simp, by decide⟩⟩,
    by decide, hundefined (by decide)⟩

end Expression

end UriExpansion
