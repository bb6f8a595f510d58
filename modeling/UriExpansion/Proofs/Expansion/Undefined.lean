import UriExpansion.Proofs.Expansion.Atoms

/-!
# Undefined variables

A name is undefined when it is unbound or bound to a collection without members. Such a name gives
no atom under any operator, explodes or not, and every other name gives one at least. So the atoms
of an expression are empty exactly when all of its variables are undefined, and then nothing of the
expression is written.
-/

namespace UriExpansion

theorem Value.defined_eq_false_iff {x : Value} :
    x.defined = false ↔ x = .list [] ∨ x = .map [] := by
  cases x <;> simp [defined]

namespace Store

def Undefined (s : Store) (name : String) : Prop :=
  s.get? name = none ∨ s.get? name = some (.list []) ∨ s.get? name = some (.map [])

instance (s : Store) (name : String) : Decidable (s.Undefined name) :=
  inferInstanceAs (Decidable (_ ∨ _ ∨ _))

theorem undefined_iff_get? {s : Store} {name : String} :
    s.Undefined name ↔ ∀ x, s.get? name = some x → x.defined = false := by
  unfold Undefined
  cases s.get? name with
  | none => simp
  | some x => simp [Value.defined_eq_false_iff]

theorem undefined_iff_defined? {s : Store} {name : String} :
    s.Undefined name ↔ s.defined? name = none := by
  rw [undefined_iff_get?, defined?, Option.filter_eq_none_iff]
  simp

end Store

variable {s : Store}

theorem VarSpec.atoms_get?_eq_nil_iff {v : VarSpec} {op : Operator} :
    v.atoms op (s.get? v.name) = [] ↔ s.Undefined v.name := by
  rw [Store.undefined_iff_get?]
  cases hget : s.get? v.name with
  | none => simp [VarSpec.atoms]
  | some x =>
    constructor
    · intro hatoms y hy
      cases hy
      by_contra hdefined
      exact v.atoms_ne_nil op (by simpa using hdefined) hatoms
    · intro hundefined
      exact v.atoms_eq_nil op (by simp [hundefined x rfl])

namespace Expression

theorem atoms_eq_nil_iff {e : Expression} :
    e.atoms s = [] ↔ ∀ v ∈ e.varspecs, s.Undefined v.name := by
  rw [atoms, List.flatMap_eq_nil_iff]
  simp only [VarSpec.atoms_get?_eq_nil_iff]

theorem atoms_ne_nil_iff {e : Expression} :
    e.atoms s ≠ [] ↔ ∃ v ∈ e.varspecs, ¬s.Undefined v.name := by
  rw [Ne, atoms_eq_nil_iff]
  simp

theorem expand_of_undefined {e : Expression} (h : ∀ v ∈ e.varspecs, s.Undefined v.name) :
    e.expand s = "" := by
  rw [expand_eq_joined_atoms, atoms_eq_nil_iff.2 h]
  rfl

theorem expand_of_defined {e : Expression} (h : ∃ v ∈ e.varspecs, ¬s.Undefined v.name) :
    e.expand s = e.operator.lead ++ e.operator.separator.intercalate (e.atoms s) := by
  rw [expand_eq_joined_atoms, Operator.joined, if_neg (atoms_ne_nil_iff.2 h)]

end Expression

end UriExpansion
