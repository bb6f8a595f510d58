import Mathlib.Data.List.Perm.Subperm
import UriExpansion.Proofs.Store.Merging
import UriExpansion.Template.Expansion

/-!
# Equal stores

Stores are compared from one side: they have equally many bindings, and every binding of the first
one is in the second one. Since each name is bound once this leaves no name of the second store
over, so equal stores are those that answer alike. A template whose variables two stores define
alike expands to the same text under both, whatever the order of the names.
-/

namespace UriExpansion

namespace Store

theorem size_eq_of_get?_eq {p q : Store} (h : ∀ name, p.get? name = q.get? name) :
    p.size = q.size := by
  have hperm : p.names.Perm q.names :=
    (List.perm_ext_iff_of_nodup p.nodup q.nodup).2 fun name => by
      rw [← names, ← names, mem_names_iff, mem_names_iff, h]
  simpa [names, Keyed.keys, size] using hperm.length_eq

theorem beq_of_get?_eq {p q : Store} (h : ∀ name, p.get? name = q.get? name) :
    (p == q) = true := by
  have hall : p.entries.all fun e => q.get? e.1 == some e.2 :=
    List.all_eq_true.2 fun e he => beq_iff_eq.2 ((h e.1).symm.trans (mem_entries_iff.1 he))
  show (p.size == q.size && p.entries.all fun e => q.get? e.1 == some e.2) = true
  rw [hall, size_eq_of_get?_eq h, BEq.rfl, Bool.true_and]

end Store

variable {p q : Store}

theorem Expression.expand_congr {e : Expression}
    (h : ∀ v ∈ e.varspecs, p.defined? v.name = q.defined? v.name) : e.expand p = e.expand q := by
  have hrendered : e.rendered p = e.rendered q :=
    List.filterMap_congr fun v hv => by rw [h v hv]
  rw [expand, expand, hrendered]

theorem Segment.expand_congr {x : Segment}
    (h : ∀ v ∈ x.vars, p.defined? v.name = q.defined? v.name) : x.expand p = x.expand q := by
  cases x with
  | literal text => rfl
  | expression e => exact Expression.expand_congr h

theorem expandAll_congr {segments : List Segment}
    (h : ∀ v ∈ segments.flatMap Segment.vars, p.defined? v.name = q.defined? v.name) :
    expandAll segments p = expandAll segments q := by
  have hmap : segments.map (Segment.expand p) = segments.map (Segment.expand q) :=
    List.map_congr_left fun x hx =>
      Segment.expand_congr fun v hv => h v (List.mem_flatMap.2 ⟨x, hx, hv⟩)
  rw [expandAll, expandAll, hmap]

theorem Template.expand_congr_get? (t : Template) (h : ∀ name, p.get? name = q.get? name) :
    t.expand p = t.expand q :=
  expandAll_congr fun v _ => by rw [Store.defined?, Store.defined?, h]

namespace Store

variable {p q : Store}

theorem beq_iff : (p == q) = true ↔
    p.size = q.size ∧ ∀ name value, p.get? name = some value → q.get? name = some value := by
  show (p.size == q.size && p.entries.all fun e => q.get? e.1 == some e.2) = true ↔ _
  rw [Bool.and_eq_true, beq_iff_eq, List.all_eq_true]
  simp only [beq_iff_eq, Prod.forall, mem_entries_iff]

theorem perm_names_of_subset (hsize : p.size = q.size) (hsub : p.names ⊆ q.names) :
    p.names.Perm q.names := by
  have hlength : q.names.length ≤ p.names.length := by
    simp only [names, Keyed.keys, List.length_map]
    exact Nat.le_of_eq hsize.symm
  exact (List.subperm_of_subset p.nodup hsub).perm_of_length_le hlength

theorem get?_eq_of_beq (h : (p == q) = true) (name : String) : p.get? name = q.get? name := by
  obtain ⟨hsize, hget⟩ := beq_iff.1 h
  have hsub : p.names ⊆ q.names := by
    intro other hother
    obtain ⟨value, hvalue⟩ := Option.isSome_iff_exists.1 (mem_names_iff.1 hother)
    exact mem_names_iff.2 (Option.isSome_iff_exists.2 ⟨value, hget other value hvalue⟩)
  cases hp : p.get? name with
  | some value => exact (hget name value hp).symm
  | none =>
    -- a name that the first store lacks is none of the second one, there being no room for it
    have habsent : name ∉ q.names := by
      rw [← (perm_names_of_subset hsize hsub).mem_iff, mem_names_iff, hp]
      simp
    rw [mem_names_iff, Option.not_isSome_iff_eq_none] at habsent
    exact habsent.symm

theorem beq_iff_forall_get?_eq : (p == q) = true ↔ ∀ name, p.get? name = q.get? name :=
  ⟨get?_eq_of_beq, beq_of_get?_eq⟩

theorem equivalence_beq : Equivalence fun p q : Store => (p == q) = true where
  refl _ := beq_iff_forall_get?_eq.2 fun _ => rfl
  symm h := beq_iff_forall_get?_eq.2 fun name => (get?_eq_of_beq h name).symm
  trans h h' := beq_iff_forall_get?_eq.2 fun name =>
    (get?_eq_of_beq h name).trans (get?_eq_of_beq h' name)

/-- Stores are equal exactly when they answer every lookup alike, whichever of them is asked first.
So entries may be collected in another order, as long as those under one name stay in order. -/
theorem beq_iff_answers_alike :
    (∀ p q : Store, (p == q) = true ↔ ∀ name, p.get? name = q.get? name) ∧
    (Equivalence fun p q : Store => (p == q) = true) ∧
    ∀ xs ys : List (String × Value),
      (∀ name, xs.filter (·.1 = name) = ys.filter (·.1 = name)) →
      (ofList xs == ofList ys) = true := by
  refine ⟨fun p q => beq_iff_forall_get?_eq, equivalence_beq, fun xs ys h => ?_⟩
  refine beq_iff_forall_get?_eq.2 fun name => ?_
  rw [get?_ofList, get?_ofList, Keyed.last?, Keyed.last?, h]

theorem beq_iff_answers_alike_at_reordered :
    (ofList [("a", .str "1"), ("b", .str "2"), ("a", .list [])]).names = ["a", "b"] ∧
    (ofList [("b", .str "2"), ("a", .str "1"), ("a", .list [])]).names = ["b", "a"] ∧
    (ofList [("a", .str "1"), ("b", .str "2"), ("a", .list [])] ==
      ofList [("b", .str "2"), ("a", .str "1"), ("a", .list [])]) = true := by
  refine ⟨by decide, by decide, beq_iff_answers_alike.2.2 _ _ fun name => ?_⟩
  by_cases ha : "a" = name
  · subst ha
    decide
  · by_cases hb : "b" = name
    · subst hb
      decide
    · simp [ha, hb]

end Store

end UriExpansion
