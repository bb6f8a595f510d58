import UriExpansion.Proofs.Expansion.Undefined
import UriExpansion.Proofs.Store.Equality
import UriExpansion.Proofs.Store.Runs

/-!
# What expansion can see

Two stores agree on a name when both leave it undefined or bind it to the same value. Stores that
agree on the variables of a template cannot be told apart by expanding it. So nothing is seen of
actions on other names, of the order of bindings, or of the way in which a name is undefined.
-/

namespace UriExpansion

/-- An action that goes on with another store may change what any name is bound to. -/
def Action.Touches (name : String) : Action → Prop
  | .bind other _ | .bindScalar other _ | .bindList other _ | .bindMap other _
  | .bindJson other _ | .remove other => name = other
  | .extend entries => name ∈ Keyed.keys entries
  | .collect _ | .document _ | .load _ _ => True

namespace Store

variable {p q s : Store} {name : String}

def Agree (p q : Store) (name : String) : Prop :=
  (p.Undefined name ∧ q.Undefined name) ∨ ∃ x, p.get? name = some x ∧ q.get? name = some x

theorem Agree.defined?_eq (h : p.Agree q name) : p.defined? name = q.defined? name := by
  rcases h with ⟨hp, hq⟩ | ⟨x, hp, hq⟩
  · rw [undefined_iff_defined?.1 hp, undefined_iff_defined?.1 hq]
  · rw [defined?, defined?, hp, hq]

theorem agree_of_get?_eq (h : p.get? name = q.get? name) : p.Agree q name := by
  cases hq : q.get? name with
  | none => exact Or.inl ⟨Or.inl (h.trans hq), Or.inl hq⟩
  | some x => exact Or.inr ⟨x, h.trans hq, hq⟩

theorem get?_replay_of_not_mentioned {log : Log} (h : ∀ c ∈ log, name ≠ c.name) (s : Store) :
    (s.replay log).get? name = s.get? name := by
  induction log generalizing s with
  | nil => rfl
  | cons c log ih =>
    have htail := ih (fun d hd => h d (List.mem_cons_of_mem c hd)) (s.apply c)
    have hhead : (s.apply c).get? name = s.get? name := by
      rw [get?_apply, if_neg (h c List.mem_cons_self)]
    exact htail.trans hhead

theorem get?_perform_of_not_touches {a : Action} (h : ¬a.Touches name) (s : Store) :
    (s.perform a).get? name = s.get? name := by
  cases a with
  | bind other value => exact (get?_insert ..).trans (if_neg h)
  | bindScalar other x => exact (get?_insert ..).trans (if_neg h)
  | bindList other xs => exact (get?_insert ..).trans (if_neg h)
  | bindMap other ps => exact (get?_insert ..).trans (if_neg h)
  | bindJson other j =>
    have hlog : ∀ c ∈ [Change.ofOption other j.value?], name ≠ c.name := by
      intro c hc
      rw [List.mem_singleton.1 hc]
      cases j.value? <;> exact h
    exact get?_replay_of_not_mentioned hlog s
  | remove other =>
    rw [perform, remove_eq]
    exact (get?_erase ..).trans (if_neg h)
  | extend entries =>
    refine get?_replay_of_not_mentioned ?_ s
    intro c hc hname
    obtain ⟨e, he, rfl⟩ := List.mem_map.1 hc
    exact h (hname ▸ List.mem_map_of_mem he)
  -- the others go on with another store, and so they touch every name
  | collect entries => exact absurd trivial h
  | document j => exact absurd trivial h
  | load text format => exact absurd trivial h

theorem get?_foldl_perform_of_not_touches {actions : List Action}
    (h : ∀ a ∈ actions, ¬a.Touches name) (s : Store) :
    (actions.foldl perform s).get? name = s.get? name := by
  induction actions generalizing s with
  | nil => rfl
  | cons a actions ih =>
    have htail := ih (fun b hb => h b (List.mem_cons_of_mem a hb)) (s.perform a)
    exact htail.trans (get?_perform_of_not_touches (h a List.mem_cons_self) s)

theorem get?_eq_of_perm (h : p.entries.Perm q.entries) (name : String) :
    p.get? name = q.get? name := by
  apply Option.ext
  intro x
  rw [← mem_entries_iff, ← mem_entries_iff, h.mem_iff]

theorem agree_of_undefined (hp : p.Undefined name) (hq : q.Undefined name)
    (hoff : ∀ other, other ≠ name → p.get? other = q.get? other) (other : String) :
    p.Agree q other := by
  by_cases hother : other = name
  · rw [hother]
    exact Or.inl ⟨hp, hq⟩
  · exact agree_of_get?_eq (hoff other hother)

theorem agree_insert (h : s.Undefined name) {x : Value} (hx : x = .list [] ∨ x = .map [])
    (other : String) : (s.insert name x).Agree s other := by
  have hget : (s.insert name x).get? name = some x := by rw [get?_insert, if_pos rfl]
  have hinsert : (s.insert name x).Undefined name := by
    rcases hx with rfl | rfl
    · exact Or.inr (Or.inl hget)
    · exact Or.inr (Or.inr hget)
  refine agree_of_undefined hinsert h (fun other hother => ?_) other
  rw [get?_insert, if_neg hother]

theorem agree_remove (h : s.Undefined name) (other : String) :
    (s.remove name).2.Agree s other := by
  rw [remove_eq]
  have herase : (s.erase name).get? name = none := by rw [get?_erase, if_pos rfl]
  refine agree_of_undefined (Or.inl herase) h (fun other hother => ?_) other
  rw [get?_erase, if_neg hother]

end Store

theorem expandAll_of_agree {segments : List Segment} {p q : Store}
    (h : ∀ v ∈ segments.flatMap Segment.vars, p.Agree q v.name) :
    expandAll segments p = expandAll segments q :=
  expandAll_congr fun v hv => (h v hv).defined?_eq

/-- Expansion sees nothing but the defined values of the variables that occur. Acting on other
names, listing the bindings in another order, and exchanging an unbound name for an empty
collection or the other way round all leave the expansion as it is. -/
theorem expandAll_sees_defined (segments : List Segment) :
    (∀ p q : Store, (∀ v ∈ segments.flatMap Segment.vars, p.Agree q v.name) →
      expandAll segments p = expandAll segments q) ∧
    (∀ (s : Store) (actions : List Action),
      (∀ v ∈ segments.flatMap Segment.vars, ∀ a ∈ actions, ¬a.Touches v.name) →
      expandAll segments (actions.foldl Store.perform s) = expandAll segments s) ∧
    (∀ p q : Store, p.entries.Perm q.entries → expandAll segments p = expandAll segments q) ∧
    ∀ (s : Store) (name : String), s.Undefined name →
      (∀ x, x = .list [] ∨ x = .map [] →
        expandAll segments (s.insert name x) = expandAll segments s) ∧
      expandAll segments (s.remove name).2 = expandAll segments s := by
  refine ⟨fun p q h => expandAll_of_agree h, ?_, ?_, ?_⟩
  · intro s actions h
    apply expandAll_of_agree
    intro v hv
    exact Store.agree_of_get?_eq (Store.get?_foldl_perform_of_not_touches (h v hv) s)
  · intro p q h
    apply expandAll_of_agree
    intro v _
    exact Store.agree_of_get?_eq (Store.get?_eq_of_perm h v.name)
  · intro s name h
    refine ⟨fun x hx => expandAll_of_agree fun v _ => Store.agree_insert h hx v.name, ?_⟩
    exact expandAll_of_agree fun v _ => Store.agree_remove h v.name

theorem expandAll_sees_defined_at_empty :
    expandAll [.literal "p", .expression ⟨.query, [⟨"a", false⟩, ⟨"b", true⟩]⟩]
      (.ofList [("b", .map []), ("a", .str "1"), ("c", .str "2")]) = "p?a=1" ∧
    expandAll [.literal "p", .expression ⟨.query, [⟨"a", false⟩, ⟨"b", true⟩]⟩]
      ([Action.bind "c" (.str "2"), .remove "d", .extend [("", .str "3"), ("c", .list [])]].foldl
        Store.perform (.ofList [("a", .str "1"), ("b", .list [])])) = "p?a=1" ∧
    expandAll [.literal "p", .expression ⟨.query, [⟨"a", false⟩, ⟨"b", true⟩]⟩]
      (.ofList [("b", .list []), ("a", .str "1")]) = "p?a=1" ∧
    expandAll [.literal "p", .expression ⟨.query, [⟨"a", false⟩, ⟨"b", true⟩]⟩]
      (Store.insert (.ofList [("a", .str "1"), ("b", .list [])]) "b" (.map [])) = "p?a=1" ∧
    expandAll [.literal "p", .expression ⟨.query, [⟨"a", false⟩, ⟨"b", true⟩]⟩]
      (Store.remove (.ofList [("a", .str "1"), ("b", .list [])]) "b").2 = "p?a=1" := by
  obtain ⟨hagree, htouch, hperm, hundefined⟩ := expandAll_sees_defined
    [.literal "p", .expression ⟨.query, [⟨"a", false⟩, ⟨"b", true⟩]⟩]
  have hother : ∀ name ∈ ["a", "b"], ∀ a ∈ [Action.bind "c" (.str "2"), .remove "d",
      .extend [("", .str "3"), ("c", .list [])]], ¬a.Touches name := by
    simp [Action.Touches, Keyed.keys]
  obtain ⟨hinsert, hremove⟩ := hundefined (.ofList [("a", .str "1"), ("b", .list [])]) "b"
    (by decide)
  refine ⟨?_, ?_, ?_, (hinsert _ (Or.inr rfl)).trans rfl, hremove.trans rfl⟩
  · refine (hagree _ (.ofList [("a", .str "1"), ("b", .list [])]) fun v hv => ?_).trans rfl
    rcases List.mem_pair.1 hv with rfl | rfl
    · exact Or.inr ⟨.str "1", rfl, rfl⟩
    · exact Or.inl ⟨by decide, by decide⟩
  · refine (htouch (.ofList [("a", .str "1"), ("b", .list [])]) _ fun v hv => ?_).trans rfl
    rcases List.mem_pair.1 hv with rfl | rfl
    · exact hother "a" (by decide)
    · exact hother "b" (by decide)
  · exact (hperm _ (.ofList [("a", .str "1"), ("b", .list [])]) (List.Perm.swap ..)).trans rfl

end UriExpansion
