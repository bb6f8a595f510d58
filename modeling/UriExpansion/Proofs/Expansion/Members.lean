import UriExpansion.Proofs.Expansion.Continuation
import UriExpansion.Proofs.Expansion.Visibility

/-!
# Members in place of a collection

An exploded list of a simple expression or a path segment is written as if its items were bound to
variables of their own that stand in its place, and an exploded map of a query as if its keys were
such variables. A collection without members gives no variables at all, and disappears.
-/

namespace UriExpansion

variable {op : Operator} {p q : Store}

namespace VarSpec

variable {v : VarSpec}

theorem atoms_of_agree (h : p.Agree q v.name) :
    v.atoms op (p.get? v.name) = v.atoms op (q.get? v.name) := by
  obtain ⟨hp, hq⟩ | ⟨x, hp, hq⟩ := h
  · rw [atoms_get?_eq_nil_iff.2 hp, atoms_get?_eq_nil_iff.2 hq]
  · rw [hp, hq]

theorem atoms_exploded_list (name : String) (hnamed : op.named = false) (items : List String) :
    atoms ⟨name, true⟩ op (some (.list items)) = items := by
  have hlabel := Operator.label_of_unnamed hnamed name
  by_cases hitems : items = [] <;> simp [atoms, hitems, hlabel]

theorem atoms_exploded_map (name : String) (pairs : List (String × String)) :
    atoms ⟨name, true⟩ op (some (.map pairs)) = pairs.map fun (k, x) => assignment k x := by
  by_cases hpairs : pairs = [] <;> simp [atoms, hpairs, assignment]

end VarSpec

/-- The variables are bound to these texts, one to each, in order. -/
def Store.Spells (s : Store) (ys : List VarSpec) (texts : List String) : Prop :=
  List.Forall₂ (fun y text => s.get? y.name = some (.str text)) ys texts

namespace Expression

theorem atoms_of_agree {xs : List VarSpec} (h : ∀ v ∈ xs, p.Agree q v.name) :
    atoms ⟨op, xs⟩ p = atoms ⟨op, xs⟩ q := by
  induction xs with
  | nil => rfl
  | cons v xs ih =>
    have hhead : v.atoms op (p.get? v.name) = v.atoms op (q.get? v.name) :=
      VarSpec.atoms_of_agree (h v List.mem_cons_self)
    have htail := ih fun w hw => h w (List.mem_cons_of_mem v hw)
    simp only [atoms, List.flatMap_cons] at htail ⊢
    rw [hhead, htail]

theorem atoms_of_spells {s : Store} {ys : List VarSpec} {texts : List String}
    (h : s.Spells ys texts) :
    atoms ⟨op, ys⟩ s = ((ys.map VarSpec.name).zip texts).map fun (k, x) => op.label k x := by
  induction h with
  | nil => rfl
  | cons hy _ ih =>
    simp only [atoms, List.flatMap_cons] at ih ⊢
    rw [ih, hy]
    rfl

theorem atoms_of_spells_items {ys : List VarSpec} {items : List String}
    (hnamed : op.named = false) (hys : q.Spells ys items) : atoms ⟨op, ys⟩ q = items := by
  have hlength : items.length ≤ (ys.map VarSpec.name).length := by
    rw [List.length_map, hys.length_eq]
  have hlabel : (fun (k, x) => op.label k x) = Prod.snd := by
    funext (k, x)
    exact congrFun (Operator.label_of_unnamed hnamed k) x
  rw [atoms_of_spells hys, hlabel, List.map_snd_zip hlength]

theorem atoms_of_spells_pairs {ys : List VarSpec} {pairs : List (String × String)}
    (hnamed : op.named = true) (hnames : ys.map VarSpec.name = Keyed.keys pairs)
    (hys : q.Spells ys (pairs.map Prod.snd)) :
    atoms ⟨op, ys⟩ q = pairs.map fun (k, x) => assignment k x := by
  have hzip : (Keyed.keys pairs).zip (pairs.map Prod.snd) = pairs := (List.zip_of_prod rfl rfl).symm
  have hlabel : op.label = assignment := funext (Operator.label_of_named hnamed)
  rw [atoms_of_spells hys, hnames, hzip, hlabel]

theorem expand_eq_of_members {pre post ys : List VarSpec} {v : VarSpec}
    (hagree : ∀ w ∈ pre ++ post, p.Agree q w.name)
    (hmembers : v.atoms op (p.get? v.name) = atoms ⟨op, ys⟩ q) :
    expand ⟨op, pre ++ v :: post⟩ p = expand ⟨op, pre ++ ys ++ post⟩ q := by
  have hpre : atoms ⟨op, pre⟩ p = atoms ⟨op, pre⟩ q :=
    atoms_of_agree fun w hw => hagree w (List.mem_append_left post hw)
  have hpost : atoms ⟨op, post⟩ p = atoms ⟨op, post⟩ q :=
    atoms_of_agree fun w hw => hagree w (List.mem_append_right pre hw)
  have hmiddle : atoms ⟨op, [v]⟩ p = atoms ⟨op, ys⟩ q := by
    rw [← hmembers, atoms, List.flatMap_singleton]
  rw [List.append_cons]
  simp only [expand_eq_joined_atoms, atoms_append, hpre, hmiddle, hpost]

/-- The members of an exploded collection can be listed in its place, as variables that are bound to
them by a store which agrees on all the other variables. -/
theorem expand_exploded_eq_members (pre post : List VarSpec) (x : String) (p : Store) :
    (∀ (op : Operator) (items : List String) (ys : List VarSpec) (q : Store),
      op = .simple ∨ op = .pathSegment → p.get? x = some (.list items) →
      (∀ v ∈ pre ++ post, p.Agree q v.name) → q.Spells ys items →
      expand ⟨op, pre ++ ⟨x, true⟩ :: post⟩ p = expand ⟨op, pre ++ ys ++ post⟩ q) ∧
    (∀ (op : Operator) (pairs : List (String × String)) (ys : List VarSpec) (q : Store),
      op = .query ∨ op = .queryContinuation → p.get? x = some (.map pairs) →
      (∀ v ∈ pre ++ post, p.Agree q v.name) → ys.map VarSpec.name = Keyed.keys pairs →
      q.Spells ys (pairs.map Prod.snd) →
      expand ⟨op, pre ++ ⟨x, true⟩ :: post⟩ p = expand ⟨op, pre ++ ys ++ post⟩ q) := by
  constructor
  · intro op items ys q hop hget hagree hys
    have hnamed : op.named = false := by
      obtain rfl | rfl := hop <;> rfl
    apply expand_eq_of_members hagree
    rw [atoms_of_spells_items hnamed hys, hget]
    exact VarSpec.atoms_exploded_list x hnamed items
  · intro op pairs ys q hop hget hagree hnames hys
    have hnamed : op.named = true := by
      obtain rfl | rfl := hop <;> rfl
    apply expand_eq_of_members hagree
    rw [atoms_of_spells_pairs hnamed hnames hys, hget]
    exact VarSpec.atoms_exploded_map x pairs

theorem expand_exploded_eq_members_at_repeats :
    (Store.get? (.ofList [("u", .list []), ("l", .list ["1", "1"])]) "l" = some (.list ["1", "1"]) ∧
      Store.Spells (.ofList [("a", .str "1"), ("l", .list ["1", "1"])])
        [⟨"a", false⟩, ⟨"a", true⟩] ["1", "1"] ∧
      expand ⟨.pathSegment, [⟨"u", true⟩] ++ [⟨"a", false⟩, ⟨"a", true⟩] ++ [⟨"l", false⟩]⟩
        (.ofList [("a", .str "1"), ("l", .list ["1", "1"])]) = "/1/1/1,1") ∧
    (Store.get? (.ofList [("m", .map [("k", "1"), ("", "2")])]) "m" =
        some (.map [("k", "1"), ("", "2")]) ∧
      Store.Spells (.ofList [("", .str "2"), ("k", .str "1"), ("m", .list [])])
        [⟨"k", false⟩, ⟨"", false⟩] ["1", "2"] ∧
      expand ⟨.query, [] ++ [⟨"k", false⟩, ⟨"", false⟩] ++ [⟨"v", false⟩]⟩
        (.ofList [("", .str "2"), ("k", .str "1"), ("m", .list [])]) = "?k=1&=2") := by
  obtain ⟨hlist, -⟩ := expand_exploded_eq_members [⟨"u", true⟩] [⟨"l", false⟩] "l"
    (.ofList [("u", .list []), ("l", .list ["1", "1"])])
  obtain ⟨-, hmap⟩ := expand_exploded_eq_members [] [⟨"v", false⟩] "m"
    (.ofList [("m", .map [("k", "1"), ("", "2")])])
  have hitems : Store.Spells (.ofList [("a", .str "1"), ("l", .list ["1", "1"])])
      [⟨"a", false⟩, ⟨"a", true⟩] ["1", "1"] := .cons rfl (.cons rfl .nil)
  have hpairs : Store.Spells (.ofList [("", .str "2"), ("k", .str "1"), ("m", .list [])])
      [⟨"k", false⟩, ⟨"", false⟩] ["1", "2"] := .cons rfl (.cons rfl .nil)
  refine ⟨⟨rfl, hitems, ?_⟩, rfl, hpairs, ?_⟩
  · refine (hlist .pathSegment _ _ _ (Or.inr rfl) rfl (fun v hv => ?_) hitems).symm.trans rfl
    obtain rfl | rfl := List.mem_pair.1 hv
    · exact Or.inl ⟨by decide, by decide⟩
    · exact Or.inr ⟨.list ["1", "1"], rfl, rfl⟩
  · refine (hmap .query _ _ _ (Or.inl rfl) rfl (fun v hv => ?_) rfl hpairs).symm.trans rfl
    rw [List.mem_singleton.1 hv]
    exact Or.inl ⟨by decide, by decide⟩

end Expression

end UriExpansion
