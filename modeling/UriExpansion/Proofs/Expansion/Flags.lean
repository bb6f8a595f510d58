import UriExpansion.Proofs.Expansion.Undefined
import UriExpansion.Proofs.Texts

/-!
# Explode flags that do not show

A flag shows only where a variable has members and the operator joins them in another way than a
comma does. So an undefined variable and a text may explode or not under every operator, and a list
may in a simple expression. A list in a path segment may too, as far as commas and slashes are not
told apart.
-/

namespace UriExpansion

def VarSpec.SameUpToFlag (free : String → Prop) (v w : VarSpec) : Prop :=
  v.name = w.name ∧ (v.exploded = w.exploded ∨ free v.name)

inductive Segment.SameUpToFlags (free : Operator → String → Prop) : Segment → Segment → Prop
  | literal (text : String) : SameUpToFlags free (.literal text) (.literal text)
  | expression (op : Operator) {xs ys : List VarSpec}
      (h : List.Forall₂ (VarSpec.SameUpToFlag (free op)) xs ys) :
      SameUpToFlags free (.expression ⟨op, xs⟩) (.expression ⟨op, ys⟩)

/-- The same segments, but for explode flags of variables that are free under their operator. -/
def SameUpToFlags (free : Operator → String → Prop) : List Segment → List Segment → Prop :=
  List.Forall₂ (Segment.SameUpToFlags free)

theorem SameUpToFlags.mono {free free' : Operator → String → Prop}
    (himp : ∀ op name, free op name → free' op name) {xs ys : List Segment}
    (h : SameUpToFlags free xs ys) : SameUpToFlags free' xs ys := by
  refine List.Forall₂.imp (fun x y hxy => ?_) h
  cases hxy with
  | literal text => exact .literal text
  | expression op hvars =>
    refine .expression op (List.Forall₂.imp (fun v w hvw => ?_) hvars)
    exact ⟨hvw.1, hvw.2.imp_right (himp op v.name)⟩

namespace Store

def HoldsText (s : Store) (name : String) : Prop :=
  ∃ text, s.get? name = some (.str text)

def HoldsList (s : Store) (name : String) : Prop :=
  ∃ items, s.get? name = some (.list items)

def FlagFree (s : Store) (op : Operator) (name : String) : Prop :=
  s.Undefined name ∨ s.HoldsText name ∨ op = .simple ∧ s.HoldsList name

def FlagFreeUpToCommas (s : Store) (op : Operator) (name : String) : Prop :=
  s.FlagFree op name ∨ op = .pathSegment ∧ s.HoldsList name

/-- A flag that cannot be seen in a text once all of its characters are mapped. -/
def FlagFreeUnder (f : Char → Char) (s : Store) (op : Operator) (name : String) : Prop :=
  s.Undefined name ∨ s.HoldsText name ∨
    (op.named = false ∧ op.separator.map f = ",".map f) ∧ s.HoldsList name

end Store

variable {f : Char → Char} {op : Operator} {s : Store}

theorem Operator.joined_map_eq {xs ys : List String}
    (h : JoinAlike (op.separator.map f) (xs.map (String.map f)) (ys.map (String.map f))) :
    (op.joined xs).map f = (op.joined ys).map f := by
  obtain ⟨hnil, hjoin⟩ := h
  rw [List.map_eq_nil_iff, List.map_eq_nil_iff] at hnil
  unfold joined
  by_cases hxs : xs = []
  · rw [if_pos hxs, if_pos (hnil.1 hxs)]
  · rw [if_neg hxs, if_neg fun hys => hxs (hnil.2 hys), text_map_append, text_map_append,
      text_map_intercalate, text_map_intercalate, hjoin]

namespace VarSpec

variable {v w : VarSpec}

theorem joinAlike_map_list_atoms (hnamed : op.named = false) (hsep : op.separator.map f = ",".map f)
    (v : VarSpec) (items : List String) :
    JoinAlike (op.separator.map f) ((v.atoms op (some (.list items))).map (String.map f))
      (items.map (String.map f)) := by
  have hlabel := Operator.label_of_unnamed hnamed v.name
  by_cases hitems : items = []
  · simpa [atoms, hitems] using JoinAlike.refl []
  · have hmap : items.map (String.map f) ≠ [] := by simpa using hitems
    cases he : v.exploded with
    | true => simpa [atoms, hitems, he, hlabel] using JoinAlike.refl _
    | false =>
      have hjoin : (",".intercalate items).map f =
          (op.separator.map f).intercalate (items.map (String.map f)) := by
        rw [text_map_intercalate, hsep]
      simpa [atoms, hitems, he, hlabel, hjoin] using JoinAlike.singleton_of_ne_nil hmap

theorem joinAlike_map_atoms (h : SameUpToFlag (s.FlagFreeUnder f op) v w) :
    JoinAlike (op.separator.map f) ((v.atoms op (s.get? v.name)).map (String.map f))
      ((w.atoms op (s.get? w.name)).map (String.map f)) := by
  obtain ⟨hname, hflag | hfree⟩ := h
  · have hvw : v = w := by
      cases v
      cases w
      simp_all
    rw [hvw]
    exact JoinAlike.refl _
  · rcases hfree with hundefined | ⟨text, hget⟩ | ⟨⟨hnamed, hsep⟩, items, hget⟩
    · have hv : v.atoms op (s.get? v.name) = [] := atoms_get?_eq_nil_iff.2 hundefined
      have hw : w.atoms op (s.get? w.name) = [] := atoms_get?_eq_nil_iff.2 (hname ▸ hundefined)
      rw [hv, hw]
      exact JoinAlike.refl _
    · rw [← hname, hget]
      simpa [atoms, hname] using JoinAlike.refl _
    · rw [← hname, hget]
      have hv := joinAlike_map_list_atoms hnamed hsep v items
      have hw := joinAlike_map_list_atoms hnamed hsep w items
      exact hv.trans hw.symm

end VarSpec

theorem Expression.map_expand_eq {xs ys : List VarSpec}
    (h : List.Forall₂ (VarSpec.SameUpToFlag (s.FlagFreeUnder f op)) xs ys) :
    (expand ⟨op, xs⟩ s).map f = (expand ⟨op, ys⟩ s).map f := by
  rw [expand_eq_joined_atoms, expand_eq_joined_atoms]
  apply Operator.joined_map_eq
  simp only [atoms, List.map_flatMap]
  exact JoinAlike.flatMap_of_forall₂ (h.imp fun v w hvw => VarSpec.joinAlike_map_atoms hvw)

theorem Segment.map_expand_eq {x y : Segment} (h : SameUpToFlags (s.FlagFreeUnder f) x y) :
    (x.expand s).map f = (y.expand s).map f := by
  cases h with
  | literal text => rfl
  | expression op hvars => exact Expression.map_expand_eq hvars

theorem map_expandAll_eq {xs ys : List Segment} (h : SameUpToFlags (s.FlagFreeUnder f) xs ys) :
    (expandAll xs s).map f = (expandAll ys s).map f := by
  induction h with
  | nil => rfl
  | cons hxy _ ih =>
    have hhead := Segment.map_expand_eq hxy
    simp only [expandAll, List.map_cons, String.join_cons, text_map_append] at ih ⊢
    rw [hhead, ih]

def commasToSlashes (text : String) : String :=
  text.map fun c => if c = ',' then '/' else c

namespace Store

theorem FlagFree.flagFreeUnder (f : Char → Char) {name : String} (h : s.FlagFree op name) :
    s.FlagFreeUnder f op name := by
  obtain hundefined | htext | ⟨rfl, hlist⟩ := h
  · exact Or.inl hundefined
  · exact Or.inr (Or.inl htext)
  · exact Or.inr (Or.inr ⟨⟨rfl, rfl⟩, hlist⟩)

theorem FlagFreeUpToCommas.flagFreeUnder {name : String} (h : s.FlagFreeUpToCommas op name) :
    s.FlagFreeUnder (fun c => if c = ',' then '/' else c) op name := by
  obtain hfree | ⟨rfl, hlist⟩ := h
  · exact hfree.flagFreeUnder _
  · have hsep : ("/" : String).map (fun c => if c = ',' then '/' else c) =
        ",".map fun c => if c = ',' then '/' else c := by
      apply String.toList_inj.1
      simp
    exact Or.inr (Or.inr ⟨⟨rfl, hsep⟩, hlist⟩)

end Store

/-- Any number of flags may change at once. The expansion stays the same if they change on undefined
variables, on texts, and on lists of simple expressions; and if they also change on lists of path
segments, the expansions are the same once every comma in them is a slash. -/
theorem expandAll_of_sameUpToFlags (segments segments' : List Segment) (s : Store) :
    (SameUpToFlags s.FlagFree segments segments' →
      expandAll segments s = expandAll segments' s) ∧
    (SameUpToFlags s.FlagFreeUpToCommas segments segments' →
      commasToSlashes (expandAll segments s) = commasToSlashes (expandAll segments' s)) := by
  constructor
  · intro h
    have hmap := map_expandAll_eq (h.mono fun op name hfree => hfree.flagFreeUnder id)
    rwa [String.map_id, String.map_id] at hmap
  · intro h
    exact map_expandAll_eq (h.mono fun op name hfree => hfree.flagFreeUnder)

theorem expandAll_of_sameUpToFlags_at_lists :
    (SameUpToFlags (Store.FlagFree (.ofList [("l", .list ["a,b", ""]), ("t", .str "c")]))
        [.expression ⟨.simple, [⟨"l", true⟩, ⟨"u", false⟩]⟩, .expression ⟨.query, [⟨"t", true⟩]⟩]
        [.expression ⟨.simple, [⟨"l", false⟩, ⟨"u", true⟩]⟩, .expression ⟨.query, [⟨"t", false⟩]⟩] ∧
      expandAll
        [.expression ⟨.simple, [⟨"l", true⟩, ⟨"u", false⟩]⟩, .expression ⟨.query, [⟨"t", true⟩]⟩]
        (.ofList [("l", .list ["a,b", ""]), ("t", .str "c")]) = "a,b,?t=c") ∧
    (SameUpToFlags (Store.FlagFreeUpToCommas (.ofList [("l", .list ["a,b", "/"])]))
        [.literal ",", .expression ⟨.pathSegment, [⟨"l", true⟩]⟩]
        [.literal ",", .expression ⟨.pathSegment, [⟨"l", false⟩]⟩] ∧
      expandAll [.literal ",", .expression ⟨.pathSegment, [⟨"l", true⟩]⟩]
        (.ofList [("l", .list ["a,b", "/"])]) = ",/a,b//" ∧
      expandAll [.literal ",", .expression ⟨.pathSegment, [⟨"l", false⟩]⟩]
        (.ofList [("l", .list ["a,b", "/"])]) = ",/a,b,/" ∧
      commasToSlashes ",/a,b//" = commasToSlashes ",/a,b,/") := by
  obtain ⟨hsame, -⟩ := expandAll_of_sameUpToFlags
    [.expression ⟨.simple, [⟨"l", true⟩, ⟨"u", false⟩]⟩, .expression ⟨.query, [⟨"t", true⟩]⟩]
    [.expression ⟨.simple, [⟨"l", false⟩, ⟨"u", true⟩]⟩, .expression ⟨.query, [⟨"t", false⟩]⟩]
    (.ofList [("l", .list ["a,b", ""]), ("t", .str "c")])
  obtain ⟨-, hslashes⟩ := expandAll_of_sameUpToFlags
    [.literal ",", .expression ⟨.pathSegment, [⟨"l", true⟩]⟩]
    [.literal ",", .expression ⟨.pathSegment, [⟨"l", false⟩]⟩] (.ofList [("l", .list ["a,b", "/"])])
  have hsimple : SameUpToFlags
      (Store.FlagFree (.ofList [("l", .list ["a,b", ""]), ("t", .str "c")]))
      [.expression ⟨.simple, [⟨"l", true⟩, ⟨"u", false⟩]⟩, .expression ⟨.query, [⟨"t", true⟩]⟩]
      [.expression ⟨.simple, [⟨"l", false⟩, ⟨"u", true⟩]⟩,
        .expression ⟨.query, [⟨"t", false⟩]⟩] := by
    refine .cons (.expression .simple (.cons ⟨rfl, Or.inr ?_⟩ (.cons ⟨rfl, Or.inr ?_⟩ .nil)))
      (.cons (.expression .query (.cons ⟨rfl, Or.inr ?_⟩ .nil)) .nil)
    · exact Or.inr (Or.inr ⟨rfl, ["a,b", ""], rfl⟩)
    · exact Or.inl (by decide)
    · exact Or.inr (Or.inl ⟨"c", rfl⟩)
  have hpath : SameUpToFlags (Store.FlagFreeUpToCommas (.ofList [("l", .list ["a,b", "/"])]))
      [.literal ",", .expression ⟨.pathSegment, [⟨"l", true⟩]⟩]
      [.literal ",", .expression ⟨.pathSegment, [⟨"l", false⟩]⟩] := by
    have hlist : Store.HoldsList (.ofList [("l", .list ["a,b", "/"])]) "l" := ⟨["a,b", "/"], rfl⟩
    refine .cons (.literal ",") (.cons (.expression .pathSegment (.cons ⟨rfl, ?_⟩ .nil)) .nil)
    exact Or.inr (Or.inr ⟨rfl, hlist⟩)
  exact ⟨⟨hsimple, (hsame hsimple).trans rfl⟩, hpath, rfl, rfl, hslashes hpath⟩

end UriExpansion
