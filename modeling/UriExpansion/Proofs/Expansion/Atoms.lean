import Mathlib.Data.List.Forall2
import UriExpansion.Template.Expansion

/-!
# Expansion as one pass over atoms

An expression is flattened into one list of atoms: the texts that stand between its separators. A
writer emits the operator's lead before the first atom and the separator before each later one.
Expansion joins twice, inside each variable and then across the variables; both agree because a
variable without atoms is left out before anything is joined.
-/

namespace UriExpansion

namespace Operator

def label (op : Operator) (name text : String) : String :=
  match op with
  | .simple | .pathSegment => text
  | .query | .queryContinuation => name ++ "=" ++ text

theorem label_eq (op : Operator) (name : String) :
    op.label name = if op.named then assignment name else id := by
  cases op <;> rfl

theorem label_of_unnamed {op : Operator} (h : op.named = false) (name : String) :
    op.label name = id := by
  rw [label_eq, h]
  rfl

theorem label_of_named {op : Operator} (h : op.named = true) (name : String) :
    op.label name = assignment name := by
  rw [label_eq, h]
  rfl

def joined (op : Operator) (atoms : List String) : String :=
  if atoms = [] then "" else op.lead ++ op.separator.intercalate atoms

end Operator

namespace VarSpec

/-- What a variable adds to the atoms of its expression, by what its name is bound to. -/
def atoms (v : VarSpec) (op : Operator) : Option Value → List String
  | none => []
  | some (.str text) => [op.label v.name text]
  | some (.list items) =>
    if items = [] then []
    else if v.exploded then items.map (op.label v.name)
    else [op.label v.name (",".intercalate items)]
  | some (.map pairs) =>
    if pairs = [] then []
    else if v.exploded then pairs.map fun (k, x) => k ++ "=" ++ x
    else [op.label v.name (",".intercalate (pairs.flatMap fun (k, x) => [k, x]))]

end VarSpec

namespace Expression

def atoms (e : Expression) (s : Store) : List String :=
  e.varspecs.flatMap fun v => v.atoms e.operator (s.get? v.name)

end Expression

structure Writer where
  text : String
  fresh : Bool

namespace Writer

def emit (op : Operator) (w : Writer) (atom : String) : Writer :=
  ⟨w.text ++ (if w.fresh then op.lead else op.separator) ++ atom, false⟩

def segment (s : Store) (w : Writer) : Segment → Writer
  | .literal text => ⟨w.text ++ text, true⟩
  | .expression e => (e.atoms s).foldl (emit e.operator) ⟨w.text, true⟩

def write (segments : List Segment) (s : Store) : String :=
  (segments.foldl (segment s) ⟨"", true⟩).text

end Writer

def JoinAlike (sep : String) (xs ys : List String) : Prop :=
  (xs = [] ↔ ys = []) ∧ sep.intercalate xs = sep.intercalate ys

namespace JoinAlike

variable {sep : String} {xs ys zs xs' ys' : List String}

theorem refl (xs : List String) : JoinAlike sep xs xs :=
  ⟨Iff.rfl, rfl⟩

theorem symm (h : JoinAlike sep xs ys) : JoinAlike sep ys xs :=
  ⟨h.1.symm, h.2.symm⟩

theorem trans (h : JoinAlike sep xs ys) (h' : JoinAlike sep ys zs) : JoinAlike sep xs zs :=
  ⟨h.1.trans h'.1, h.2.trans h'.2⟩

theorem singleton_of_ne_nil (hys : ys ≠ []) : JoinAlike sep [sep.intercalate ys] ys :=
  ⟨iff_of_false (List.cons_ne_nil _ _) hys, String.intercalate_singleton⟩

theorem append (h : JoinAlike sep xs ys) (h' : JoinAlike sep xs' ys') :
    JoinAlike sep (xs ++ xs') (ys ++ ys') := by
  refine ⟨by simp only [List.append_eq_nil_iff, h.1, h'.1], ?_⟩
  by_cases hxs : xs = []
  · have hys := h.1.1 hxs
    subst hxs hys
    exact h'.2
  · have hys : ys ≠ [] := fun e => hxs (h.1.2 e)
    by_cases hxs' : xs' = []
    · have hys' := h'.1.1 hxs'
      subst hxs' hys'
      simpa using h.2
    · have hys' : ys' ≠ [] := fun e => hxs' (h'.1.2 e)
      rw [String.intercalate_append_of_ne_nil hxs hxs',
        String.intercalate_append_of_ne_nil hys hys', h.2, h'.2]

theorem flatMap_of_forall₂ {α β : Type} {f : α → List String} {g : β → List String} {l : List α}
    {l' : List β} (h : List.Forall₂ (fun a b => JoinAlike sep (f a) (g b)) l l') :
    JoinAlike sep (l.flatMap f) (l'.flatMap g) := by
  induction h with
  | nil => exact refl []
  | cons hab _ ih =>
    simp only [List.flatMap_cons]
    exact append hab ih

theorem flatMap {α : Type} {f g : α → List String} {l : List α}
    (h : ∀ a ∈ l, JoinAlike sep (f a) (g a)) : JoinAlike sep (l.flatMap f) (l.flatMap g) :=
  flatMap_of_forall₂ (List.forall₂_same.2 h)

end JoinAlike

namespace VarSpec

theorem atoms_ne_nil (v : VarSpec) (op : Operator) {x : Value} (hx : x.defined) :
    v.atoms op (some x) ≠ [] := by
  cases x with
  | str text => simp [atoms]
  | list items =>
    have hi : items ≠ [] := by simpa [Value.defined] using hx
    by_cases he : v.exploded <;> simp [atoms, hi, he]
  | map pairs =>
    have hp : pairs ≠ [] := by simpa [Value.defined] using hx
    by_cases he : v.exploded <;> simp [atoms, hp, he]

theorem atoms_eq_nil (v : VarSpec) (op : Operator) {x : Value} (hx : ¬ x.defined) :
    v.atoms op (some x) = [] := by
  cases x with
  | str text => simp [Value.defined] at hx
  | list items =>
    have hi : items = [] := by simpa [Value.defined] using hx
    simp [atoms, hi]
  | map pairs =>
    have hp : pairs = [] := by simpa [Value.defined] using hx
    simp [atoms, hp]

theorem render_eq_intercalate_atoms (v : VarSpec) (op : Operator) {x : Value} (hx : x.defined) :
    v.render op x = op.separator.intercalate (v.atoms op (some x)) := by
  cases x with
  | str text => cases hn : op.named <;> simp [render, atoms, Operator.label_eq, hn]
  | list items =>
    have hi : items ≠ [] := by simpa [Value.defined] using hx
    cases he : v.exploded <;> cases hn : op.named <;>
      simp [render, atoms, Operator.label_eq, hi, he, hn]
  | map pairs =>
    have hp : pairs ≠ [] := by simpa [Value.defined] using hx
    cases he : v.exploded <;> cases hn : op.named <;>
      simp [render, atoms, Operator.label_eq, Value.alternate, assignment, hp, he, hn]

theorem joinAlike_atoms (v : VarSpec) (op : Operator) (s : Store) :
    JoinAlike op.separator ((s.defined? v.name).map (v.render op)).toList
      (v.atoms op (s.get? v.name)) := by
  cases hg : s.get? v.name with
  | none => simpa [Store.defined?, hg, atoms] using JoinAlike.refl []
  | some x =>
    by_cases hx : x.defined
    · have hr := render_eq_intercalate_atoms v op hx
      simpa [Store.defined?, Option.filter_some, hg, hx, hr] using
        JoinAlike.singleton_of_ne_nil (atoms_ne_nil v op hx)
    · have ha := atoms_eq_nil v op hx
      simpa [Store.defined?, Option.filter_some, hg, hx, ha] using JoinAlike.refl []

end VarSpec

namespace Expression

theorem joinAlike_rendered (e : Expression) (s : Store) :
    JoinAlike e.operator.separator (e.rendered s) (e.atoms s) := by
  rw [rendered, List.filterMap_eq_flatMap_toList]
  exact JoinAlike.flatMap fun v _ => v.joinAlike_atoms e.operator s

theorem expand_eq_joined_atoms (e : Expression) (s : Store) :
    e.expand s = e.operator.joined (e.atoms s) := by
  obtain ⟨hnil, htext⟩ := e.joinAlike_rendered s
  unfold expand Operator.joined
  split
  case h_1 hr => rw [if_pos (hnil.1 hr)]
  case h_2 hr => rw [if_neg fun ha => hr (hnil.2 ha), htext]

end Expression

namespace Writer

theorem foldl_emit (op : Operator) (text a : String) (atoms : List String) :
    (atoms.foldl (emit op) ⟨text ++ a, false⟩).text =
      text ++ op.separator.intercalate (a :: atoms) := by
  induction atoms generalizing a with
  | nil => simp
  | cons b atoms ih =>
    have h := ih (a ++ op.separator ++ b)
    simpa [emit, String.append_assoc] using h

theorem foldl_emit_fresh (op : Operator) (text : String) (atoms : List String) :
    (atoms.foldl (emit op) ⟨text, true⟩).text = text ++ op.joined atoms := by
  cases atoms with
  | nil => simp [Operator.joined]
  | cons a atoms =>
    have h := foldl_emit op (text ++ op.lead) a atoms
    simpa [emit, Operator.joined, String.append_assoc] using h

theorem segment_text (s : Store) (w : Writer) (x : Segment) :
    (segment s w x).text = w.text ++ x.expand s := by
  cases x with
  | literal text => rfl
  | expression e =>
    rw [Segment.expand, e.expand_eq_joined_atoms]
    exact foldl_emit_fresh e.operator w.text (e.atoms s)

theorem foldl_segment_text (s : Store) (w : Writer) (segments : List Segment) :
    (segments.foldl (segment s) w).text = w.text ++ expandAll segments s := by
  induction segments generalizing w with
  | nil => simp [expandAll]
  | cons x segments ih =>
    rw [List.foldl_cons, ih, segment_text]
    simp [expandAll, String.append_assoc]

end Writer

/-- Expansion is the single pass over the flat lists of atoms, for every store. -/
theorem expandAll_eq_write (segments : List Segment) (s : Store) :
    expandAll segments s = Writer.write segments s := by
  rw [Writer.write, Writer.foldl_segment_text, String.empty_append]

example : Writer.write
    [.literal "/p", .expression ⟨.query, [⟨"a", false⟩, ⟨"b", false⟩, ⟨"c", true⟩, ⟨"c", false⟩]⟩]
    (.ofList [("a", .str ""), ("b", .list []), ("c", .map [("k", "1"), ("k", "x=y")])]) =
    "/p?a=&k=1&k=x=y&c=k,1,k,x=y" := by
  rfl

end UriExpansion
