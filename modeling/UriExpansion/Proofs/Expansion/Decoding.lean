import UriExpansion.Proofs.CommandLine.Assignments
import UriExpansion.Proofs.Expansion.Undefined
import UriExpansion.Proofs.Texts

/-!
# Reading an expansion back

Cutting the text of an expression at its separator gives its atoms, as long as no atom holds the
separator. The atoms of a query are assignments: each splits at its first equals sign into a name
and a value, or into a key and a value of an exploded map. Nothing is lost, merged or moved.
-/

namespace UriExpansion

namespace Value

def texts : Value → List String
  | .str text => [text]
  | .list items => items
  | .map pairs => alternate pairs

def keys : Value → List String
  | .str _ | .list _ => []
  | .map pairs => Keyed.keys pairs

end Value

namespace VarSpec

def fields (v : VarSpec) : Value → List (String × String)
  | .str text => [(v.name, text)]
  | .list items =>
    if v.exploded then items.map fun item => (v.name, item)
    else [(v.name, ",".intercalate items)]
  | .map pairs =>
    if v.exploded then pairs
    else [(v.name, ",".intercalate (Value.alternate pairs))]

end VarSpec

namespace Expression

def fields (e : Expression) (s : Store) : List (String × String) :=
  e.varspecs.flatMap fun v => (s.defined? v.name).elim [] v.fields

/-- What the defined variables bring into a query holds no ampersand, and no name or key holds an
equals sign. -/
structure PlainQuery (e : Expression) (s : Store) : Prop where
  ampersand : ∀ v ∈ e.varspecs, ∀ x, s.defined? v.name = some x →
    ∀ text ∈ v.name :: x.texts, '&' ∉ text.toList
  equals : ∀ v ∈ e.varspecs, ∀ x, s.defined? v.name = some x →
    ∀ key ∈ v.name :: x.keys, '=' ∉ key.toList

/-- What the defined variables bring into a path holds no slash. -/
def PlainPath (e : Expression) (s : Store) : Prop :=
  ∀ v ∈ e.varspecs, ∀ x, s.defined? v.name = some x → ∀ text ∈ x.texts, '/' ∉ text.toList

end Expression

variable {op : Operator} {c : Char}

theorem not_mem_assignment (heq : c ≠ '=') {name text : String} (hname : c ∉ name.toList)
    (htext : c ∉ text.toList) : c ∉ (assignment name text).toList := by
  simp [assignment, heq, hname, htext]

namespace VarSpec

variable {v : VarSpec}

theorem atoms_get?_eq (v : VarSpec) (op : Operator) (s : Store) :
    v.atoms op (s.get? v.name) =
      (s.defined? v.name).elim [] fun x => v.atoms op (some x) := by
  cases hdefined : s.defined? v.name with
  | none => exact atoms_get?_eq_nil_iff.2 (Store.undefined_iff_defined?.2 hdefined)
  | some x =>
    have hget : s.get? v.name = some x := (Option.filter_eq_some_iff.1 hdefined).1
    rw [hget, Option.elim_some]

theorem not_mem_label (heq : c ≠ '=') (hname : op.named = true → c ∉ v.name.toList) {text : String}
    (htext : c ∉ text.toList) : c ∉ (op.label v.name text).toList := by
  cases hnamed : op.named with
  | false =>
    rw [Operator.label_of_unnamed hnamed]
    exact htext
  | true =>
    rw [Operator.label_of_named hnamed]
    exact not_mem_assignment heq (hname hnamed) htext

theorem not_mem_of_mem_atoms (hcomma : c ≠ ',') (heq : c ≠ '=')
    (hname : op.named = true → c ∉ v.name.toList) {x : Value}
    (htexts : ∀ text ∈ x.texts, c ∉ text.toList) {a : String} (ha : a ∈ v.atoms op (some x)) :
    c ∉ a.toList := by
  have hjoin : ∀ texts : List String, (∀ text ∈ texts, c ∉ text.toList) →
      c ∉ (",".intercalate texts).toList := fun texts =>
    not_mem_intercalate (by simpa using hcomma)
  cases x with
  | str text =>
    rw [List.mem_singleton.1 ha]
    exact not_mem_label heq hname (htexts text (List.mem_singleton_self text))
  | list items =>
    simp only [atoms] at ha
    split_ifs at ha
    · cases ha
    · obtain ⟨item, hitem, rfl⟩ := List.mem_map.1 ha
      exact not_mem_label heq hname (htexts item hitem)
    · rw [List.mem_singleton.1 ha]
      exact not_mem_label heq hname (hjoin items htexts)
  | map pairs =>
    simp only [atoms] at ha
    split_ifs at ha
    · cases ha
    · obtain ⟨⟨k, t⟩, hpair, rfl⟩ := List.mem_map.1 ha
      have hk : k ∈ Value.alternate pairs := List.mem_flatMap.2 ⟨(k, t), hpair, by simp⟩
      have ht : t ∈ Value.alternate pairs := List.mem_flatMap.2 ⟨(k, t), hpair, by simp⟩
      exact not_mem_assignment heq (htexts k hk) (htexts t ht)
    · rw [List.mem_singleton.1 ha]
      exact not_mem_label heq hname (hjoin (Value.alternate pairs) htexts)

theorem atoms_eq_map_fields (hnamed : op.named = true) {x : Value} (hx : x.defined = true) :
    v.atoms op (some x) = (v.fields x).map fun (k, t) => assignment k t := by
  have hlabel := Operator.label_of_named hnamed v.name
  cases x with
  | str text => simp [atoms, fields, hlabel]
  | list items =>
    have hitems : items ≠ [] := by simpa [Value.defined] using hx
    by_cases he : v.exploded <;> simp [atoms, fields, hlabel, hitems, he]
  | map pairs =>
    have hpairs : pairs ≠ [] := by simpa [Value.defined] using hx
    by_cases he : v.exploded <;>
      simp [atoms, fields, hlabel, hpairs, he, assignment, Value.alternate]

theorem name_of_mem_fields {x : Value} {field : String × String} (h : field ∈ v.fields x) :
    field.1 ∈ v.name :: x.keys := by
  cases x with
  | str text =>
    rw [List.mem_singleton.1 h]
    exact List.mem_cons_self
  | list items =>
    have hname : field.1 = v.name := by
      simp only [fields] at h
      split_ifs at h
      · obtain ⟨item, -, rfl⟩ := List.mem_map.1 h
        rfl
      · rw [List.mem_singleton.1 h]
    rw [hname]
    exact List.mem_cons_self
  | map pairs =>
    simp only [fields] at h
    split_ifs at h
    · exact List.mem_cons_of_mem v.name (List.mem_map_of_mem h)
    · rw [List.mem_singleton.1 h]
      exact List.mem_cons_self

end VarSpec

namespace Expression

variable {e : Expression} {s : Store}

theorem exists_defined?_of_mem {α : Type} {f : VarSpec → Value → List α} {a : α}
    (h : a ∈ e.varspecs.flatMap fun v => (s.defined? v.name).elim [] (f v)) :
    ∃ v ∈ e.varspecs, ∃ x, s.defined? v.name = some x ∧ a ∈ f v x := by
  obtain ⟨v, hv, ha⟩ := List.mem_flatMap.1 h
  cases hdefined : s.defined? v.name with
  | none => simp [hdefined] at ha
  | some x => exact ⟨v, hv, x, hdefined, by simpa [hdefined] using ha⟩

theorem atoms_eq_flatMap_defined? (e : Expression) (s : Store) :
    e.atoms s = e.varspecs.flatMap fun v =>
      (s.defined? v.name).elim [] fun x => v.atoms e.operator (some x) := by
  simp only [atoms, VarSpec.atoms_get?_eq]

theorem atoms_eq_map_fields (hnamed : e.operator.named = true) :
    e.atoms s = (e.fields s).map fun (k, t) => assignment k t := by
  rw [atoms_eq_flatMap_defined?, fields, List.map_flatMap]
  congr 1
  funext v
  cases hdefined : s.defined? v.name with
  | none => rfl
  | some x =>
    have hx : x.defined = true := (Option.filter_eq_some_iff.1 hdefined).2
    exact VarSpec.atoms_eq_map_fields hnamed hx

theorem pieces_expand (hsep : e.operator.separator = String.singleton c)
    (hdefined : ∃ v ∈ e.varspecs, ¬s.Undefined v.name) (hatoms : ∀ a ∈ e.atoms s, c ∉ a.toList) :
    ∃ body, e.expand s = e.operator.lead ++ body ∧ pieces c body = e.atoms s := by
  refine ⟨e.operator.separator.intercalate (e.atoms s), expand_of_defined hdefined, ?_⟩
  rw [hsep]
  exact pieces_intercalate (atoms_ne_nil_iff.2 hdefined) hatoms

theorem PlainQuery.not_mem_atoms (h : e.PlainQuery s) {a : String} (ha : a ∈ e.atoms s) :
    '&' ∉ a.toList := by
  rw [atoms_eq_flatMap_defined?] at ha
  obtain ⟨v, hv, x, hdefined, ha⟩ := exists_defined?_of_mem ha
  have htexts := h.ampersand v hv x hdefined
  exact VarSpec.not_mem_of_mem_atoms (by decide) (by decide)
    (fun _ => htexts v.name List.mem_cons_self)
    (fun text htext => htexts text (List.mem_cons_of_mem v.name htext)) ha

theorem PlainPath.not_mem_atoms (h : e.PlainPath s) (hop : e.operator = .pathSegment) {a : String}
    (ha : a ∈ e.atoms s) : '/' ∉ a.toList := by
  rw [atoms_eq_flatMap_defined?] at ha
  obtain ⟨v, hv, x, hdefined, ha⟩ := exists_defined?_of_mem ha
  have hunnamed : e.operator.named = true → '/' ∉ v.name.toList := by simp [hop, Operator.named]
  exact VarSpec.not_mem_of_mem_atoms (by decide) (by decide) hunnamed (h v hv x hdefined) ha

theorem PlainQuery.mapM_splitAssignment (h : e.PlainQuery s) (hnamed : e.operator.named = true) :
    (e.atoms s).mapM CommandLine.splitAssignment = .ok (e.fields s) := by
  rw [mapM_eq_ok_iff, atoms_eq_map_fields hnamed, List.forall₂_map_left_iff, List.forall₂_same]
  intro field hfield
  obtain ⟨v, hv, x, hdefined, hmem⟩ := exists_defined?_of_mem hfield
  have hname : '=' ∉ field.1.toList :=
    h.equals v hv x hdefined field.1 (VarSpec.name_of_mem_fields hmem)
  exact CommandLine.splitAssignment_of_assigns ⟨rfl, hname⟩

/-- A query can be read back from its text: cut at the ampersands, each piece is a name and a value,
in the order of the variables. A path can be read back up to the shape of its atoms: cut at the
slashes, the pieces are the atoms, and there is none where nothing is defined. -/
theorem expand_decodes (e : Expression) (s : Store) :
    (e.operator = .query ∨ e.operator = .queryContinuation → e.PlainQuery s →
      (∃ v ∈ e.varspecs, ¬s.Undefined v.name) →
      ∃ body, e.expand s = e.operator.lead ++ body ∧
        (pieces '&' body).mapM CommandLine.splitAssignment = .ok (e.fields s)) ∧
    (e.operator = .pathSegment → e.PlainPath s →
      ((∃ v ∈ e.varspecs, ¬s.Undefined v.name) →
        ∃ body, e.expand s = "/" ++ body ∧ pieces '/' body = e.atoms s) ∧
      ((∀ v ∈ e.varspecs, s.Undefined v.name) → e.expand s = "" ∧ e.atoms s = [])) := by
  constructor
  · intro hop hplain hdefined
    have hnamed : e.operator.named = true := by
      obtain hop | hop := hop <;> rw [hop] <;> rfl
    have hsep : e.operator.separator = String.singleton '&' := by
      obtain hop | hop := hop <;> rw [hop] <;> rfl
    obtain ⟨body, hexpand, hpieces⟩ := pieces_expand hsep hdefined fun _ => hplain.not_mem_atoms
    refine ⟨body, hexpand, ?_⟩
    rw [hpieces]
    exact hplain.mapM_splitAssignment hnamed
  · intro hop hplain
    refine ⟨fun hdefined => ?_, fun hnone => ⟨expand_of_undefined hnone, atoms_eq_nil_iff.2 hnone⟩⟩
    have hsep : e.operator.separator = String.singleton '/' := by rw [hop]; rfl
    obtain ⟨body, hexpand, hpieces⟩ :=
      pieces_expand hsep hdefined fun _ => hplain.not_mem_atoms hop
    rw [hop] at hexpand
    exact ⟨body, hexpand, hpieces⟩

theorem expand_decodes_at_empty_items :
    (PlainQuery ⟨.query, [⟨"a", false⟩, ⟨"l", true⟩, ⟨"m", true⟩]⟩
        (.ofList [("a", .str "x=y"), ("l", .list ["", ""]), ("m", .map [("", "=")])]) ∧
      ∃ body, expand ⟨.query, [⟨"a", false⟩, ⟨"l", true⟩, ⟨"m", true⟩]⟩
          (.ofList [("a", .str "x=y"), ("l", .list ["", ""]), ("m", .map [("", "=")])]) =
          "?" ++ body ∧
        (pieces '&' body).mapM CommandLine.splitAssignment =
          .ok [("a", "x=y"), ("l", ""), ("l", ""), ("", "=")]) ∧
    (PlainPath ⟨.pathSegment, [⟨"l", true⟩, ⟨"m", true⟩, ⟨"l", false⟩]⟩
        (.ofList [("l", .list ["", "&"]), ("m", .map [("", "=")])]) ∧
      (∃ body, expand ⟨.pathSegment, [⟨"l", true⟩, ⟨"m", true⟩, ⟨"l", false⟩]⟩
          (.ofList [("l", .list ["", "&"]), ("m", .map [("", "=")])]) = "/" ++ body ∧
        pieces '/' body = ["", "&", "==", ",&"]) ∧
      expand ⟨.pathSegment, [⟨"u", true⟩]⟩ (.ofList [("u", .map [])]) = "") := by
  obtain ⟨hquery, -⟩ := expand_decodes ⟨.query, [⟨"a", false⟩, ⟨"l", true⟩, ⟨"m", true⟩]⟩
    (.ofList [("a", .str "x=y"), ("l", .list ["", ""]), ("m", .map [("", "=")])])
  obtain ⟨-, hpath⟩ := expand_decodes ⟨.pathSegment, [⟨"l", true⟩, ⟨"m", true⟩, ⟨"l", false⟩]⟩
    (.ofList [("l", .list ["", "&"]), ("m", .map [("", "=")])])
  obtain ⟨-, hnone⟩ := expand_decodes ⟨.pathSegment, [⟨"u", true⟩]⟩ (.ofList [("u", .map [])])
  have hplain : PlainQuery ⟨.query, [⟨"a", false⟩, ⟨"l", true⟩, ⟨"m", true⟩]⟩
      (.ofList [("a", .str "x=y"), ("l", .list ["", ""]), ("m", .map [("", "=")])]) :=
    ⟨by decide, by decide⟩
  have hslashes : PlainPath ⟨.pathSegment, [⟨"l", true⟩, ⟨"m", true⟩, ⟨"l", false⟩]⟩
      (.ofList [("l", .list ["", "&"]), ("m", .map [("", "=")])]) := by
    unfold PlainPath
    decide
  obtain ⟨hpieces, -⟩ := hpath rfl hslashes
  obtain ⟨-, hempty⟩ := hnone rfl (by unfold PlainPath; decide)
  refine ⟨⟨hplain, hquery (Or.inl rfl) hplain ⟨⟨"a", false⟩, by simp, by decide⟩⟩, hslashes, ?_, ?_⟩
  · exact hpieces ⟨⟨"l", true⟩, by simp, by decide⟩
  · exact (hempty (by decide)).1

end Expression

end UriExpansion
