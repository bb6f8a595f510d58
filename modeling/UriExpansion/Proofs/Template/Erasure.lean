import UriExpansion.Proofs.Expansion.Undefined
import UriExpansion.Proofs.Template.Append

/-!
# Templates with nothing defined

Where no variable is defined, expanding a template erases its expressions and keeps the rest of its
text. What is erased can be told from the characters alone: a span begins with an opening brace and
ends with the next closing brace, and an opening brace inside of it does not count.
-/

namespace UriExpansion

/-- The text outside of all spans, from a place that is inside of one or not. -/
def eraseSpans : Bool → List Char → List Char
  | _, [] => []
  | false, c :: cs => if c = '{' then eraseSpans true cs else c :: eraseSpans false cs
  | true, c :: cs => if c = '}' then eraseSpans false cs else eraseSpans true cs

theorem eraseSpans_plain_append {cs : List Char} (hcs : '{' ∉ cs) (rest : List Char) :
    eraseSpans false (cs ++ rest) = cs ++ eraseSpans false rest := by
  induction cs with
  | nil => rfl
  | cons c cs ih =>
    have hc : c ≠ '{' := fun h => hcs (h ▸ List.mem_cons_self)
    have htail : '{' ∉ cs := fun h => hcs (List.mem_cons_of_mem c h)
    rw [List.cons_append, eraseSpans, if_neg hc, ih htail, List.cons_append]

theorem eraseSpans_eq_self {cs : List Char} (hcs : '{' ∉ cs) : eraseSpans false cs = cs := by
  have h := eraseSpans_plain_append hcs []
  simpa [eraseSpans] using h

theorem eraseSpans_body_append {body : List Char} (hbody : '}' ∉ body) (rest : List Char) :
    eraseSpans true (body ++ '}' :: rest) = eraseSpans false rest := by
  induction body with
  | nil => rfl
  | cons c body ih =>
    have hc : c ≠ '}' := fun h => hbody (h ▸ List.mem_cons_self)
    have htail : '}' ∉ body := fun h => hbody (List.mem_cons_of_mem c h)
    rw [List.cons_append, eraseSpans, if_neg hc, ih htail]

theorem Segment.eraseSpans_source_append {x : Segment} {s : Store} (hx : x.Canonical)
    (hs : ∀ v ∈ x.vars, s.Undefined v.name) (rest : List Char) :
    eraseSpans false (x.source ++ rest) = (x.expand s).toList ++ eraseSpans false rest := by
  cases x with
  | literal text => exact eraseSpans_plain_append hx.2 rest
  | expression e =>
    have hempty : (Segment.expression e).expand s = "" := Expression.expand_of_undefined hs
    have hsource : (Segment.expression e).source ++ rest = '{' :: (e.body ++ '}' :: rest) := by
      simp [Segment.source]
    -- no closing brace is in the body, so the span ends where the expression does
    rw [hempty, hsource, eraseSpans, if_pos rfl,
      eraseSpans_body_append (Expression.brace_not_mem_body hx)]
    rfl

theorem eraseSpans_sourceOf {segments : List Segment} {s : Store}
    (hcanonical : ∀ x ∈ segments, x.Canonical)
    (hs : ∀ v ∈ segments.flatMap Segment.vars, s.Undefined v.name) :
    eraseSpans false (sourceOf segments).toList = (expandAll segments s).toList := by
  rw [toList_sourceOf, toList_expandAll]
  induction segments with
  | nil => rfl
  | cons x segments ih =>
    have hx := hcanonical x List.mem_cons_self
    have hvars : ∀ v ∈ x.vars, s.Undefined v.name := fun v hv =>
      hs v (List.mem_flatMap.2 ⟨x, List.mem_cons_self, hv⟩)
    have htail := ih (fun y hy => hcanonical y (List.mem_cons_of_mem x hy)) fun v hv =>
      hs v (List.mem_append_right x.vars hv)
    rw [List.flatMap_cons, List.flatMap_cons, x.eraseSpans_source_append hx hvars, htail]

namespace Template

variable {text : String} {t : Template}

theorem vars_eq_nil_of_not_mem (h : parse text = .ok t) (htext : '{' ∉ text.toList) :
    t.vars = [] := by
  rw [vars, List.flatMap_eq_nil_iff]
  intro x hx
  cases x with
  | literal text => rfl
  | expression e =>
    have hbrace : '{' ∈ (sourceOf t.segments).toList := by
      rw [toList_sourceOf]
      exact List.mem_flatMap.2 ⟨_, hx, List.mem_cons_self⟩
    rw [sourceOf_segments h] at hbrace
    exact absurd hbrace htext

theorem expand_of_undefined {s : Store} (h : parse text = .ok t)
    (hs : ∀ v ∈ t.vars, s.Undefined v.name) :
    t.expand s = String.ofList (eraseSpans false text.toList) := by
  have herase := eraseSpans_sourceOf (canonical_segments h).each hs
  rw [sourceOf_segments h] at herase
  rw [herase, String.ofList_toList]
  rfl

/-- Where none of its variables is defined, a template expands to its text without the spans in
braces. A text without braces that open is a template, and expands to itself under every store. -/
theorem expand_eq_eraseSpans :
    (∀ (text : String) (t : Template) (s : Store), parse text = .ok t →
      (∀ v ∈ t.vars, s.Undefined v.name) →
      t.expand s = String.ofList (eraseSpans false text.toList)) ∧
    ∀ text : String, '{' ∉ text.toList →
      ∃ t, parse text = .ok t ∧ ∀ s : Store, t.expand s = text := by
  refine ⟨fun text t s => expand_of_undefined, ?_⟩
  intro text htext
  obtain ⟨t, ht⟩ := exists_parse_of_not_unclosed fun hopen => htext hopen.brace_mem
  refine ⟨t, ht, fun s => ?_⟩
  have hvars := vars_eq_nil_of_not_mem ht htext
  rw [expand_of_undefined ht (by simp [hvars]), eraseSpans_eq_self htext, String.ofList_toList]

theorem expand_eq_eraseSpans_at_nested :
    (∃ t, parse "é\x7ba\x7bb*\x7d\x7dü\x7b\x7d\x7b?x,,y\x7dc\x7d" = .ok t ∧
      t.expand (.ofList [("x", .map []), ("a\x7bb", .list []), ("c", .str "1")]) = "é\x7düc\x7d") ∧
    ∃ t, parse "é\x7d/\x7d" = .ok t ∧ t.expand (.ofList [("", .str "1")]) = "é\x7d/\x7d" := by
  obtain ⟨herase, hself⟩ := expand_eq_eraseSpans
  obtain ⟨t, ht, hexpand⟩ := hself "é\x7d/\x7d" (by decide)
  exact ⟨⟨_, rfl, herase "é\x7ba\x7bb*\x7d\x7dü\x7b\x7d\x7b?x,,y\x7dc\x7d" _ _ rfl (by decide)⟩,
    t, ht, hexpand _⟩

end Template

end UriExpansion
