import UriExpansion.Proofs.Template.RoundTrip
import UriExpansion.Proofs.Template.Unclosed
import UriExpansion.Template.Expansion

/-!
# Templates behind each other

A template with any text behind it reads as its own segments and those of the text, but literals
that meet at the seam become one. Whatever is computed segment by segment and respects the joining
of literals is therefore computed in two parts: the printed source, the variables, the expansion.
-/

namespace UriExpansion

/-- Two lists of segments behind each other; literals that meet are one literal. -/
def fuse (xs ys : List Segment) : List Segment :=
  match xs.getLast?, ys with
  | some (.literal a), .literal b :: ys => xs.dropLast ++ .literal (a ++ b) :: ys
  | _, _ => xs ++ ys

theorem fuse_literals (xs : List Segment) (a b : String) (ys : List Segment) :
    fuse (xs ++ [.literal a]) (.literal b :: ys) = xs ++ .literal (a ++ b) :: ys := by
  simp [fuse]

theorem fuse_cases (xs ys : List Segment) :
    (∃ front a b back, xs = front ++ [.literal a] ∧ ys = .literal b :: back) ∨
    fuse xs ys = xs ++ ys ∧
      ∀ x ∈ xs.getLast?, ∀ y ∈ ys.head?, ¬(x.isLiteral ∧ y.isLiteral) := by
  rcases List.eq_nil_or_concat xs with rfl | ⟨front, x, rfl⟩
  · exact Or.inr ⟨rfl, by simp⟩
  cases ys with
  | nil => exact Or.inr ⟨by cases x <;> simp [fuse], by simp⟩
  | cons y back =>
    cases x with
    | expression e => exact Or.inr ⟨by simp [fuse], by simp [Segment.isLiteral]⟩
    | literal a =>
      cases y with
      | expression e => exact Or.inr ⟨by simp [fuse], by simp [Segment.isLiteral]⟩
      | literal b => exact Or.inl ⟨front, a, b, back, by simp, rfl⟩

theorem flatMap_fuse {α : Type} {f : Segment → List α}
    (hf : ∀ a b, f (.literal (a ++ b)) = f (.literal a) ++ f (.literal b))
    (xs ys : List Segment) : (fuse xs ys).flatMap f = xs.flatMap f ++ ys.flatMap f := by
  rcases fuse_cases xs ys with ⟨front, a, b, back, rfl, rfl⟩ | ⟨hfuse, -⟩
  · rw [fuse_literals]
    simp [hf]
  · rw [hfuse, List.flatMap_append]

theorem sourceOf_fuse (xs ys : List Segment) :
    sourceOf (fuse xs ys) = sourceOf xs ++ sourceOf ys := by
  apply String.toList_inj.1
  simp only [String.toList_append, toList_sourceOf]
  apply flatMap_fuse
  simp [Segment.source]

theorem vars_fuse (xs ys : List Segment) :
    (fuse xs ys).flatMap Segment.vars = xs.flatMap Segment.vars ++ ys.flatMap Segment.vars :=
  flatMap_fuse (fun _ _ => rfl) xs ys

theorem toList_expandAll (segments : List Segment) (s : Store) :
    (expandAll segments s).toList = segments.flatMap fun x => (x.expand s).toList := by
  induction segments with
  | nil => rfl
  | cons x segments ih =>
    rw [expandAll] at ih ⊢
    simp [ih]

theorem expandAll_fuse (xs ys : List Segment) (s : Store) :
    expandAll (fuse xs ys) s = expandAll xs s ++ expandAll ys s := by
  apply String.toList_inj.1
  simp only [String.toList_append, toList_expandAll]
  apply flatMap_fuse
  simp [Segment.expand]

theorem Canonical.left {xs ys : List Segment} (h : Canonical (xs ++ ys)) : Canonical xs :=
  ⟨fun x hx => h.each x (List.mem_append_left ys hx), h.apart.left_of_append⟩

theorem Canonical.fuse {xs ys : List Segment} (hxs : Canonical xs) (hys : Canonical ys) :
    Canonical (fuse xs ys) := by
  rcases fuse_cases xs ys with ⟨front, a, b, back, rfl, rfl⟩ | ⟨hfuse, hseam⟩
  · have ha := hxs.each (.literal a) (by simp)
    have hb := hys.each (.literal b) (by simp)
    have hab : (Segment.literal (a ++ b)).Canonical :=
      ⟨by simp [ha.1], by simp [ha.2, hb.2]⟩
    -- the joined literal stands between the same neighbours as the two did
    have hback : Canonical (.literal (a ++ b) :: back) :=
      ⟨fun x hx => (List.mem_cons.1 hx).elim (fun e => e ▸ hab)
          fun h => hys.each x (List.mem_cons_of_mem _ h),
        List.isChain_cons.2 (List.isChain_cons.1 hys.apart)⟩
    rw [fuse_literals]
    refine hxs.left.append hback fun x hx y hy => ?_
    cases hy
    exact (List.isChain_append.1 hxs.apart).2.2 x hx (.literal a) rfl
  · rw [hfuse]
    exact hxs.append hys hseam

namespace Template

variable {first : String} {t : Template}

theorem parse_append_of_parse {second : String} {t' : Template} (h : parse first = .ok t)
    (h' : parse second = .ok t') :
    parse (first ++ second) = .ok ⟨first ++ second, fuse t.segments t'.segments⟩ := by
  have hcanonical := (canonical_segments h).fuse (canonical_segments h')
  have hsource : sourceOf (fuse t.segments t'.segments) = first ++ second := by
    rw [sourceOf_fuse, sourceOf_segments h, sourceOf_segments h']
  have hparse := parse_sourceOf_of_canonical hcanonical
  rwa [hsource] at hparse

theorem aheadOfUnclosed_append {second before : String} (h : parse first = .ok t)
    (hbefore : AheadOfUnclosed second before) :
    AheadOfUnclosed (first ++ second) (first ++ before) := by
  have hclosed := not_unclosed_append (not_unclosed_of_parse h) hbefore.not_unclosed
  obtain ⟨-, -, back, hsecond, -, -, -, -, hback⟩ := hbefore
  refine aheadOfUnclosed_of_not_unclosed ?_ hback ?_
  · rw [String.toList_append, String.toList_append, hsecond, List.append_assoc]
  · rwa [String.toList_append]

/-- A text behind a template is read as it would be alone: literals that meet are joined, variables
and expansions follow each other, and a refusal moves by the bytes of the template. -/
theorem parse_append (h : parse first = .ok t) (second : String) :
    (∀ t', parse second = .ok t' → ∃ u, parse (first ++ second) = .ok u ∧
      u.segments = fuse t.segments t'.segments ∧ u.vars = t.vars ++ t'.vars ∧
      ∀ s : Store, u.expand s = t.expand s ++ t'.expand s) ∧
    ∀ e, parse second = .error e →
      parse (first ++ second) = .error ⟨e.position + first.utf8ByteSize⟩ := by
  constructor
  · intro t' h'
    exact ⟨_, parse_append_of_parse h h', rfl, vars_fuse _ _, expandAll_fuse _ _⟩
  · intro e he
    obtain ⟨s, hreaches, hstuck, rfl⟩ := parse_eq_error_iff.1 he
    have hahead := aheadOfUnclosed_append h (aheadOfUnclosed_read hreaches hstuck)
    rw [parse_of_aheadOfUnclosed hahead, String.utf8ByteSize_append, String.utf8ByteSize_ofList,
      ← Scan.position_eq_utf8Len_read hreaches, Nat.add_comm]

theorem parse_append_at_literals :
    parse "é\x7ba*\x7d\x7d" = .ok ⟨"é\x7ba*\x7d\x7d",
      [.literal "é", .expression ⟨.simple, [⟨"a", true⟩]⟩, .literal "\x7d"]⟩ ∧
    (∃ u, parse ("é\x7ba*\x7d\x7d" ++ "\x7dü\x7b?b\x7d") = .ok u ∧
      u.segments = [.literal "é", .expression ⟨.simple, [⟨"a", true⟩]⟩, .literal "\x7d\x7dü",
        .expression ⟨.query, [⟨"b", false⟩]⟩] ∧
      u.vars = [⟨"a", true⟩, ⟨"b", false⟩] ∧
      u.expand (.ofList [("a", .list ["1", "2"]), ("b", .str "3")]) = "é1,2\x7d\x7dü?b=3") ∧
    parse ("é\x7ba*\x7d\x7d" ++ "ü\x7d\x7bb") = .error ⟨10⟩ := by
  have h : parse "é\x7ba*\x7d\x7d" = .ok ⟨"é\x7ba*\x7d\x7d",
    [.literal "é", .expression ⟨.simple, [⟨"a", true⟩]⟩, .literal "\x7d"]⟩ := rfl
  obtain ⟨u, hu, hsegments, hvars, hexpand⟩ := (parse_append h "\x7dü\x7b?b\x7d").1
    ⟨"\x7dü\x7b?b\x7d", [.literal "\x7dü", .expression ⟨.query, [⟨"b", false⟩]⟩]⟩ rfl
  exact ⟨h, ⟨u, hu, hsegments, hvars, hexpand _⟩, (parse_append h "ü\x7d\x7bb").2 ⟨3⟩ rfl⟩

end Template

end UriExpansion
