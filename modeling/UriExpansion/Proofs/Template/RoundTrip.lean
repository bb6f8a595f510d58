import UriExpansion.Proofs.Template.Canonical
import UriExpansion.Proofs.Template.Rounds

/-!
# Reading and printing templates

Printing undoes reading: the segments of a template print as its text. Reading undoes printing on
canonical segments, and these are all that reading can give.
-/

namespace UriExpansion

theorem Canonical.append {xs ys : List Segment} (hxs : Canonical xs) (hys : Canonical ys)
    (hseam : ∀ x ∈ xs.getLast?, ∀ y ∈ ys.head?, ¬(x.isLiteral ∧ y.isLiteral)) :
    Canonical (xs ++ ys) where
  each x hx := (List.mem_append.1 hx).elim (hxs.each x) (hys.each x)
  apart := hxs.apart.append hys.apart hseam

theorem Canonical.append_singleton {segments : List Segment} {x : Segment} (h : Canonical segments)
    (hx : x.Canonical) (happart : ∀ y ∈ segments.getLast?, ¬(y.isLiteral ∧ x.isLiteral)) :
    Canonical (segments ++ [x]) := by
  have hsingle : Canonical [x] :=
    ⟨fun y hy => List.mem_singleton.1 hy ▸ hx, List.isChain_singleton x⟩
  refine h.append hsingle fun y hy z hz => ?_
  cases hz
  exact happart y hy

namespace Scan

variable {s s' : Scan}

structure Tidy (s : Scan) : Prop where
  canonical : Canonical s.segments
  closed : ∀ x ∈ s.segments.getLast?, ¬x.isLiteral
  literal : '{' ∉ s.literal.toList

theorem tidy_start (text : String) : (start text).Tidy :=
  ⟨⟨by simp [start], by simp [start]⟩, by simp [start], by simp [start]⟩

theorem Tidy.canonical_flush (h : s.Tidy) : Canonical s.flush := by
  unfold flush
  split
  case isTrue => exact h.canonical
  case isFalse hne =>
    refine h.canonical.append_singleton ⟨by simpa using hne, h.literal⟩ ?_
    exact fun y hy hlit => h.closed y hy hlit.1

theorem Tidy.step (h : s.Tidy) (hstep : Step s s') : s'.Tidy := by
  cases hstep with
  | char hrest hc => exact ⟨h.canonical, h.closed, by simp [pushChar, h.literal, hc.symm]⟩
  | body hrest hbody =>
    have hx := Expression.canonical_ofBody hbody
    refine ⟨h.canonical_flush.append_singleton hx ?_, ?_, ?_⟩
    · simp [Segment.isLiteral]
    · simp [pushBody, Segment.isLiteral]
    · simp [pushBody]

theorem tidy_of_reaches_start {text : String} (h : Reaches (start text) s) : s.Tidy := by
  induction h with
  | refl => exact tidy_start text
  | tail _ hstep ih => exact ih.step hstep

def pushLiteral (s : Scan) (cs rest : List Char) : Scan :=
  ⟨s.segments, s.literal ++ String.ofList cs, s.position + String.utf8Len cs, rest⟩

theorem reaches_pushLiteral {cs rest : List Char} (hcs : '{' ∉ cs) (hrest : s.rest = cs ++ rest) :
    Reaches s (s.pushLiteral cs rest) := by
  induction cs generalizing s with
  | nil =>
    obtain ⟨segments, literal, position, left⟩ := s
    simp only [List.nil_append] at hrest
    subst hrest
    simpa [pushLiteral] using Relation.ReflTransGen.refl
  | cons c cs ih =>
    have hc : c ≠ '{' := fun e => hcs (e ▸ List.mem_cons_self)
    have hstep : Step s (s.pushChar c (cs ++ rest)) := .char hrest hc
    have htail := ih (s := s.pushChar c (cs ++ rest)) (fun h => hcs (List.mem_cons_of_mem c h)) rfl
    have hliteral : s.literal.push c ++ String.ofList cs = s.literal ++ String.ofList (c :: cs) :=
      String.toList_inj.1 (by simp)
    have hend : (s.pushChar c (cs ++ rest)).pushLiteral cs rest = s.pushLiteral (c :: cs) rest := by
      simp only [pushLiteral, pushChar, String.utf8Len_cons, hliteral, Nat.add_assoc,
        Nat.add_comm c.utf8Size]
    exact .head hstep (hend ▸ htail)

theorem reaches_of_canonical {segments : List Segment} (h : Canonical segments)
    (hrest : s.rest = segments.flatMap Segment.source)
    (hliteral : ∀ x ∈ segments.head?, x.isLiteral → s.literal = "") :
    ∃ s', Reaches s s' ∧ s'.rest = [] ∧ s'.flush = s.flush ++ segments := by
  induction segments generalizing s with
  | nil => exact ⟨s, .refl, hrest, (List.append_nil _).symm⟩
  | cons x segments ih =>
    have htail : Canonical segments :=
      ⟨fun y hy => h.each y (List.mem_cons_of_mem x hy), h.apart.tail⟩
    have hx := h.each x List.mem_cons_self
    cases x with
    | literal text =>
      have hempty := hliteral _ rfl rfl
      have hreaches : Reaches s (s.pushLiteral text.toList (segments.flatMap Segment.source)) :=
        reaches_pushLiteral hx.2 hrest
      obtain ⟨s', hs', hend, hflush⟩ := ih (s := s.pushLiteral text.toList _) htail rfl
        fun y hy hlit => absurd ⟨rfl, hlit⟩ (h.apart.rel_head? hy)
      refine ⟨s', hreaches.trans hs', hend, ?_⟩
      rw [hflush, flush, flush]
      simp [pushLiteral, hempty, hx.1]
    | expression e =>
      have hbrace := Expression.brace_not_mem_body hx
      have hstep : Step s (s.pushBody e.body (segments.flatMap Segment.source)) :=
        .body (by simp [hrest, Segment.source]) hbrace
      obtain ⟨s', hs', hend, hflush⟩ := ih (s := s.pushBody e.body _) htail rfl fun _ _ _ => rfl
      refine ⟨s', .head hstep hs', hend, ?_⟩
      rw [hflush, flush_pushBody, Expression.ofBody_body hx, List.append_assoc,
        List.singleton_append]

end Scan

namespace Template

variable {text : String} {t : Template}

theorem sourceOf_segments (h : parse text = .ok t) : sourceOf t.segments = text := by
  obtain ⟨s, hreaches, hrest, rfl⟩ := parse_eq_ok_iff.1 h
  have hread := Scan.read_append_rest hreaches
  rw [hrest, List.append_nil, ← Scan.toList_sourceOf_flush] at hread
  exact String.toList_inj.1 hread

theorem canonical_segments (h : parse text = .ok t) : Canonical t.segments := by
  obtain ⟨s, hreaches, -, rfl⟩ := parse_eq_ok_iff.1 h
  exact (Scan.tidy_of_reaches_start hreaches).canonical_flush

theorem parse_sourceOf_of_canonical {segments : List Segment} (h : Canonical segments) :
    parse (sourceOf segments) = .ok ⟨sourceOf segments, segments⟩ := by
  obtain ⟨s, hreaches, hrest, hflush⟩ := Scan.reaches_of_canonical
    (s := Scan.start (sourceOf segments)) h (toList_sourceOf segments) fun _ _ _ => rfl
  rw [parse_of_rest_eq_nil hreaches hrest, hflush]
  rfl

/-- Reading loses nothing: the segments print as the text, so they belong to no other text. -/
theorem sourceOf_parse :
    (∀ (text : String) (t : Template), parse text = .ok t → sourceOf t.segments = text) ∧
    ∀ (text text' : String) (t t' : Template), parse text = .ok t → parse text' = .ok t' →
      t.segments = t'.segments → text = text' := by
  refine ⟨fun text t h => sourceOf_segments h, ?_⟩
  intro text text' t t' h h' heq
  rw [← sourceOf_segments h, ← sourceOf_segments h', heq]

theorem sourceOf_parse_stray_brace :
    parse "é\x7b/x*,y**\x7d\x7d" = .ok ⟨"é\x7b/x*,y**\x7d\x7d",
      [.literal "é", .expression ⟨.pathSegment, [⟨"x", true⟩, ⟨"y*", true⟩]⟩, .literal "\x7d"]⟩ ∧
    sourceOf [.literal "é", .expression ⟨.pathSegment, [⟨"x", true⟩, ⟨"y*", true⟩]⟩,
      .literal "\x7d"] = "é\x7b/x*,y**\x7d\x7d" ∧
    "é\x7b/x*,y**" ++ "\x7d\x7d" = "é\x7b/x*,y**\x7d\x7d" :=
  ⟨rfl, sourceOf_parse.1 "é\x7b/x*,y**\x7d\x7d" _ rfl,
    sourceOf_parse.2 ("é\x7b/x*,y**" ++ "\x7d\x7d") "é\x7b/x*,y**\x7d\x7d" _ _ rfl rfl rfl⟩

/-- The segments that texts read as are the canonical ones, and each such list is read back from
the text that it prints as. -/
theorem parse_sourceOf (segments : List Segment) :
    ((∃ (text : String) (t : Template), parse text = .ok t ∧ t.segments = segments) ↔
      Canonical segments) ∧
    (Canonical segments → parse (sourceOf segments) = .ok ⟨sourceOf segments, segments⟩) := by
  refine ⟨⟨?_, fun h => ⟨_, _, parse_sourceOf_of_canonical h, rfl⟩⟩, parse_sourceOf_of_canonical⟩
  rintro ⟨text, t, h, rfl⟩
  exact canonical_segments h

theorem parse_sourceOf_lone_star :
    Canonical [.literal "é\x7d", .expression ⟨.simple, [⟨"", true⟩, ⟨"\x7b?", false⟩]⟩] ∧
    parse "é\x7d\x7b*,\x7b?\x7d" = .ok ⟨"é\x7d\x7b*,\x7b?\x7d",
      [.literal "é\x7d", .expression ⟨.simple, [⟨"", true⟩, ⟨"\x7b?", false⟩]⟩]⟩ := by
  have h : Canonical [.literal "é\x7d",
    .expression ⟨.simple, [⟨"", true⟩, ⟨"\x7b?", false⟩]⟩] := by decide
  exact ⟨h, (parse_sourceOf _).2 h⟩

end Template

end UriExpansion
