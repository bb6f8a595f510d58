import Mathlib.Data.List.Induction
import UriExpansion.Proofs.Template.Rounds

/-!
# Texts that are no template

A text is refused exactly when one of its opening braces has no closing brace behind it. The braces
that a scan meets inside of a body, and stray closing braces, do not matter for this: a round never
takes an unclosed brace out of the rest. The error names the first opening brace behind the last
closing brace, and everything ahead of it is a template.
-/

namespace UriExpansion

/-- Some opening brace has no closing brace behind it. -/
def Unclosed (cs : List Char) : Prop :=
  ∃ front back, cs = front ++ '{' :: back ∧ '}' ∉ back

/-- The second text is what stands ahead of the first opening brace behind the last closing brace
of the first text. -/
def AheadOfUnclosed (text before : String) : Prop :=
  ∃ settled plain back, text.toList = before.toList ++ '{' :: back ∧
    before.toList = settled ++ plain ∧
    (settled = [] ∨ settled.getLast? = some '}') ∧ '{' ∉ plain ∧ '}' ∉ plain ∧ '}' ∉ back

theorem not_unclosed_nil : ¬Unclosed [] := by
  rintro ⟨front, back, h, -⟩
  simp at h

theorem unclosed_cons_iff {c : Char} {cs : List Char} :
    Unclosed (c :: cs) ↔ (c = '{' ∧ '}' ∉ cs) ∨ Unclosed cs := by
  constructor
  · rintro ⟨front, back, h, hback⟩
    cases front with
    | nil =>
      cases h
      exact Or.inl ⟨rfl, hback⟩
    | cons d front =>
      cases h
      exact Or.inr ⟨front, back, rfl, hback⟩
  · rintro (⟨rfl, hcs⟩ | ⟨front, back, rfl, hback⟩)
    · exact ⟨[], cs, rfl, hcs⟩
    · exact ⟨c :: front, back, rfl, hback⟩

theorem unclosed_append_brace_iff {cs rest : List Char} :
    Unclosed (cs ++ '}' :: rest) ↔ Unclosed rest := by
  induction cs with
  | nil => simp [unclosed_cons_iff]
  | cons c cs ih => simp [unclosed_cons_iff, ih]

theorem Unclosed.brace_mem {cs : List Char} (h : Unclosed cs) : '{' ∈ cs := by
  obtain ⟨front, back, rfl, -⟩ := h
  simp

theorem not_unclosed_append {xs ys : List Char} (hxs : ¬Unclosed xs) (hys : ¬Unclosed ys) :
    ¬Unclosed (xs ++ ys) := by
  induction xs with
  | nil => exact hys
  | cons c xs ih =>
    rw [unclosed_cons_iff, not_or] at hxs
    rw [List.cons_append, unclosed_cons_iff, not_or]
    refine ⟨fun h => hxs.1 ⟨h.1, fun hmem => h.2 (List.mem_append_left ys hmem)⟩, ih hxs.2⟩

theorem AheadOfUnclosed.not_unclosed {text before : String} (h : AheadOfUnclosed text before) :
    ¬Unclosed before.toList := by
  obtain ⟨settled, plain, back, -, hbefore, hlast, hopen, -, -⟩ := h
  rw [hbefore]
  rcases hlast with rfl | hlast
  · exact fun hu => hopen hu.brace_mem
  · obtain ⟨front, rfl⟩ := List.getLast?_eq_some_iff.1 hlast
    rw [List.append_assoc, List.singleton_append, unclosed_append_brace_iff]
    exact fun hu => hopen hu.brace_mem

theorem exists_split_at_last (c : Char) (cs : List Char) : ∃ settled plain,
    cs = settled ++ plain ∧ (settled = [] ∨ settled.getLast? = some c) ∧ c ∉ plain := by
  induction cs using List.reverseRecOn with
  | nil => exact ⟨[], [], rfl, Or.inl rfl, List.not_mem_nil⟩
  | append_singleton cs d ih =>
    by_cases hd : d = c
    · subst hd
      exact ⟨cs ++ [d], [], by simp, Or.inr (by simp), List.not_mem_nil⟩
    · obtain ⟨settled, plain, rfl, hlast, hplain⟩ := ih
      exact ⟨settled, plain ++ [d], by simp, hlast, by simp [hplain, Ne.symm hd]⟩

theorem aheadOfUnclosed_of_not_unclosed {text before : String} {back : List Char}
    (htext : text.toList = before.toList ++ '{' :: back) (hback : '}' ∉ back)
    (h : ¬Unclosed before.toList) : AheadOfUnclosed text before := by
  obtain ⟨settled, plain, hsplit, hlast, hplain⟩ := exists_split_at_last '}' before.toList
  refine ⟨settled, plain, back, htext, hsplit, hlast, fun hmem => ?_, hplain, hback⟩
  obtain ⟨front, behind, hp⟩ := List.append_of_mem hmem
  refine h ⟨settled ++ front, behind, by rw [hsplit, hp, List.append_assoc], ?_⟩
  exact fun hbehind => hplain (by rw [hp]; simp [hbehind])

namespace Scan

variable {s s' : Scan}

theorem Step.unclosed_rest (h : Step s s') (hs : Unclosed s.rest) : Unclosed s'.rest := by
  cases h with
  | char hrest hc =>
    rw [hrest, unclosed_cons_iff] at hs
    exact hs.resolve_left fun hopen => hc hopen.1
  | body hrest hbody =>
    rw [hrest, ← List.cons_append] at hs
    exact unclosed_append_brace_iff.1 hs

theorem unclosed_rest_of_reaches (h : Reaches s s') (hs : Unclosed s.rest) : Unclosed s'.rest := by
  induction h with
  | refl => exact hs
  | tail _ hstep ih => exact hstep.unclosed_rest ih

end Scan

namespace Template

variable {text before : String}

theorem not_unclosed_of_parse {t : Template} (h : parse text = .ok t) : ¬Unclosed text.toList := by
  obtain ⟨s, hreaches, hrest, -⟩ := parse_eq_ok_iff.1 h
  intro hopen
  have hs := Scan.unclosed_rest_of_reaches hreaches hopen
  rw [hrest] at hs
  exact not_unclosed_nil hs

theorem exists_parse_of_not_unclosed (h : ¬Unclosed text.toList) : ∃ t, parse text = .ok t := by
  cases hp : parse text with
  | ok t => exact ⟨t, rfl⟩
  | error e =>
    obtain ⟨s, hreaches, ⟨cs, hrest, hcs⟩, -⟩ := parse_eq_error_iff.1 hp
    exact absurd ⟨s.read, cs, by rw [← Scan.read_append_rest hreaches, hrest], hcs⟩ h

theorem exists_parse_read {s : Scan} (h : Scan.Reaches (Scan.start text) s) :
    ∃ t, parse (String.ofList s.read) = .ok t := by
  have hreaches := Scan.reaches_withRest h []
  rw [List.append_nil] at hreaches
  exact ⟨_, parse_of_rest_eq_nil hreaches rfl⟩

theorem aheadOfUnclosed_read {s : Scan} (h : Scan.Reaches (Scan.start text) s)
    (hstuck : s.Stuck) : AheadOfUnclosed text (String.ofList s.read) := by
  obtain ⟨cs, hrest, hcs⟩ := hstuck
  obtain ⟨t, ht⟩ := exists_parse_read h
  refine aheadOfUnclosed_of_not_unclosed ?_ hcs (not_unclosed_of_parse ht)
  rw [String.toList_ofList, ← Scan.read_append_rest h, hrest]

theorem parse_of_aheadOfUnclosed (h : AheadOfUnclosed text before) :
    parse text = .error ⟨before.utf8ByteSize⟩ := by
  obtain ⟨t, ht⟩ := exists_parse_of_not_unclosed h.not_unclosed
  obtain ⟨settled, plain, back, htext, -, -, -, -, hback⟩ := h
  obtain ⟨s, hreaches, hrest, -⟩ := parse_eq_ok_iff.1 ht
  have hread : s.read = before.toList := by
    rw [← Scan.read_append_rest hreaches, hrest, List.append_nil]
  -- the scan of `before` is the scan of the whole text up to the brace
  have hstuck := Scan.reaches_withRest hreaches ('{' :: back)
  rw [hread, ← htext, String.ofList_toList] at hstuck
  rw [parse_of_stuck hstuck ⟨back, rfl, hback⟩, Scan.withRest,
    Scan.position_eq_utf8Len_read hreaches, hread, ← String.utf8ByteSize_ofList,
    String.ofList_toList]

/-- A text is refused exactly when some brace of it is never closed, and then at the first opening
brace behind the last closing brace, counted in bytes; the text ahead of it is a template. -/
theorem parse_eq_error_iff_unclosed (text : String) :
    ((∃ e, parse text = .error e) ↔ Unclosed text.toList) ∧
    (∀ e, parse text = .error e ↔
      ∃ before, AheadOfUnclosed text before ∧ e.position = before.utf8ByteSize) ∧
    ∀ before, AheadOfUnclosed text before → ∃ t, parse before = .ok t := by
  refine ⟨⟨?_, ?_⟩, fun e => ⟨?_, ?_⟩, fun before h => exists_parse_of_not_unclosed h.not_unclosed⟩
  · rintro ⟨e, he⟩
    by_contra hclosed
    obtain ⟨t, ht⟩ := exists_parse_of_not_unclosed hclosed
    rw [ht] at he
    cases he
  · intro hopen
    cases h : parse text with
    | error e => exact ⟨e, rfl⟩
    | ok t => exact absurd hopen (not_unclosed_of_parse h)
  · intro he
    obtain ⟨s, hreaches, hstuck, rfl⟩ := parse_eq_error_iff.1 he
    refine ⟨_, aheadOfUnclosed_read hreaches hstuck, ?_⟩
    rw [String.utf8ByteSize_ofList]
    exact Scan.position_eq_utf8Len_read hreaches
  · rintro ⟨before, hbefore, hposition⟩
    obtain ⟨position⟩ := e
    rw [parse_of_aheadOfUnclosed hbefore, ← hposition]

theorem parse_error_behind_stray_brace :
    AheadOfUnclosed "é\x7ba\x7d\x7dé\x7bb\x7bc" "é\x7ba\x7d\x7dé" ∧
    parse "é\x7ba\x7d\x7dé\x7bb\x7bc" = .error ⟨8⟩ ∧
    ∃ t, parse "é\x7ba\x7d\x7dé" = .ok t := by
  have h : AheadOfUnclosed "é\x7ba\x7d\x7dé\x7bb\x7bc" "é\x7ba\x7d\x7dé" :=
    ⟨['é', '{', 'a', '}', '}'], ['é'], ['b', '{', 'c'], by decide⟩
  obtain ⟨-, herror, hparse⟩ := parse_eq_error_iff_unclosed "é\x7ba\x7d\x7dé\x7bb\x7bc"
  exact ⟨h, (herror ⟨8⟩).2 ⟨_, h, rfl⟩, hparse _ h⟩

end Template

end UriExpansion
