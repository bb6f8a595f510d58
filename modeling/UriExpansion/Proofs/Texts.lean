import Mathlib.Data.List.Basic

/-!
# Texts joined and cut

A joined text holds what its parts and its separator hold. Cutting at the separator gives the parts
back, unless one of them holds it.
-/

namespace UriExpansion

theorem mem_of_mem_intercalate {c : Char} {sep : List Char} {pieces : List (List Char)}
    (h : c ∈ sep.intercalate pieces) : c ∈ sep ∨ ∃ piece ∈ pieces, c ∈ piece := by
  induction pieces with
  | nil => cases h
  | cons piece pieces ih =>
    by_cases hp : pieces = []
    · subst hp
      exact Or.inr ⟨piece, List.mem_singleton_self piece, by simpa using h⟩
    · rw [List.intercalate_cons_of_ne_nil hp, List.mem_append, List.mem_append] at h
      rcases h with (hpiece | hsep) | hrest
      · exact Or.inr ⟨piece, List.mem_cons_self, hpiece⟩
      · exact Or.inl hsep
      · rcases ih hrest with hsep | ⟨other, hother, hmem⟩
        · exact Or.inl hsep
        · exact Or.inr ⟨other, List.mem_cons_of_mem piece hother, hmem⟩

theorem not_mem_intercalate {c : Char} {sep : String} {texts : List String} (hsep : c ∉ sep.toList)
    (htexts : ∀ text ∈ texts, c ∉ text.toList) : c ∉ (sep.intercalate texts).toList := by
  intro hmem
  rw [String.toList_intercalate] at hmem
  obtain hmem | ⟨part, hpart, hmem⟩ := mem_of_mem_intercalate hmem
  · exact hsep hmem
  · obtain ⟨text, htext, rfl⟩ := List.mem_map.1 hpart
    exact htexts text htext hmem

theorem intercalate_eq_empty_iff {sep : String} (hsep : sep ≠ "") {texts : List String} :
    sep.intercalate texts = "" ↔ texts = [] ∨ texts = [""] := by
  cases texts with
  | nil => simp
  | cons first others =>
    cases others with
    | nil => simp
    | cons second others =>
      -- a separator stands behind the first text
      simp only [String.intercalate_cons_cons, String.append_eq_empty_iff, hsep]
      simp

theorem text_map_append (f : Char → Char) (a b : String) :
    (a ++ b).map f = a.map f ++ b.map f := by
  apply String.toList_inj.1
  simp

theorem text_map_intercalate (f : Char → Char) (sep : String) (texts : List String) :
    (sep.intercalate texts).map f = (sep.map f).intercalate (texts.map (String.map f)) := by
  induction texts with
  | nil => simp
  | cons text texts ih =>
    by_cases htexts : texts = []
    · simp [htexts]
    · have hmap : texts.map (String.map f) ≠ [] := by simpa using htexts
      rw [List.map_cons, String.intercalate_cons_of_ne_nil htexts,
        String.intercalate_cons_of_ne_nil hmap, text_map_append, text_map_append, ih]

theorem mem_splitOn {c : Char} {cs piece : List Char} (h : piece ∈ cs.splitOn c) :
    c ∉ piece ∧ ∀ x ∈ piece, x ∈ cs := by
  induction cs generalizing piece with
  | nil => simp_all
  | cons b cs ih =>
    rw [List.splitOn_cons_eq_if_modifyHead] at h
    split at h
    case isTrue hb =>
      rcases List.mem_cons.1 h with rfl | h
      · simp
      · exact ⟨(ih h).1, fun x hx => List.mem_cons_of_mem b ((ih h).2 x hx)⟩
    case isFalse hb =>
      obtain ⟨first, others, hsplit⟩ := List.exists_cons_of_ne_nil (List.splitOn_ne_nil c cs)
      rw [hsplit, List.modifyHead_cons] at h
      rcases List.mem_cons.1 h with rfl | h
      · have hf := ih (hsplit ▸ List.mem_cons_self : first ∈ cs.splitOn c)
        have hbc : c ≠ b := fun e => hb (by simp [e])
        refine ⟨by simp [hf.1, hbc], fun x hx => ?_⟩
        rcases List.mem_cons.1 hx with rfl | hx
        · exact List.mem_cons_self
        · exact List.mem_cons_of_mem b (hf.2 x hx)
      · have ho := ih (hsplit ▸ List.mem_cons_of_mem first h : piece ∈ cs.splitOn c)
        exact ⟨ho.1, fun x hx => List.mem_cons_of_mem b (ho.2 x hx)⟩

def pieces (c : Char) (text : String) : List String :=
  (text.toList.splitOn c).map String.ofList

theorem pieces_intercalate {c : Char} {texts : List String} (hne : texts ≠ [])
    (h : ∀ text ∈ texts, c ∉ text.toList) :
    pieces c ((String.singleton c).intercalate texts) = texts := by
  have hparts : ∀ part ∈ texts.map String.toList, c ∉ part := by
    intro part hpart
    obtain ⟨text, htext, rfl⟩ := List.mem_map.1 hpart
    exact h text htext
  have hcut := List.splitOn_intercalate c hparts (by simpa using hne)
  rw [pieces, String.toList_intercalate, String.toList_singleton, hcut, List.map_map]
  simp [Function.comp_def]

end UriExpansion
