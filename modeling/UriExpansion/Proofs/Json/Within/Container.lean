import Mathlib.Data.List.Forall2
import UriExpansion.Proofs.Json.Within.Scalar
import UriExpansion.Proofs.Store.Repeats

/-!
# Collections inside of longer texts

One reader can take the place of another inside of a longer text: what the one reads alone, the
other reads there, up to the same place. Collections inherit this from their elements.
-/

namespace UriExpansion

namespace Json

variable {α β : Type} {before : Nat} {tail : List Char}

open Cursor

theorem readElements_succ_eq_ok_iff {element : Reader α} {fuel : Nat} {c c' : Cursor}
    {xs : List α} : readElements element (fuel + 1) c = .ok (xs, c') ↔
      ∃ x c₁, element c = .ok (x, c₁) ∧
        ((c₁.skipBlank.rest.head? = some ']' ∧ [x] = xs ∧ c₁.skipBlank.next = c') ∨
        (c₁.skipBlank.rest.head? = some ',' ∧
          (∃ y, c₁.skipBlank.next.skipBlank.rest.head? = some y ∧ y ≠ ']') ∧
          ∃ ys, readElements element fuel c₁.skipBlank.next.skipBlank = .ok (ys, c') ∧
            x :: ys = xs)) := by
  rw [readElements, bind_eq_ok_iff, Prod.exists]
  refine exists_congr fun x => exists_congr fun c₁ => and_congr_right fun _ => ?_
  simp only
  split
  case h_1 hend => simp [hend, failAhead]
  case h_2 hclose => simp [hclose]
  case h_3 hcomma =>
    split
    case h_1 hend => simp [hcomma, hend, failAhead]
    case h_2 hclose => simp [hcomma, hclose, failAhead]
    case h_3 hend hclose =>
      obtain ⟨y, rest, hrest⟩ := List.exists_cons_of_ne_nil hend
      have hy : y ≠ ']' := fun h => hclose rest (h ▸ hrest)
      simp [hcomma, hrest, hy, bind_eq_ok_iff]
  case h_4 hend hclose hcomma =>
    simp [head?_ne hclose, head?_ne hcomma, failAhead]

theorem readArray_eq_ok_iff {element : Reader α} {c c' : Cursor} {xs : List α} :
    readArray element c = .ok (xs, c') ↔
      (c.skipBlank.rest.head? = some ']' ∧ [] = xs ∧ c.skipBlank.next = c') ∨
      (∃ y, c.skipBlank.rest.head? = some y ∧ y ≠ ']') ∧
        readElements element c.skipBlank.rest.length c.skipBlank = .ok (xs, c') := by
  simp only [readArray]
  split
  case h_1 hend => simp [hend, failAhead]
  case h_2 hclose => simp [hclose]
  case h_3 hend hclose =>
    obtain ⟨y, rest, hrest⟩ := List.exists_cons_of_ne_nil hend
    have hy : y ≠ ']' := fun h => hclose rest (h ▸ hrest)
    simp [hrest, hy]

theorem readColon_eq_ok_iff {c c' : Cursor} :
    readColon c = .ok c' ↔ c.skipBlank.rest.head? = some ':' ∧ c.skipBlank.next = c' := by
  simp only [readColon]
  split
  case h_1 hend => simp [hend, failAhead]
  case h_2 hcolon => simp [hcolon]
  case h_3 hend hcolon => simp [head?_ne hcolon, failAhead]

theorem readMember_eq_ok_iff {value : Reader α} {c c' : Cursor} {m : String × α} :
    readMember value c = .ok (m, c') ↔ ∃ c₁, readString c = .ok (m.1, c₁) ∧
      c₁.skipBlank.rest.head? = some ':' ∧ value c₁.skipBlank.next = .ok (m.2, c') := by
  rw [readMember, bind_eq_ok_iff, Prod.exists]
  simp only [bind_eq_ok_iff, readColon_eq_ok_iff]
  constructor
  · rintro ⟨key, c₁, hkey, c₂, ⟨hcolon, rfl⟩, ⟨x, c₃⟩, hx, heq⟩
    cases heq
    exact ⟨c₁, hkey, hcolon, hx⟩
  · rintro ⟨c₁, hkey, hcolon, hx⟩
    exact ⟨m.1, c₁, hkey, _, ⟨hcolon, rfl⟩, (m.2, c'), hx, rfl⟩

theorem readMembers_succ_eq_ok_iff {value : Reader α} {fuel : Nat} {c c' : Cursor}
    {ms : List (String × α)} : readMembers value (fuel + 1) c = .ok (ms, c') ↔
      ∃ m c₁, readMember value c.next = .ok (m, c₁) ∧
        ((c₁.skipBlank.rest.head? = some '\x7d' ∧ [m] = ms ∧ c₁.skipBlank.next = c') ∨
        (c₁.skipBlank.rest.head? = some ',' ∧
          c₁.skipBlank.next.skipBlank.rest.head? = some '"' ∧
          ∃ ns, readMembers value fuel c₁.skipBlank.next.skipBlank = .ok (ns, c') ∧
            m :: ns = ms)) := by
  rw [readMembers, bind_eq_ok_iff, Prod.exists]
  refine exists_congr fun m => exists_congr fun c₁ => and_congr_right fun _ => ?_
  simp only
  split
  case h_1 hend => simp [hend, failAhead]
  case h_2 hclose => simp [hclose]
  case h_3 hcomma =>
    split
    case h_1 hend => simp [hcomma, hend, failAhead]
    case h_2 hquote => simp [hcomma, hquote, bind_eq_ok_iff]
    case h_3 hclose => simp [hcomma, hclose, failAhead]
    case h_4 hend hquote hclose => simp [hcomma, head?_ne hquote, failAhead]
  case h_4 hend hclose hcomma =>
    simp [head?_ne hclose, head?_ne hcomma, failAhead]

theorem readObject_eq_ok_iff {value : Reader α} {c c' : Cursor} {ms : List (String × α)} :
    readObject value c = .ok (ms, c') ↔
      (c.skipBlank.rest.head? = some '\x7d' ∧ [] = ms ∧ c.skipBlank.next = c') ∨
      c.skipBlank.rest.head? = some '"' ∧
        readMembers value c.skipBlank.rest.length c.skipBlank = .ok (ms, c') := by
  simp only [readObject]
  split
  case h_1 hend => simp [hend, failAhead]
  case h_2 hclose => simp [hclose]
  case h_3 hquote => simp [hquote]
  case h_4 hend hclose hquote => simp [head?_ne hclose, head?_ne hquote, failAhead]

variable {P : α → Prop} {first : Reader α} {second : Reader β} {R : α → β → Prop}

/-- Whatever of the kind `P` the first reader reads alone, the second one reads in the longer text,
and the two are related. -/
def ReadsWithin (before : Nat) (tail : List Char) (P : α → Prop) (first : Reader α)
    (second : Reader β) (R : α → β → Prop) : Prop :=
  ∀ c x c', first c = .ok (x, c') → P x →
    ∃ y, second (c.within before tail) = .ok (y, c'.within before tail) ∧ R x y

namespace ReadsWithin

theorem readElements (h : ReadsWithin before tail P first second R) (ht : Delimits tail)
    {fuel fuel' : Nat} (hfuel : fuel ≤ fuel') :
    ReadsWithin before tail (fun xs => ∀ x ∈ xs, P x) (readElements first fuel)
      (readElements second fuel') (List.Forall₂ R) := by
  induction fuel generalizing fuel' with
  | zero => exact fun _ _ _ hread => nomatch hread
  | succ fuel ih =>
    obtain ⟨fuel', rfl⟩ : ∃ n, fuel' = n + 1 := ⟨fuel' - 1, by omega⟩
    intro c xs c' hread hP
    obtain ⟨x, c₁, hx, hmore⟩ := readElements_succ_eq_ok_iff.1 hread
    simp only [readElements_succ_eq_ok_iff]
    rcases hmore with ⟨hclose, rfl, rfl⟩ | ⟨hcomma, ⟨z, hz, hne⟩, ys, hys, rfl⟩
    · obtain ⟨y, hy, hxy⟩ := h c x c₁ hx (hP x List.mem_cons_self)
      refine ⟨[y], ⟨y, _, hy, .inl ⟨?_, rfl, ?_⟩⟩, .cons hxy .nil⟩
      · rw [skipBlank_within ht, head?_within_of_some hclose]
      · rw [skipBlank_within ht, next_within (ne_nil_of_head? hclose)]
    · obtain ⟨y, hy, hxy⟩ := h c x c₁ hx (hP x List.mem_cons_self)
      obtain ⟨ws, hws, hrel⟩ := ih (Nat.le_of_succ_le_succ hfuel) _ ys c' hys fun w hw =>
        hP w (List.mem_cons_of_mem x hw)
      refine ⟨y :: ws, ⟨y, _, hy, .inr ?_⟩, .cons hxy hrel⟩
      rw [skipBlank_within ht, next_within (ne_nil_of_head? hcomma), skipBlank_within ht]
      exact ⟨head?_within_of_some hcomma, ⟨z, head?_within_of_some hz, hne⟩, ws, hws, rfl⟩

theorem readArray (h : ReadsWithin before tail P first second R) (ht : Delimits tail) :
    ReadsWithin before tail (fun xs => ∀ x ∈ xs, P x) (readArray first) (readArray second)
      (List.Forall₂ R) := by
  intro c xs c' hread hP
  simp only [readArray_eq_ok_iff, skipBlank_within ht]
  rcases readArray_eq_ok_iff.1 hread with ⟨hclose, rfl, rfl⟩ | ⟨⟨z, hz, hne⟩, hxs⟩
  · refine ⟨[], .inl ⟨head?_within_of_some hclose, rfl, ?_⟩, .nil⟩
    rw [next_within (ne_nil_of_head? hclose)]
  · have hfuel : c.skipBlank.rest.length ≤ (c.skipBlank.within before tail).rest.length := by
      simp [within]
    obtain ⟨ys, hys, hrel⟩ := h.readElements ht hfuel _ xs c' hxs hP
    exact ⟨ys, .inr ⟨⟨z, head?_within_of_some hz, hne⟩, hys⟩, hrel⟩

theorem readMember (h : ReadsWithin before tail P first second R) (ht : Delimits tail) :
    ReadsWithin before tail (fun m => P m.2) (readMember first) (readMember second)
      fun m m' => m.1 = m'.1 ∧ R m.2 m'.2 := by
  intro c m c' hread hP
  obtain ⟨c₁, hkey, hcolon, hx⟩ := readMember_eq_ok_iff.1 hread
  obtain ⟨y, hy, hxy⟩ := h _ m.2 c' hx hP
  refine ⟨(m.1, y), readMember_eq_ok_iff.2 ⟨_, kept_readString c m.1 c₁ hkey, ?_, ?_⟩, rfl, hxy⟩
  · rw [skipBlank_within ht, head?_within_of_some hcolon]
  · rwa [skipBlank_within ht, next_within (ne_nil_of_head? hcolon)]

theorem readMembers (h : ReadsWithin before tail P first second R) (ht : Delimits tail)
    {fuel fuel' : Nat} (hfuel : fuel ≤ fuel') {c c' : Cursor} {ms : List (String × α)}
    (hquote : c.rest.head? = some '"') (hread : readMembers first fuel c = .ok (ms, c'))
    (hP : ∀ m ∈ ms, P m.2) :
    ∃ ms', Json.readMembers second fuel' (c.within before tail) =
      .ok (ms', c'.within before tail) ∧ Keyed.Related R ms ms' := by
  induction fuel generalizing fuel' c ms with
  | zero => cases hread
  | succ fuel ih =>
    obtain ⟨fuel', rfl⟩ : ∃ n, fuel' = n + 1 := ⟨fuel' - 1, by omega⟩
    obtain ⟨m, c₁, hm, hmore⟩ := readMembers_succ_eq_ok_iff.1 hread
    simp only [readMembers_succ_eq_ok_iff, next_within (ne_nil_of_head? hquote)]
    rcases hmore with ⟨hclose, rfl, rfl⟩ | ⟨hcomma, hquote', ns, hns, rfl⟩
    · obtain ⟨m', hm', hrel⟩ := h.readMember ht _ m c₁ hm (hP m List.mem_cons_self)
      refine ⟨[m'], ⟨m', _, hm', .inl ⟨?_, rfl, ?_⟩⟩, .cons hrel .nil⟩
      · rw [skipBlank_within ht, head?_within_of_some hclose]
      · rw [skipBlank_within ht, next_within (ne_nil_of_head? hclose)]
    · obtain ⟨m', hm', hrel⟩ := h.readMember ht _ m c₁ hm (hP m List.mem_cons_self)
      obtain ⟨ns', hns', hrels⟩ := ih (Nat.le_of_succ_le_succ hfuel) hquote' hns fun n hn =>
        hP n (List.mem_cons_of_mem m hn)
      refine ⟨m' :: ns', ⟨m', _, hm', .inr ?_⟩, .cons hrel hrels⟩
      rw [skipBlank_within ht, next_within (ne_nil_of_head? hcomma), skipBlank_within ht]
      exact ⟨head?_within_of_some hcomma, head?_within_of_some hquote', ns', hns', rfl⟩

theorem readObject (h : ReadsWithin before tail P first second R) (ht : Delimits tail) :
    ReadsWithin before tail (fun ms => ∀ m ∈ ms, P m.2) (readObject first) (readObject second)
      (Keyed.Related R) := by
  intro c ms c' hread hP
  simp only [readObject_eq_ok_iff, skipBlank_within ht]
  rcases readObject_eq_ok_iff.1 hread with ⟨hclose, rfl, rfl⟩ | ⟨hquote, hms⟩
  · refine ⟨[], .inl ⟨head?_within_of_some hclose, rfl, ?_⟩, .nil⟩
    rw [next_within (ne_nil_of_head? hclose)]
  · have hfuel : c.skipBlank.rest.length ≤ (c.skipBlank.within before tail).rest.length := by
      simp [within]
    obtain ⟨ms', hms', hrel⟩ := h.readMembers ht hfuel hquote hms hP
    exact ⟨ms', .inr ⟨head?_within_of_some hquote, hms'⟩, hrel⟩

end ReadsWithin

end Json

end UriExpansion
