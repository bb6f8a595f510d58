import UriExpansion.Proofs.Json.Flat
import UriExpansion.Proofs.Json.Within.Container

/-!
# Documents as they are written

Some readers of JSON keep more of a text than others do, but they take the same characters: one
reader follows another when it reads whatever the other reads, up to the same place. Collections
inherit this from their elements. So every reader is compared with the one that keeps repeated keys:
a document is what is written with its keys merged, and parameters are read off what is written.
-/

namespace UriExpansion

namespace Json

variable {α β : Type} {first : Reader α} {second : Reader β} {R : α → β → Prop}

/-- What the first reader reads, the second one reads too, and the two are related. -/
def Follows (first : Reader α) (second : Reader β) (R : α → β → Prop) : Prop :=
  ∀ c x c', first c = .ok (x, c') → ∃ y, second c = .ok (y, c') ∧ R x y

theorem follows_iff_readsWithin :
    Follows first second R ↔ ReadsWithin 0 [] (fun _ => True) first second R := by
  simp [Follows, ReadsWithin]

theorem Follows.readArray (h : Follows first second R) :
    Follows (readArray first) (readArray second) (List.Forall₂ R) := fun c xs c' hread => by
  have hwithin :=
    (follows_iff_readsWithin.1 h).readArray delimits_nil c xs c' hread fun _ _ => trivial
  simpa using hwithin

theorem Follows.readObject (h : Follows first second R) :
    Follows (readObject first) (readObject second) (Keyed.Related R) := fun c ms c' hread => by
  have hwithin :=
    (follows_iff_readsWithin.1 h).readObject delimits_nil c ms c' hread fun _ _ => trivial
  simpa using hwithin

theorem readText_eq_ok_iff {read : Reader α} {text : String} {x : α} :
    readText read text = .ok x ↔ ∃ c, read (.start text) = .ok (x, c) ∧ readEnd c = .ok () := by
  rw [readText, mapError_eq_ok_iff]
  constructor
  · intro h
    obtain ⟨⟨y, c⟩, hread, h⟩ := bind_eq_ok_iff.1 h
    obtain ⟨_, hend, hy⟩ := bind_eq_ok_iff.1 h
    cases hy
    exact ⟨c, hread, hend⟩
  · rintro ⟨c, hread, hend⟩
    exact bind_eq_ok_iff.2 ⟨(x, c), hread, bind_eq_ok_iff.2 ⟨(), hend, rfl⟩⟩

theorem Follows.readText (h : Follows first second R) {text : String} {x : α}
    (hread : readText first text = .ok x) : ∃ y, readText second text = .ok y ∧ R x y := by
  obtain ⟨c, hx, hend⟩ := readText_eq_ok_iff.1 hread
  obtain ⟨y, hy, hxy⟩ := h _ x c hx
  exact ⟨y, readText_eq_ok_iff.2 ⟨c, hy, hend⟩, hxy⟩

/-- The document with repeated keys. -/
def parseWritten (text : String) : Except Error Json :=
  readText (readValue .object depthLimit) text

mutual

def merge : Json → Json
  | .array items => .array (mergeItems items)
  | .object members => .ofMembers (mergeMembers members)
  | .null => .null
  | .bool b => .bool b
  | .number n => .number n
  | .string s => .string s

def mergeItems : List Json → List Json
  | [] => []
  | j :: js => merge j :: mergeItems js

def mergeMembers : List (String × Json) → List (String × Json)
  | [] => []
  | (key, j) :: ms => (key, merge j) :: mergeMembers ms

end

theorem mergeItems_eq_map (items : List Json) : mergeItems items = items.map merge := by
  induction items with
  | nil => rfl
  | cons j js ih => rw [mergeItems, ih, List.map_cons]

theorem mergeMembers_eq_map (members : List (String × Json)) :
    mergeMembers members = members.map fun m => (m.1, m.2.merge) := by
  induction members with
  | nil => rfl
  | cons m ms ih => rw [mergeMembers, ih, List.map_cons]

theorem merge_of_isScalar {j : Json} (h : j.isScalar) : j.merge = j := by
  cases j with
  | null | array | object => cases h
  | _ => rfl

theorem null_or_isScalar_of_readScalar? {c c' : Cursor} {j : Json}
    (h : readScalar? c = some (.ok (j, c'))) : j = .null ∨ j.isScalar := by
  cases readScalar?_eq_ok_iff.1 h with
  | word hj _ _ =>
    cases hj with
    | null => exact .inl rfl
    | true | false => exact .inr rfl
  | negative | string | number => exact .inr rfl

theorem merge_of_readScalar? {c c' : Cursor} {j : Json} (h : readScalar? c = some (.ok (j, c'))) :
    j.merge = j := by
  rcases null_or_isScalar_of_readScalar? h with rfl | hscalar
  · rfl
  · exact merge_of_isScalar hscalar

theorem readScalar?_eq_none {c : Cursor} {x : Char} (hhead : c.rest.head? = some x)
    (hx : x = '[' ∨ x = '\x7b') : readScalar? c = none := by
  obtain ⟨rest, hrest⟩ := List.head?_eq_some_iff.1 hhead
  rcases hx with rfl | rfl <;> simp [readScalar?, hrest]

theorem readValue_eq_ok_iff {object : List (String × Json) → Json} {depth : Nat} {c c' : Cursor}
    {j : Json} : readValue object (depth + 1) c = .ok (j, c') ↔
      readScalar? c.skipBlank = some (.ok (j, c')) ∨
      (c.skipBlank.rest.head? = some '[' ∧ depth ≠ 0 ∧ ∃ items,
        readArray (readValue object depth) c.skipBlank.next = .ok (items, c') ∧ .array items = j) ∨
      (c.skipBlank.rest.head? = some '\x7b' ∧ depth ≠ 0 ∧ ∃ members,
        readObject (readValue object depth) c.skipBlank.next = .ok (members, c') ∧
          object members = j) := by
  simp only [readValue]
  cases hscalar : readScalar? c.skipBlank with
  | some reading =>
    have hhead : ∀ x, x = '[' ∨ x = '\x7b' → c.skipBlank.rest.head? ≠ some x := fun x hx hh => by
      rw [readScalar?_eq_none hh hx] at hscalar
      cases hscalar
    simp [hhead]
  | none =>
    simp only
    split
    case h_1 hrest => simp [hrest, Cursor.failAhead]
    case h_2 hrest =>
      by_cases hdepth : depth = 0 <;>
        simp [hrest, hdepth, Cursor.failAhead, map_eq_ok_iff]
    case h_3 hrest =>
      by_cases hdepth : depth = 0 <;>
        simp [hrest, hdepth, Cursor.failAhead, map_eq_ok_iff]
    case h_4 hbracket hbrace =>
      refine iff_of_false (fun hread => ?_) ?_
      · cases hread
      rintro (h | ⟨hhead, -⟩ | ⟨hhead, -⟩)
      · cases h
      · obtain ⟨rest, hrest⟩ := List.head?_eq_some_iff.1 hhead
        exact hbracket rest hrest
      · obtain ⟨rest, hrest⟩ := List.head?_eq_some_iff.1 hhead
        exact hbrace rest hrest

theorem follows_readValue {object object' : List (String × Json) → Json} {R : Json → Json → Prop}
    (hscalar : ∀ c j c', readScalar? c = some (.ok (j, c')) → R j j)
    (harray : ∀ xs ys, List.Forall₂ R xs ys → R (.array xs) (.array ys))
    (hobject : ∀ ms ns, Keyed.Related R ms ns → R (object ms) (object' ns)) (depth : Nat) :
    Follows (readValue object depth) (readValue object' depth) R := by
  induction depth with
  | zero => exact fun _ _ _ hread => nomatch hread
  | succ depth ih =>
    intro c j c' hread
    rcases readValue_eq_ok_iff.1 hread with
      hword | ⟨hhead, hdepth, items, hitems, rfl⟩ | ⟨hhead, hdepth, members, hmembers, rfl⟩
    · exact ⟨j, readValue_eq_ok_iff.2 (.inl hword), hscalar _ j c' hword⟩
    · obtain ⟨items', hitems', hrel⟩ := ih.readArray _ _ _ hitems
      exact ⟨_, readValue_eq_ok_iff.2 (.inr (.inl ⟨hhead, hdepth, items', hitems', rfl⟩)),
        harray items items' hrel⟩
    · obtain ⟨members', hmembers', hrel⟩ := ih.readObject _ _ _ hmembers
      exact ⟨_, readValue_eq_ok_iff.2 (.inr (.inr ⟨hhead, hdepth, members', hmembers', rfl⟩)),
        hobject members members' hrel⟩

theorem merge_array_eq {items items' : List Json} (h : List.Forall₂ (merge · = ·) items items') :
    merge (.array items) = .array items' := by
  rw [← List.forall₂_map_left_iff, List.forall₂_eq_eq_eq] at h
  rw [merge, mergeItems_eq_map, h]

theorem merge_object_eq {members members' : List (String × Json)}
    (h : Keyed.Related (merge · = ·) members members') :
    merge (.object members) = ofMembers members' := by
  rw [merge, mergeMembers_eq_map, h.map_eq]

theorem follows_readValue_merge (depth : Nat) :
    Follows (readValue .object depth) (readValue ofMembers depth) fun j j' => j.merge = j' :=
  follows_readValue (fun _ _ _ => merge_of_readScalar?) (fun _ _ => merge_array_eq)
    (fun _ _ => merge_object_eq) depth

theorem follows_readValue_written (depth : Nat) :
    Follows (readValue ofMembers depth) (readValue .object depth) fun j' j => j.merge = j' :=
  follows_readValue (R := fun j' j => j.merge = j') (fun _ _ _ => merge_of_readScalar?)
    (fun _ _ h => merge_array_eq h.flip) (fun _ _ h => merge_object_eq h.symm) depth

end Json

end UriExpansion
