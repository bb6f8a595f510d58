import UriExpansion.Proofs.Json.Readings

/-!
# Documents as the value of a parameter

A text that is read as a document can stand as the value of a member. If it is flat the direct
reading takes it there, with the value that the document gives.
-/

namespace UriExpansion

namespace Json

variable {before : Nat} {tail : List Char}

open Cursor

theorem exists_scalarText? {j : Json} (h : j.isScalar) : ∃ text, j.scalarText? = some text := by
  cases j with
  | null | array | object => cases h
  | _ => exact ⟨_, rfl⟩

theorem readScalar_within (ht : Delimits tail) (wanted : Shape) (depth : Nat) :
    ReadsWithin before tail (fun j => j.isScalar) (readValue .object depth) (readScalar wanted)
      fun j text => j.scalarText? = some text := by
  intro c j c' hread hscalar
  obtain ⟨text, htext⟩ := exists_scalarText? hscalar
  cases depth with
  | zero => cases hread
  | succ depth =>
    rcases readValue_eq_ok_iff.1 hread with hword | ⟨-, -, _, -, rfl⟩ | ⟨-, -, _, -, rfl⟩
    · refine ⟨text, readScalar_eq_ok_iff.2 ⟨j, ?_, htext⟩, htext⟩
      rw [skipBlank_within ht, readScalar?_within before ht hword]
    · cases hscalar
    · cases hscalar

theorem head?_of_readScalar? {c c' : Cursor} {j : Json} (h : readScalar? c = some (.ok (j, c'))) :
    c.rest.head? ≠ some '[' ∧ c.rest.head? ≠ some '\x7b' := by
  constructor <;> intro hhead
  · rw [readScalar?_eq_none hhead (.inl rfl)] at h
    cases h
  · rw [readScalar?_eq_none hhead (.inr rfl)] at h
    cases h

theorem readParam_within (ht : Delimits tail) (depth : Nat) :
    ReadsWithin before tail (fun j => j.isFlat ∧ j ≠ .null) (readValue .object depth) readParam
      fun j v => j.toValue = .ok v := by
  rintro c j c' hread ⟨hflat, hnull⟩
  cases depth with
  | zero => cases hread
  | succ depth =>
    simp only [readParam_eq_ok_iff, skipBlank_within ht]
    rcases readValue_eq_ok_iff.1 hread with
      hword | ⟨hhead, -, items, hitems, rfl⟩ | ⟨hhead, -, members, hmembers, rfl⟩
    · have hscalar : j.isScalar := (null_or_isScalar_of_readScalar? hword).resolve_left hnull
      obtain ⟨text, hread', htext⟩ := readScalar_within ht .value (depth + 1) _ _ _ hread hscalar
      have hhead := head?_of_readScalar? (readScalar?_within before ht hword)
      exact ⟨_, .inr (.inr ⟨hhead.1, hhead.2, text, hread', rfl⟩), toValue_of_scalarText? htext⟩
    · have hscalars : ∀ j ∈ items, j.isScalar := List.all_eq_true.1 hflat
      obtain ⟨texts, htexts, hrel⟩ :=
        (readScalar_within ht .scalar depth).readArray ht _ _ _ hitems hscalars
      refine ⟨_, .inl ⟨head?_within_of_some hhead, texts, ?_, rfl⟩,
        toValue_array_eq_ok_iff.2 ⟨texts, hrel, rfl⟩⟩
      rw [next_within (ne_nil_of_head? hhead), htexts]
    · have hscalars : ∀ m ∈ members, m.2.isScalar := List.all_eq_true.1 hflat
      obtain ⟨pairs, hpairs, hrel⟩ :=
        (readScalar_within ht .scalar depth).readObject ht _ _ _ hmembers hscalars
      refine ⟨_, .inr (.inl ⟨head?_within_of_some hhead, pairs, ?_, rfl⟩),
        toValue_object_eq_ok_iff.2 ⟨pairs, hrel, rfl⟩⟩
      rw [next_within (ne_nil_of_head? hhead), hpairs]

theorem null_of_head? {c c' : Cursor} {j : Json} (h : readScalar? c = some (.ok (j, c')))
    (hhead : c.rest.head? = some 'n') : j = .null := by
  obtain ⟨rest, hrest⟩ := List.head?_eq_some_iff.1 hhead
  simp only [readScalar?, hrest, Option.some.injEq] at h
  obtain ⟨_, -, hj⟩ := bind_eq_ok_iff.1 h
  cases hj
  rfl

theorem readWord_of_null {depth : Nat} {c c' : Cursor}
    (h : readValue .object (depth + 1) c = .ok (.null, c')) :
    c.skipBlank.rest.head? = some 'n' ∧ readWord ['u', 'l', 'l'] c.skipBlank.next = .ok c' := by
  rcases readValue_eq_ok_iff.1 h with hword | ⟨-, -, _, -, hj⟩ | ⟨-, -, _, -, hj⟩
  · cases readScalar?_eq_ok_iff.1 hword with
    | word hj hhead hread =>
      cases hj
      exact ⟨hhead, hread⟩
  · cases hj
  · cases hj

theorem readOptional_within (ht : Delimits tail) (depth : Nat) :
    ReadsWithin before tail (fun j => j.isFlat) (readValue .object depth) readOptional Gives := by
  intro c j c' hread hflat
  cases depth with
  | zero => cases hread
  | succ depth =>
    simp only [readOptional_eq_ok_iff, skipBlank_within ht]
    by_cases hnull : j = .null
    · subst hnull
      obtain ⟨hhead, hword⟩ := readWord_of_null hread
      refine ⟨none, .inl ⟨head?_within_of_some hhead, ?_, rfl⟩, gives_null_iff.2 rfl⟩
      rw [next_within (ne_nil_of_head? hhead), readWord_within hword]
    · obtain ⟨v, hv, hvalue⟩ := readParam_within ht (depth + 1) c j c' hread ⟨hflat, hnull⟩
      refine ⟨some v, .inr ⟨fun hhead => ?_, v, hv, rfl⟩, .of_toValue hvalue⟩
      -- nothing but `null` begins with this letter
      rw [head?_within ht _ (by decide)] at hhead
      rcases readValue_eq_ok_iff.1 hread with hword | ⟨hbracket, -⟩ | ⟨hbrace, -⟩
      · exact hnull (null_of_head? hword hhead)
      · rw [hbracket] at hhead
        cases hhead
      · rw [hbrace] at hhead
        cases hhead

theorem readChanges_within (ht : Delimits tail) (depth : Nat) :
    ReadsWithin before tail (fun j => j.isFlatObject) (readValue .object depth) readChanges
      fun j log => j.toChanges = .ok log := by
  intro c j c' hread hflat
  cases depth with
  | zero => cases hread
  | succ depth =>
    simp only [readChanges_eq_ok_iff, skipBlank_within ht]
    rcases readValue_eq_ok_iff.1 hread with
      hword | ⟨-, -, _, -, rfl⟩ | ⟨hhead, -, members, hmembers, rfl⟩
    · rcases null_or_isScalar_of_readScalar? hword with rfl | hscalar
      · cases hflat
      · cases j <;> first | cases hflat | cases hscalar
    · cases hflat
    · have hmember : ∀ m ∈ members, m.2.isFlat := List.all_eq_true.1 hflat
      obtain ⟨ms, hms, hrel⟩ := (readOptional_within ht depth).readObject ht _ _ _ hmembers hmember
      refine ⟨changes ms, ⟨head?_within_of_some hhead, ms, ?_, rfl⟩,
        toChanges_object_eq_ok_iff.2 ⟨ms, hrel, rfl⟩⟩
      rw [next_within (ne_nil_of_head? hhead), hms]

theorem readEnd_eq_ok_iff {c : Cursor} : readEnd c = .ok () ↔ c.skipBlank.rest = [] := by
  simp only [readEnd]
  split
  case isTrue h => simpa using h
  case isFalse h => simpa [failAhead] using h

theorem skipBlank_within_of_readEnd (before : Nat) (ht : Delimits tail) {c : Cursor}
    (h : readEnd c = .ok ()) :
    (c.within before tail).skipBlank = ⟨tail, c.skipBlank.offset + before⟩ := by
  rw [skipBlank_within ht, within, readEnd_eq_ok_iff.1 h, List.nil_append]

theorem readString_of_readScalar? {c c' : Cursor} {text : String}
    (h : readScalar? c = some (.ok (.string text, c'))) :
    c.rest.head? = some '"' ∧ readString c.next = .ok (text, c') := by
  cases readScalar?_eq_ok_iff.1 h with
  | word hj _ _ => cases hj
  | string _ hhead hread => exact ⟨hhead, hread⟩

theorem exists_readString_of_parse {key name : String} (h : parse key = .ok (.string name)) :
    ∃ c, (start key).skipBlank.rest.head? = some '"' ∧
      readString (start key).skipBlank.next = .ok (name, c) ∧ readEnd c = .ok () := by
  obtain ⟨c, hread, hend⟩ := readText_eq_ok_iff.1 h
  rcases readValue_eq_ok_iff.1 hread with hword | ⟨-, -, _, -, hj⟩ | ⟨-, -, _, -, hj⟩
  · obtain ⟨hquote, hstring⟩ := readString_of_readScalar? hword
    exact ⟨c, hquote, hstring, hend⟩
  · cases hj
  · cases hj

theorem delimits_colon (rest : List Char) : Delimits (':' :: rest) := by
  simp [Delimits]

theorem delimits_brace : Delimits ['\x7d'] := by
  simp [Delimits]

theorem readObject_single {α : Type} {value : Reader α} {key name text : String} {x : α}
    {c : Cursor} (hkey : parse key = .ok (.string name))
    (hvalue : ∀ before, value ((start text).within before ['\x7d']) =
      .ok (x, c.within before ['\x7d'])) (hend : readEnd c = .ok ()) :
    ∃ c', readObject value ((start key).within 1 (':' :: (text.toList ++ ['\x7d']))) =
      .ok ([(name, x)], c') ∧ readEnd c' = .ok () := by
  obtain ⟨c₁, hquote, hname, hend₁⟩ := exists_readString_of_parse hkey
  -- the value has the brace, the key with its blanks, and the colon in front of it
  have hcolon := delimits_colon (text.toList ++ ['\x7d'])
  have hcolon₁ := skipBlank_within_of_readEnd 1 hcolon hend₁
  have hbrace₁ := skipBlank_within_of_readEnd (c₁.skipBlank.offset + 1 + 1) delimits_brace hend
  have hmember : readMember value
      ((start key).skipBlank.within 1 (':' :: (text.toList ++ ['\x7d']))).next =
        .ok ((name, x), c.within (c₁.skipBlank.offset + 1 + 1) ['\x7d']) := by
    refine readMember_eq_ok_iff.2
      ⟨c₁.within 1 (':' :: (text.toList ++ ['\x7d'])), ?_, ?_, ?_⟩
    · rw [next_within (ne_nil_of_head? hquote)]
      exact kept_readString _ name c₁ hname
    · rw [hcolon₁, List.head?_cons]
    · rw [hcolon₁, ← hvalue]
      simp [next, within, start, Nat.add_comm, show ':'.utf8Size = 1 from rfl]
  refine ⟨⟨[], c.skipBlank.offset + (c₁.skipBlank.offset + 1 + 1) + 1⟩, ?_, rfl⟩
  rw [readObject_eq_ok_iff, skipBlank_within hcolon]
  refine .inr ⟨head?_within_of_some hquote, ?_⟩
  obtain ⟨fuel, hfuel⟩ : ∃ fuel, ((start key).skipBlank.within 1
      (':' :: (text.toList ++ ['\x7d']))).rest.length = fuel + 1 :=
    Nat.exists_eq_succ_of_ne_zero (by simp [within])
  rw [hfuel, readMembers_succ_eq_ok_iff]
  exact ⟨_, _, hmember, .inl ⟨by rw [hbrace₁, List.head?_cons], rfl, by rw [hbrace₁]; rfl⟩⟩

def singleMember (key text : String) : String :=
  "\x7b" ++ key ++ ":" ++ text ++ "\x7d"

theorem skipBlank_start_singleMember (key text : String) :
    (start (singleMember key text)).skipBlank =
      ⟨'\x7b' :: (key.toList ++ ':' :: (text.toList ++ ['\x7d'])), 0⟩ := by
  simp [singleMember, start, skipBlank, skip, isBlank]

theorem exists_parse_single {key name text : String} {j : Json}
    (hkey : parse key = .ok (.string name)) (htext : parseWritten text = .ok j) (hflat : j.isFlat)
    (hnull : j ≠ .null) : ∃ s v, Store.parse (singleMember key text) .json = .ok s ∧
      s.entries = [(name, v)] ∧ j.toValue = .ok v := by
  obtain ⟨c, hread, hend⟩ := readText_eq_ok_iff.1 htext
  obtain ⟨v, hv⟩ := exists_toValue_eq_ok_iff.2 ⟨hflat, hnull⟩
  have hvalue : ∀ before, readOptional ((start text).within before ['\x7d']) =
      .ok (some v, c.within before ['\x7d']) := by
    intro before
    obtain ⟨value, hvalue, hgives⟩ :=
      readOptional_within delimits_brace depthLimit _ j c hread hflat
    obtain ⟨_, hv', rfl⟩ := (gives_iff_toValue hnull).1 hgives
    cases hv.symm.trans hv'
    exact hvalue
  obtain ⟨c', hmember, hend'⟩ := readObject_single hkey hvalue hend
  have hchanges : parseChanges (singleMember key text) = .ok (changes [(name, some v)]) := by
    refine readText_eq_ok_iff.2 ⟨c', ?_, hend'⟩
    have hnext : next ⟨'\x7b' :: (key.toList ++ ':' :: (text.toList ++ ['\x7d'])), 0⟩ =
        (start key).within 1 (':' :: (text.toList ++ ['\x7d'])) := rfl
    simp only [readChanges, skipBlank_start_singleMember, hnext, hmember]
    rfl
  refine ⟨Store.replay ∅ (changes [(name, some v)]), v, ?_, ?_, hv⟩
  · rw [Store.parse, Store.parseChanges, hchanges]
    rfl
  · rfl

end Json

end UriExpansion
