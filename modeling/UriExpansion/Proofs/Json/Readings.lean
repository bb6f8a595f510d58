import Mathlib.Data.List.DropRight
import UriExpansion.ParamFile.Load
import UriExpansion.Proofs.Json.Flat
import UriExpansion.Proofs.Json.Written
import UriExpansion.Proofs.Store.Equality
import UriExpansion.Proofs.Store.Log

/-!
# Two readings of one text

Parameters are read off a text directly, or taken from the document that was read from it. The
first way applies every member as it stands in the text. The second one sees each key once, and so
it forgets where a name was bound in between and merges the pairs of a value; what is bound in the
end is otherwise the same.
-/

namespace UriExpansion

def Value.merged : Value → Value
  | .str text => .str text
  | .list items => .list items
  | .map pairs => .map (Keyed.merged pairs)

namespace Json

theorem toValue_of_scalarText? {j : Json} {text : String} (h : j.scalarText? = some text) :
    j.toValue = .ok (.str text) := by
  have hscalar : j.toScalar .value = .ok text := toScalar_eq_ok_iff.2 h
  cases j with
  | null | array | object => cases h
  | _ => exact map_eq_ok_iff.2 ⟨text, hscalar, rfl⟩

theorem toPair_eq_ok_iff {wanted : Shape} {m : String × Json} {p : String × String} :
    toPair wanted m = .ok p ↔ m.1 = p.1 ∧ m.2.toScalar wanted = .ok p.2 := by
  rw [toPair, map_eq_ok_iff]
  constructor
  · rintro ⟨text, htext, rfl⟩
    exact ⟨rfl, htext⟩
  · exact fun ⟨hkey, htext⟩ => ⟨p.2, htext, Prod.ext hkey rfl⟩

theorem toValue_array_eq_ok_iff {items : List Json} {v : Value} :
    (array items).toValue = .ok v ↔ ∃ texts,
      List.Forall₂ (fun j text => j.scalarText? = some text) items texts ∧ .list texts = v := by
  rw [toValue, map_eq_ok_iff]
  simp only [mapM_eq_ok_iff, toScalar_eq_ok_iff]

theorem toValue_object_eq_ok_iff {members : List (String × Json)} {v : Value} :
    (object members).toValue = .ok v ↔ ∃ pairs,
      Keyed.Related (fun j text => j.scalarText? = some text) members pairs ∧ .map pairs = v := by
  rw [toValue, map_eq_ok_iff]
  simp only [mapM_eq_ok_iff, toPair_eq_ok_iff, toScalar_eq_ok_iff]

def Gives (j : Json) (value : Option Value) : Prop :=
  ∀ name, toMember (name, j) = .ok (name, value)

theorem gives_null_iff {value : Option Value} : null.Gives value ↔ none = value := by
  simp [Gives, toMember]

theorem gives_iff_toValue {j : Json} (h : j ≠ .null) {value : Option Value} :
    j.Gives value ↔ ∃ v, j.toValue = .ok v ∧ some v = value := by
  simp only [Gives, toMember_of_ne_null h, map_eq_ok_iff, Prod.mk.injEq, true_and]
  exact ⟨fun hall => hall "", fun hex _ => hex⟩

theorem Gives.of_toValue {j : Json} {v : Value} (h : j.toValue = .ok v) : j.Gives (some v) := by
  refine (gives_iff_toValue ?_).2 ⟨v, h, rfl⟩
  rintro rfl
  cases h

theorem toMember_eq_ok_iff {m : String × Json} {x : String × Option Value} :
    toMember m = .ok x ↔ m.1 = x.1 ∧ m.2.Gives x.2 := by
  obtain ⟨name, j⟩ := m
  obtain ⟨name', value⟩ := x
  by_cases h : j = .null
  · subst h
    simp [toMember, gives_null_iff]
  · rw [toMember_of_ne_null h, map_eq_ok_iff, gives_iff_toValue h]
    simp only [Prod.mk.injEq, ← exists_and_left, and_left_comm]

theorem toChanges_object_eq_ok_iff {members : List (String × Json)} {log : List Change} :
    (object members).toChanges = .ok log ↔
      ∃ ms, Keyed.Related Gives members ms ∧ changes ms = log := by
  rw [toChanges, map_eq_ok_iff]
  simp only [mapM_eq_ok_iff, toMember_eq_ok_iff]

theorem toStore_object_eq_ok_iff {members : List (String × Json)} {s : Store} :
    (object members).toStore = .ok s ↔
      ∃ ms, Keyed.Related Gives members ms ∧ Store.replay ∅ (changes ms) = s := by
  rw [toStore, map_eq_ok_iff]
  simp only [toChanges_object_eq_ok_iff]
  constructor
  · rintro ⟨_, ⟨ms, hms, rfl⟩, hs⟩
    exact ⟨ms, hms, hs⟩
  · rintro ⟨ms, hms, hs⟩
    exact ⟨_, ⟨ms, hms, rfl⟩, hs⟩

theorem skip_skip (p : Char → Bool) (c : Cursor) : (c.skip p).skip p = c.skip p := by
  have htake : (c.rest.dropWhile p).takeWhile p = [] :=
    List.takeWhile_eq_nil_iff.2 (List.dropWhile_get_zero_not p c.rest)
  simp [Cursor.skip, List.dropWhile_idempotent, htake]

theorem readScalar_skipBlank (wanted : Shape) (c : Cursor) :
    readScalar wanted c.skipBlank = readScalar wanted c := by
  simp only [readScalar, Cursor.skipBlank, skip_skip]

theorem readParam_skipBlank (c : Cursor) : readParam c.skipBlank = readParam c := by
  simp only [readParam, Cursor.skipBlank, skip_skip]

theorem readScalar_eq_ok_iff {wanted : Shape} {c c' : Cursor} {text : String} :
    readScalar wanted c = .ok (text, c') ↔
      ∃ j, readScalar? c.skipBlank = some (.ok (j, c')) ∧ j.scalarText? = some text := by
  simp only [readScalar]
  cases hscalar : readScalar? c.skipBlank with
  | none =>
    refine iff_of_false (fun hread => ?_) (by simp)
    simp only at hread
    split at hread
    all_goals cases hread
  | some reading =>
    simp only [bind_eq_ok_iff, Prod.exists, Option.some.injEq]
    constructor
    · rintro ⟨j, c₁, hj, hread⟩
      cases htext : j.scalarText? with
      | none =>
        rw [htext] at hread
        cases hread
      | some text' =>
        rw [htext] at hread
        cases hread
        exact ⟨j, hj, htext⟩
    · rintro ⟨j, hj, htext⟩
      exact ⟨j, c', hj, by rw [htext]⟩

theorem readParam_eq_ok_iff {c c' : Cursor} {v : Value} : readParam c = .ok (v, c') ↔
    (c.skipBlank.rest.head? = some '[' ∧ ∃ texts,
      readArray (readScalar .scalar) c.skipBlank.next = .ok (texts, c') ∧ .list texts = v) ∨
    (c.skipBlank.rest.head? = some '\x7b' ∧ ∃ pairs,
      readObject (readScalar .scalar) c.skipBlank.next = .ok (pairs, c') ∧ .map pairs = v) ∨
    (c.skipBlank.rest.head? ≠ some '[' ∧ c.skipBlank.rest.head? ≠ some '\x7b' ∧ ∃ text,
      readScalar .value c = .ok (text, c') ∧ .str text = v) := by
  simp only [readParam]
  split
  case h_1 hrest => simp [hrest, map_eq_ok_iff]
  case h_2 hrest => simp [hrest, map_eq_ok_iff]
  case h_3 hbracket hbrace =>
    simp [Cursor.head?_ne hbracket, Cursor.head?_ne hbrace, map_eq_ok_iff, readScalar_skipBlank]

theorem readOptional_eq_ok_iff {c c' : Cursor} {value : Option Value} :
    readOptional c = .ok (value, c') ↔
      (c.skipBlank.rest.head? = some 'n' ∧
        readWord ['u', 'l', 'l'] c.skipBlank.next = .ok c' ∧ none = value) ∨
      (c.skipBlank.rest.head? ≠ some 'n' ∧ ∃ v, readParam c = .ok (v, c') ∧ some v = value) := by
  simp only [readOptional]
  split
  case h_1 hrest => simp [hrest, map_eq_ok_iff, and_comm]
  case h_2 hnull => simp [Cursor.head?_ne hnull, map_eq_ok_iff, readParam_skipBlank]

theorem readChanges_eq_ok_iff {c c' : Cursor} {log : List Change} :
    readChanges c = .ok (log, c') ↔ c.skipBlank.rest.head? = some '\x7b' ∧
      ∃ ms, readObject readOptional c.skipBlank.next = .ok (ms, c') ∧ changes ms = log := by
  simp only [readChanges]
  split
  case h_1 hrest => simp [hrest, map_eq_ok_iff]
  case h_2 hrest => simp [hrest, Cursor.mismatch]
  case h_3 hrest => simp [hrest, Cursor.failAhead]
  case h_4 hbrace _ _ =>
    refine iff_of_false (fun hread => ?_) fun h => Cursor.head?_ne hbrace h.1
    split at hread
    · obtain ⟨_, _, hread⟩ := bind_eq_ok_iff.1 hread
      cases hread
    · cases hread

theorem follows_readScalar (wanted : Shape) (depth : Nat) :
    Follows (readScalar wanted) (readValue .object (depth + 1)) fun text j =>
      j.scalarText? = some text := by
  intro c text c' hread
  obtain ⟨j, hj, htext⟩ := readScalar_eq_ok_iff.1 hread
  exact ⟨j, readValue_eq_ok_iff.2 (.inl hj), htext⟩

theorem follows_readParam (depth : Nat) :
    Follows readParam (readValue .object (depth + 2)) fun v j => j.toValue = .ok v := by
  intro c v c' hread
  rcases readParam_eq_ok_iff.1 hread with
    ⟨hhead, texts, htexts, rfl⟩ | ⟨hhead, pairs, hpairs, rfl⟩ | ⟨-, -, text, htext, rfl⟩
  · obtain ⟨items, hitems, hrel⟩ := (follows_readScalar .scalar depth).readArray _ _ _ htexts
    exact ⟨.array items,
      readValue_eq_ok_iff.2 (.inr (.inl ⟨hhead, depth.succ_ne_zero, items, hitems, rfl⟩)),
      toValue_array_eq_ok_iff.2 ⟨texts, hrel.flip, rfl⟩⟩
  · obtain ⟨members, hmembers, hrel⟩ := (follows_readScalar .scalar depth).readObject _ _ _ hpairs
    exact ⟨.object members,
      readValue_eq_ok_iff.2 (.inr (.inr ⟨hhead, depth.succ_ne_zero, members, hmembers, rfl⟩)),
      toValue_object_eq_ok_iff.2 ⟨pairs, hrel.symm, rfl⟩⟩
  · obtain ⟨j, hj, hscalar⟩ := follows_readScalar .value (depth + 1) _ _ _ htext
    exact ⟨j, hj, toValue_of_scalarText? hscalar⟩

theorem follows_readOptional (depth : Nat) :
    Follows readOptional (readValue .object (depth + 2)) fun value j => j.Gives value := by
  intro c value c' hread
  rcases readOptional_eq_ok_iff.1 hread with ⟨hhead, hword, rfl⟩ | ⟨-, v, hv, rfl⟩
  · have hnull := readScalar?_eq_ok_iff.2 (.word .null hhead hword)
    exact ⟨.null, readValue_eq_ok_iff.2 (.inl hnull), gives_null_iff.2 rfl⟩
  · obtain ⟨j, hj, hvalue⟩ := follows_readParam depth _ _ _ hv
    exact ⟨j, hj, .of_toValue hvalue⟩

theorem follows_readChanges (depth : Nat) :
    Follows readChanges (readValue .object (depth + 3)) fun log j => j.toChanges = .ok log := by
  intro c log c' hread
  obtain ⟨hhead, ms, hms, rfl⟩ := readChanges_eq_ok_iff.1 hread
  obtain ⟨members, hmembers, hrel⟩ := (follows_readOptional depth).readObject _ _ _ hms
  exact ⟨.object members,
    readValue_eq_ok_iff.2 (.inr (.inr ⟨hhead, (depth + 1).succ_ne_zero, members, hmembers, rfl⟩)),
    toChanges_object_eq_ok_iff.2 ⟨ms, hrel.symm, rfl⟩⟩

theorem merge_object {members : List (String × Json)} (h : ∀ m ∈ members, m.2.merge = m.2) :
    (object members).merge = ofMembers members := by
  have hmap : members.map (fun m => (m.1, m.2.merge)) = members.map id :=
    List.map_congr_left fun m hm => by rw [h m hm]; rfl
  rw [merge, mergeMembers_eq_map, hmap, List.map_id]

theorem merge_object_of_isFlat {members : List (String × Json)} (h : (object members).isFlat) :
    (object members).merge = ofMembers members :=
  merge_object fun m hm => merge_of_isScalar (List.all_eq_true.1 h m hm)

theorem merge_array_of_isFlat {items : List Json} (h : (array items).isFlat) :
    (array items).merge = array items := by
  have hmap : items.map merge = items.map id :=
    List.map_congr_left fun j hj => merge_of_isScalar (List.all_eq_true.1 h j hj)
  rw [merge, mergeItems_eq_map, hmap, List.map_id]

theorem merge_of_isFlat {j : Json} (h : j.isFlat)
    (hkeys : ∀ members, j = .object members → (Keyed.keys members).Nodup) : j.merge = j := by
  cases j with
  | array items => exact merge_array_of_isFlat h
  | object members =>
    rw [merge_object_of_isFlat h, ofMembers, Keyed.dedup_of_nodup (hkeys members rfl)]
  | _ => rfl

theorem toValue_merge {j : Json} {v : Value} (h : j.toValue = .ok v) :
    j.merge.toValue = .ok v.merged := by
  have hflat : j.isFlat := (exists_toValue_eq_ok_iff.1 ⟨v, h⟩).1
  cases j with
  | array items =>
    obtain ⟨texts, -, rfl⟩ := toValue_array_eq_ok_iff.1 h
    rwa [merge_array_of_isFlat hflat]
  | object members =>
    obtain ⟨pairs, hrel, rfl⟩ := toValue_object_eq_ok_iff.1 h
    rw [merge_object_of_isFlat hflat, ofMembers, Value.merged, ← Keyed.dedup_eq_merged]
    exact toValue_object_eq_ok_iff.2 ⟨_, hrel.dedup, rfl⟩
  | _ =>
    cases h
    try rfl

theorem Gives.merge {j : Json} {value : Option Value} (h : j.Gives value) :
    j.merge.Gives (value.map Value.merged) := by
  by_cases hnull : j = .null
  · subst hnull
    cases gives_null_iff.1 h
    exact gives_null_iff.2 rfl
  · obtain ⟨v, hv, rfl⟩ := (gives_iff_toValue hnull).1 h
    exact .of_toValue (toValue_merge hv)

theorem get?_replay_changes (ms : List (String × Option Value)) (name : String) :
    (Store.replay ∅ (changes ms)).get? name = (Keyed.last? Prod.fst ms name).bind Prod.snd := by
  induction ms using List.reverseRecOn with
  | nil => rfl
  | append_singleton ms m ih =>
    have hconcat : changes (ms ++ [m]) = changes ms ++ [.ofOption m.1 m.2] := by simp [changes]
    rw [hconcat, Store.replay_concat, Store.get?_apply, ih, Keyed.last?_concat]
    obtain ⟨other, value⟩ := m
    cases value <;> by_cases hname : other = name <;>
      simp [Change.ofOption, Change.name, Change.value?, hname, Ne.symm]

theorem toStore_ofMembers {members : List (String × Json)} {s : Store}
    (h : (object members).toStore = .ok s) :
    ∃ s', (ofMembers members).toStore = .ok s' ∧ ∀ name, s'.get? name = s.get? name := by
  obtain ⟨ms, hms, rfl⟩ := toStore_object_eq_ok_iff.1 h
  refine ⟨_, toStore_object_eq_ok_iff.2 ⟨_, hms.dedup, rfl⟩, fun name => ?_⟩
  rw [get?_replay_changes, get?_replay_changes, Keyed.last?_dedup]

theorem toStore_merge {members : List (String × Json)} {s : Store}
    (h : (object members).toStore = .ok s) :
    ∃ s', (object members).merge.toStore = .ok s' ∧
      ∀ name, s'.get? name = (s.get? name).map Value.merged := by
  obtain ⟨ms, hms, rfl⟩ := toStore_object_eq_ok_iff.1 h
  -- the values are merged where they stand, and then the names
  have hmerged := hms.map fun _ _ hgives => hgives.merge
  obtain ⟨s', hs', hget⟩ := toStore_ofMembers (toStore_object_eq_ok_iff.2 ⟨_, hmerged, rfl⟩)
  refine ⟨s', by rw [merge, mergeMembers_eq_map]; exact hs', fun name => ?_⟩
  rw [hget, get?_replay_changes, get?_replay_changes, Keyed.last?_map]
  rcases Keyed.last? Prod.fst ms name with _ | ⟨_, _ | value⟩ <;> rfl

theorem merge_of_toStore {members : List (String × Json)} {s : Store}
    (h : (object members).toStore = .ok s)
    (hkeys : ∀ name ps, (name, object ps) ∈ members → (Keyed.keys ps).Nodup) :
    (object members).merge = ofMembers members := by
  have hflat := List.all_eq_true.1 (exists_toStore_eq_ok_iff.1 ⟨s, h⟩)
  refine merge_object fun m hm => merge_of_isFlat (hflat m hm) fun ps hps => ?_
  exact hkeys m.1 ps (hps ▸ hm)

theorem parse_of_parseWritten {text : String} {j : Json} (h : parseWritten text = .ok j) :
    parse text = .ok j.merge := by
  obtain ⟨_, hparse, rfl⟩ := (follows_readValue_merge depthLimit).readText h
  exact hparse

theorem exists_parseWritten_of_parse {text : String} {s : Store}
    (h : Store.parse text .json = .ok s) :
    ∃ members, parseWritten text = .ok (.object members) ∧ (object members).toStore = .ok s := by
  obtain ⟨log, hlog, rfl⟩ := map_eq_ok_iff.1 h
  -- members, values and scalars are three levels below the limit
  obtain ⟨j, hj, hchanges⟩ := (follows_readChanges 125).readText (mapError_eq_ok_iff.1 hlog)
  cases j with
  | object members => exact ⟨members, hj, map_eq_ok_iff.2 ⟨log, hchanges, rfl⟩⟩
  | _ => cases hchanges

/-- A text that is accepted directly is also accepted as a document. The document is what is written
with its keys merged, and the two stores bind the same names to the same values, but for the pairs
that were merged. Where no value repeats a key nothing tells the stores apart but their order, and
where no name is repeated either, not even that. -/
theorem toStore_parse_agrees {text : String} {s : Store} (h : Store.parse text .json = .ok s) :
    ∃ members s', parseWritten text = .ok (.object members) ∧ (object members).toStore = .ok s ∧
      parse text = .ok (object members).merge ∧ (object members).merge.toStore = .ok s' ∧
      (∀ name, s'.contains name = s.contains name ∧
        s'.get? name = (s.get? name).map Value.merged) ∧
      ((∀ name ps, (name, object ps) ∈ members → (Keyed.keys ps).Nodup) →
        (s == s') = true ∧ (∀ t : Template, t.expand s = t.expand s') ∧
        ((Keyed.keys members).Nodup → s'.entries = s.entries)) := by
  obtain ⟨members, hwritten, hs⟩ := exists_parseWritten_of_parse h
  obtain ⟨s', hs', hget⟩ := toStore_merge hs
  refine ⟨members, s', hwritten, hs, parse_of_parseWritten hwritten, hs',
    fun name => ⟨?_, hget name⟩, fun hkeys => ?_⟩
  · rw [Store.contains_eq_isSome_get?, Store.contains_eq_isSome_get?, hget, Option.isSome_map]
  · rw [merge_of_toStore hs hkeys] at hs'
    obtain ⟨s'', hs'', hsame⟩ := toStore_ofMembers hs
    cases hs'.symm.trans hs''
    refine ⟨Store.beq_of_get?_eq fun name => (hsame name).symm,
      fun t => t.expand_congr_get? fun name => (hsame name).symm, fun hnames => ?_⟩
    rw [ofMembers, Keyed.dedup_of_nodup hnames] at hs'
    cases hs'.symm.trans hs
    rfl

theorem toStore_parse_agrees_at_repeats :
    (∃ s s' j,
      Store.parse "\x7b\"a\":1,\"b\":2,\"a\":null,\"a\":\x7b\"k\":1,\"k\":2\x7d\x7d" .json = .ok s ∧
      parse "\x7b\"a\":1,\"b\":2,\"a\":null,\"a\":\x7b\"k\":1,\"k\":2\x7d\x7d" = .ok j ∧
      j.toStore = .ok s' ∧ s.entries = [("b", .str "2"), ("a", .map [("k", "1"), ("k", "2")])] ∧
      s'.get? "a" = some (.map [("k", "2")])) ∧
    ∃ s s' j,
      Store.parse "\x7b\"a\":\x7b\"k\":1,\"l\":2\x7d,\"b\":null,\"c\":[true]\x7d" .json = .ok s ∧
      parse "\x7b\"a\":\x7b\"k\":1,\"l\":2\x7d,\"b\":null,\"c\":[true]\x7d" = .ok j ∧
      j.toStore = .ok s' ∧ (s == s') = true ∧ s'.entries = s.entries := by
  have hrepeats :
      Store.parse "\x7b\"a\":1,\"b\":2,\"a\":null,\"a\":\x7b\"k\":1,\"k\":2\x7d\x7d" .json =
        .ok ⟨[("b", .str "2"), ("a", .map [("k", "1"), ("k", "2")])], by decide⟩ := rfl
  have hdistinct :
      Store.parse "\x7b\"a\":\x7b\"k\":1,\"l\":2\x7d,\"b\":null,\"c\":[true]\x7d" .json =
        .ok ⟨[("a", .map [("k", "1"), ("l", "2")]), ("c", .list ["true"])], by decide⟩ := rfl
  have hmembers : parseWritten "\x7b\"a\":\x7b\"k\":1,\"l\":2\x7d,\"b\":null,\"c\":[true]\x7d" =
      .ok (.object [("a", .object [("k", .number (.natural 1)), ("l", .number (.natural 2))]),
        ("b", .null), ("c", .array [.bool true])]) := rfl
  obtain ⟨_, s', -, -, hparse, hs', hget, -⟩ := toStore_parse_agrees hrepeats
  refine ⟨⟨_, s', _, hrepeats, hparse, hs', rfl, (hget "a").2.trans rfl⟩, ?_⟩
  obtain ⟨_, s', hwritten, -, hparse, hs', -, hsame⟩ := toStore_parse_agrees hdistinct
  cases hmembers.symm.trans hwritten
  obtain ⟨hbeq, -, horder⟩ := hsame (by simp [Keyed.keys])
  exact ⟨_, s', _, hdistinct, hparse, hs', hbeq, horder (by decide)⟩

end Json

end UriExpansion
