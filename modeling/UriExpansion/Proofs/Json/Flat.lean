import UriExpansion.Json.Basic
import UriExpansion.Json.Store
import UriExpansion.Proofs.Results

/-!
# Flat documents

A document can be taken for a store exactly when it is an object whose members are `null`, scalars,
or collections of scalars. On such a document, unless it holds a double, taking it for a store is
the same as binding its members one after the other. In general the two differ in how they write
doubles and in what they do with collections inside of collections.
-/

namespace UriExpansion

namespace Json

def isScalar : Json → Bool
  | .bool _ | .number _ | .string _ => true
  | .null | .array _ | .object _ => false

def isFlat : Json → Bool
  | .null | .bool _ | .number _ | .string _ => true
  | .array items => items.all isScalar
  | .object members => members.all fun m => m.2.isScalar

def isFlatObject : Json → Bool
  | .object members => members.all fun m => m.2.isFlat
  | _ => false

def parts : Json → List Json
  | .array items => items
  | .object members => members.map Prod.snd
  | .null | .bool _ | .number _ | .string _ => []

/-- Some number of the document is a double. -/
inductive HasDouble : Json → Prop
  | number (sign : Bool) (x : Magnitude) : HasDouble (.number (.float sign x))
  | item {items : List Json} {j : Json} : j ∈ items → HasDouble j → HasDouble (.array items)
  | member {members : List (String × Json)} {m : String × Json} :
      m ∈ members → HasDouble m.2 → HasDouble (.object members)

@[simp] theorem not_hasDouble_null : ¬null.HasDouble := nofun

@[simp] theorem not_hasDouble_bool (b : Bool) : ¬(bool b).HasDouble := nofun

@[simp] theorem not_hasDouble_string (s : String) : ¬(string s).HasDouble := nofun

@[simp] theorem hasDouble_number_iff {n : JsonNumber} :
    (number n).HasDouble ↔ ∃ sign x, n = .float sign x :=
  ⟨fun | .number sign x => ⟨sign, x, rfl⟩, fun ⟨sign, x, h⟩ => h ▸ .number sign x⟩

@[simp] theorem hasDouble_array_iff {items : List Json} :
    (array items).HasDouble ↔ ∃ j ∈ items, j.HasDouble :=
  ⟨fun | .item hj h => ⟨_, hj, h⟩, fun ⟨_, hj, h⟩ => .item hj h⟩

@[simp] theorem hasDouble_object_iff {members : List (String × Json)} :
    (object members).HasDouble ↔ ∃ m ∈ members, m.2.HasDouble :=
  ⟨fun | .member hm h => ⟨_, hm, h⟩, fun ⟨_, hm, h⟩ => .member hm h⟩

theorem isFlat_iff_parts {j : Json} : j.isFlat ↔ ∀ x ∈ j.parts, x.isScalar := by
  cases j with
  | array items => exact List.all_eq_true
  | object members =>
    rw [isFlat, parts, List.all_eq_true, List.forall_mem_map]
  | _ => simp [isFlat, parts]

theorem toScalar_eq_ok_iff {wanted : Shape} {j : Json} {text : String} :
    j.toScalar wanted = .ok text ↔ j.scalarText? = some text := by
  unfold toScalar
  cases j.scalarText? <;> simp [mismatch]

theorem exists_toScalar_eq_ok_iff {wanted : Shape} {j : Json} :
    (∃ text, j.toScalar wanted = .ok text) ↔ j.isScalar := by
  simp only [toScalar_eq_ok_iff]
  cases j <;> simp [scalarText?, isScalar]

theorem exists_toPair_eq_ok_iff {wanted : Shape} {m : String × Json} :
    (∃ p, toPair wanted m = .ok p) ↔ m.2.isScalar :=
  exists_map_eq_ok_iff.trans exists_toScalar_eq_ok_iff

theorem exists_toValue_eq_ok_iff {j : Json} :
    (∃ v, j.toValue = .ok v) ↔ j.isFlat ∧ j ≠ .null := by
  cases j with
  | null => exact iff_of_false (fun ⟨_, h⟩ => nomatch h) fun h => h.2 rfl
  | array items =>
    rw [toValue, exists_map_eq_ok_iff, exists_mapM_eq_ok_iff, isFlat, List.all_eq_true]
    simp [exists_toScalar_eq_ok_iff]
  | object members =>
    rw [toValue, exists_map_eq_ok_iff, exists_mapM_eq_ok_iff, isFlat, List.all_eq_true]
    refine (forall₂_congr fun m _ => exists_toPair_eq_ok_iff).trans ?_
    simp
  | _ => exact iff_of_true ⟨_, rfl⟩ ⟨rfl, by simp⟩

theorem toMember_of_ne_null {j : Json} (h : j ≠ .null) (name : String) :
    toMember (name, j) = j.toValue.map fun value => (name, some value) := by
  cases j with
  | null => exact absurd rfl h
  | _ => rfl

theorem exists_toMember_eq_ok_iff {m : String × Json} :
    (∃ x, toMember m = .ok x) ↔ m.2.isFlat := by
  obtain ⟨name, j⟩ := m
  by_cases h : j = .null
  · subst h
    exact iff_of_true ⟨_, rfl⟩ rfl
  · rw [toMember_of_ne_null h, exists_map_eq_ok_iff, exists_toValue_eq_ok_iff]
    exact and_iff_left h

theorem exists_toChanges_eq_ok_iff {j : Json} :
    (∃ log, j.toChanges = .ok log) ↔ j.isFlatObject := by
  cases j with
  | object members =>
    rw [toChanges, exists_map_eq_ok_iff, exists_mapM_eq_ok_iff, isFlatObject, List.all_eq_true]
    exact forall₂_congr fun m _ => exists_toMember_eq_ok_iff
  | _ => simp [toChanges, mismatch, isFlatObject]

theorem exists_toStore_eq_ok_iff {j : Json} : (∃ s, j.toStore = .ok s) ↔ j.isFlatObject := by
  rw [toStore, exists_map_eq_ok_iff, exists_toChanges_eq_ok_iff]

theorem memberText_of_toScalar {wanted : Shape} {j : Json} {text : String}
    (h : j.toScalar wanted = .ok text) (hd : ¬j.HasDouble) : j.memberText = text := by
  rw [toScalar_eq_ok_iff] at h
  cases j with
  | string s => exact Option.some.inj h
  | bool b => exact Option.some.inj h
  | number n =>
    cases n with
    | float sign x => exact absurd (.number sign x) hd
    | _ => exact Option.some.inj h
  | _ => cases h

theorem value?_of_toValue {j : Json} {v : Value} (h : j.toValue = .ok v) (hd : ¬j.HasDouble) :
    j.value? = some v := by
  cases j with
  | array items =>
    obtain ⟨texts, htexts, rfl⟩ := map_eq_ok_iff.1 h
    have hmap := map_eq_of_mapM_eq_ok htexts fun x hx _ ht =>
      memberText_of_toScalar ht fun hx' => hd (.item hx hx')
    rw [value?, hmap]
  | object members =>
    obtain ⟨pairs, hpairs, rfl⟩ := map_eq_ok_iff.1 h
    have hmap : (members.map fun m => (m.1, m.2.memberText)) = pairs := by
      refine map_eq_of_mapM_eq_ok hpairs fun m hm p hp => ?_
      obtain ⟨text, ht, rfl⟩ := map_eq_ok_iff.1 hp
      exact Prod.ext rfl (memberText_of_toScalar ht fun hm' => hd (.member hm hm'))
    rw [← hmap]
    rfl
  | number n =>
    cases n with
    | float sign x => exact absurd (.number sign x) hd
    | _ =>
      cases h
      rfl
  | _ =>
    cases h
    try rfl

theorem eq_of_toMember {m : String × Json} {x : String × Option Value}
    (h : toMember m = .ok x) (hd : ¬m.2.HasDouble) : (m.1, m.2.value?) = x := by
  obtain ⟨name, j⟩ := m
  by_cases hnull : j = .null
  · subst hnull
    cases h
    rfl
  · rw [toMember_of_ne_null hnull] at h
    obtain ⟨v, hv, rfl⟩ := map_eq_ok_iff.1 h
    rw [value?_of_toValue hv hd]

theorem replay_changes_eq_foldl_bindJson (s : Store) (members : List (String × Json)) :
    s.replay (changes (members.map fun m => (m.1, m.2.value?))) =
      members.foldl (fun s m => s.bindJson m.1 m.2) s := by
  rw [Store.replay, changes, List.map_map, List.foldl_map]
  rfl

theorem toStore_eq_foldl_bindJson {j : Json} {s : Store} (h : j.toStore = .ok s)
    (hd : ¬j.HasDouble) : ∃ members, j = .object members ∧
      s = members.foldl (fun s m => s.bindJson m.1 m.2) ∅ := by
  obtain ⟨log, hlog, rfl⟩ := map_eq_ok_iff.1 h
  cases j with
  | object members =>
    obtain ⟨ms, hms, rfl⟩ := map_eq_ok_iff.1 hlog
    have hmap := map_eq_of_mapM_eq_ok hms fun m hm _ hx =>
      eq_of_toMember hx fun hm' => hd (.member hm hm')
    exact ⟨members, rfl, by rw [← hmap, replay_changes_eq_foldl_bindJson]⟩
  | _ => cases hlog

/-- A document can be taken for a store exactly when it is flat: anything but a scalar inside of a
member refuses the whole of it. Without doubles, the store is that of its members bound in turn. -/
theorem toStore_eq_ok_iff_isFlatObject (j : Json) :
    ((∃ s, j.toStore = .ok s) ↔ j.isFlatObject) ∧
    (∀ members name v x, j = .object members → (name, v) ∈ members → x ∈ v.parts → ¬x.isScalar →
      ∃ e, j.toStore = .error e) ∧
    ∀ s, j.toStore = .ok s → ¬j.HasDouble → ∃ members, j = .object members ∧
      s = members.foldl (fun s m => s.bindJson m.1 m.2) ∅ := by
  refine ⟨exists_toStore_eq_ok_iff, ?_, fun s => toStore_eq_foldl_bindJson⟩
  rintro members name v x rfl hm hx hscalar
  cases h : (object members).toStore with
  | error e => exact ⟨e, rfl⟩
  | ok s =>
    have hflat : v.isFlat := List.all_eq_true.1 (exists_toStore_eq_ok_iff.1 ⟨s, h⟩) _ hm
    exact absurd (isFlat_iff_parts.1 hflat x hx) hscalar

theorem toStore_eq_ok_iff_isFlatObject_of_mixed :
    (∃ e, (object [("a", .string "x"), ("b", .array [.string "y", .null])]).toStore = .error e) ∧
    ∃ s, (object [("a", .null), ("b", .array [.string "y", .number (.negative 0)]),
        ("c", .object [("k", .bool true)])]).toStore = .ok s ∧
      s.entries = [("b", .list ["y", "-1"]), ("c", .map [("k", "true")])] := by
  have herror := (toStore_eq_ok_iff_isFlatObject
    (object [("a", .string "x"), ("b", .array [.string "y", .null])])).2.1
  have hflat := toStore_eq_ok_iff_isFlatObject (object [("a", .null),
    ("b", .array [.string "y", .number (.negative 0)]), ("c", .object [("k", .bool true)])])
  obtain ⟨s, hs⟩ := hflat.1.2 rfl
  obtain ⟨members, heq, rfl⟩ := hflat.2.2 s hs (by simp)
  cases heq
  exact ⟨herror _ "b" (.array [.string "y", .null]) .null rfl (by simp) (by simp [parts])
    (by simp [isScalar]), _, hs, rfl⟩

end Json

end UriExpansion
