import Mathlib.Data.List.Basic
import UriExpansion.Params

/-!
# Looking up bindings

A store is known by what it answers for each name and by the order of its names. Inserting and
erasing change the answer for one name only, and taking a binding out answers what looking it up
would have answered.
-/

namespace UriExpansion

namespace Keyed

variable {α : Type}

def last? (name : α → String) (items : List α) (key : String) : Option α :=
  (items.filter (name · = key)).getLast?

theorem last?_concat (name : α → String) (items : List α) (x : α) (key : String) :
    last? name (items ++ [x]) key = if name x = key then some x else last? name items key := by
  by_cases h : name x = key <;> simp [last?, h]

theorem mem_of_last?_eq_some {name : α → String} {items : List α} {x : α} {key : String}
    (h : last? name items key = some x) : x ∈ items ∧ name x = key := by
  simpa using List.mem_of_getLast? h

theorem lookup_cons (e : String × α) (entries : List (String × α)) (key : String) :
    (e :: entries).lookup key = if key = e.1 then some e.2 else entries.lookup key := by
  rw [List.lookup_cons]
  split
  case h_1 h => rw [if_pos (beq_iff_eq.1 h)]
  case h_2 h => rw [if_neg (beq_eq_false_iff_ne.1 h)]

theorem mem_keys_iff {key : String} {entries : List (String × α)} :
    key ∈ keys entries ↔ (entries.lookup key).isSome := by
  rw [List.lookup_isSome_iff, keys, List.mem_map]
  simp only [beq_iff_eq, @eq_comm _ key]

theorem lookup_eq_none_iff {key : String} {entries : List (String × α)} :
    entries.lookup key = none ↔ key ∉ keys entries := by
  rw [mem_keys_iff, Option.not_isSome_iff_eq_none]

theorem mem_iff_lookup_eq_some {entries : List (String × α)} (h : (keys entries).Nodup)
    {key : String} {value : α} : (key, value) ∈ entries ↔ entries.lookup key = some value := by
  induction entries with
  | nil => simp
  | cons e entries ih =>
    obtain ⟨hhead, htail⟩ := List.nodup_cons.1 h
    rw [lookup_cons, List.mem_cons, ih htail]
    by_cases hk : key = e.1
    · have hnone := lookup_eq_none_iff.2 hhead
      simp [hk, hnone, Prod.ext_iff, eq_comm]
    · simp [hk, Prod.ext_iff]

theorem lookup_replace (key : String) (value : α) (entries : List (String × α)) (other : String) :
    (replace key value entries).lookup other =
      if other = key then (entries.lookup key).map fun _ => value else entries.lookup other := by
  induction entries with
  | nil => simp [replace]
  | cons e entries ih =>
    have hcons : replace key value (e :: entries) =
        (if e.1 = key then (key, value) else e) :: replace key value entries := rfl
    rw [hcons, lookup_cons, lookup_cons, lookup_cons, ih]
    by_cases he : e.1 = key
    · rw [if_pos he, he]
      by_cases ho : other = key <;> simp [ho]
    · rw [if_neg he, if_neg (Ne.symm he)]
      by_cases ho : other = key
      · simp [ho, Ne.symm he]
      · simp [ho]

theorem lookup_insert (entries : List (String × α)) (key : String) (value : α) (other : String) :
    (insert entries key value).lookup other =
      if other = key then some value else entries.lookup other := by
  unfold insert
  split
  case isTrue h =>
    obtain ⟨old, hold⟩ := Option.isSome_iff_exists.1 (mem_keys_iff.1 h)
    rw [lookup_replace, hold]
    rfl
  case isFalse h =>
    have hnone := lookup_eq_none_iff.2 h
    rw [List.lookup_append, lookup_cons, List.lookup_nil]
    by_cases ho : other = key
    · simp [ho, hnone]
    · simp [ho]

theorem keys_erase (entries : List (String × α)) (key : String) :
    keys (erase entries key) = (keys entries).filter (· != key) := by
  simp only [keys, erase, List.filter_map]
  rfl

theorem lookup_erase (entries : List (String × α)) (key other : String) :
    (erase entries key).lookup other = if other = key then none else entries.lookup other := by
  induction entries with
  | nil => simp [erase]
  | cons e entries ih =>
    rw [erase] at ih ⊢
    by_cases he : e.1 = key
    · rw [List.filter_cons_of_neg (by simpa using he), ih, lookup_cons, he]
      by_cases ho : other = key <;> simp [ho]
    · rw [List.filter_cons_of_pos (by simpa using he), lookup_cons, lookup_cons, ih]
      by_cases ho : other = key
      · subst ho
        simp [Ne.symm he]
      · simp [ho]

theorem remove_eq {entries : List (String × α)} (h : (keys entries).Nodup) (key : String) :
    remove key entries = (entries.lookup key, erase entries key) := by
  induction entries with
  | nil => rfl
  | cons e entries ih =>
    obtain ⟨hhead, htail⟩ := List.nodup_cons.1 h
    simp only [remove, lookup_cons]
    by_cases he : e.1 = key
    · subst he
      have hother : ∀ x ∈ entries, x.1 ≠ e.1 := fun x hx heq =>
        hhead (heq ▸ List.mem_map_of_mem hx)
      have hkept : erase (e :: entries) e.1 = entries := by
        rw [erase, List.filter_cons_of_neg (by simp), List.filter_eq_self]
        simpa using hother
      simp [hkept]
    · rw [if_neg he, if_neg (Ne.symm he), ih htail]
      simp [erase, he]

end Keyed

namespace Store

theorem get?_insert (s : Store) (name : String) (value : Value) (other : String) :
    (s.insert name value).get? other = if other = name then some value else s.get? other :=
  Keyed.lookup_insert s.entries name value other

theorem get?_erase (s : Store) (name other : String) :
    (s.erase name).get? other = if other = name then none else s.get? other :=
  Keyed.lookup_erase s.entries name other

theorem names_insert (s : Store) (name : String) (value : Value) :
    (s.insert name value).names = if name ∈ s.names then s.names else s.names ++ [name] :=
  Keyed.keys_insert s.entries name value

theorem names_erase (s : Store) (name : String) :
    (s.erase name).names = s.names.filter (· != name) :=
  Keyed.keys_erase s.entries name

theorem mem_names_iff {s : Store} {name : String} : name ∈ s.names ↔ (s.get? name).isSome :=
  Keyed.mem_keys_iff

theorem mem_entries_iff {s : Store} {name : String} {value : Value} :
    (name, value) ∈ s.entries ↔ s.get? name = some value :=
  Keyed.mem_iff_lookup_eq_some s.nodup

theorem contains_eq_isSome_get? (s : Store) (name : String) :
    s.contains name = (s.get? name).isSome := by
  rw [Bool.eq_iff_iff, ← mem_names_iff]
  exact List.contains_iff_mem

theorem isEmpty_iff_get?_eq_none {s : Store} : s.isEmpty ↔ ∀ name, s.get? name = none := by
  rw [isEmpty, List.isEmpty_iff]
  constructor
  · intro h name
    simp [get?, h]
  · intro h
    by_contra hne
    obtain ⟨e, he⟩ := List.exists_mem_of_ne_nil _ hne
    have hsome := mem_entries_iff.1 he
    rw [h e.1] at hsome
    cases hsome

theorem remove_eq (s : Store) (name : String) : s.remove name = (s.get? name, s.erase name) := by
  have h := Keyed.remove_eq s.nodup name
  simp only [remove, get?, erase, h]

end Store

end UriExpansion
