import UriExpansion.Proofs.Store.Repeats

/-!
# Merging stores

A store that takes in entries binds each of their names to the value that stands last under it. The
names it had keep their places, and new ones follow, each where it stands first. So one store taken
into another is an ordered union: names of the first one lead, values of the second one win.
-/

namespace UriExpansion

namespace Keyed

variable {α : Type} {xs ys : List (String × α)}

theorem eraseDups_keys (h : (keys xs).Nodup) : (keys xs).eraseDups = keys xs := by
  rw [← keys_dedup, dedup_of_nodup h]

theorem last?_eq_lookup (h : (keys xs).Nodup) (key : String) :
    (last? Prod.fst xs key).map Prod.snd = xs.lookup key := by
  rw [← lookup_dedup, dedup_of_nodup h]

theorem eq_of_keys_of_lookup (h : (keys xs).Nodup) (hkeys : keys xs = keys ys)
    (hlookup : ∀ key, xs.lookup key = ys.lookup key) : xs = ys := by
  have hys := filterMap_lookup_keys (hkeys ▸ h)
  rw [← hkeys] at hys
  simp only [← hlookup] at hys
  rw [← hys, filterMap_lookup_keys h]

end Keyed

namespace Store

theorem eq_of_names_of_get? {p q : Store} (hnames : p.names = q.names)
    (hget : ∀ name, p.get? name = q.get? name) : p = q := by
  have hentries := Keyed.eq_of_keys_of_lookup p.nodup hnames hget
  cases p
  cases q
  cases hentries
  rfl

theorem extend_concat (s : Store) (entries : List (String × Value)) (e : String × Value) :
    s.extend (entries ++ [e]) = (s.extend entries).insert e.1 e.2 := by
  simp only [extend, replay, List.map_append, List.foldl_append]
  rfl

theorem get?_extend (s : Store) (entries : List (String × Value)) (name : String) :
    (s.extend entries).get? name =
      ((Keyed.last? Prod.fst entries name).map Prod.snd).or (s.get? name) := by
  induction entries using List.reverseRecOn with
  | nil => rfl
  | append_singleton entries e ih =>
    rw [extend_concat, get?_insert, Keyed.last?_concat, ih]
    by_cases h : e.1 = name
    · simp [h]
    · simp [h, Ne.symm h]

theorem get?_ofList (entries : List (String × Value)) (name : String) :
    (ofList entries).get? name = (Keyed.last? Prod.fst entries name).map Prod.snd := by
  rw [ofList, get?_extend]
  exact Option.or_none

theorem names_extend (s : Store) (entries : List (String × Value)) :
    (s.extend entries).names =
      s.names ++ (Keyed.keys entries).eraseDups.filter (· ∉ s.names) := by
  induction entries using List.reverseRecOn with
  | nil => simp [extend, replay, Keyed.keys]
  | append_singleton entries e ih =>
    rw [extend_concat, names_insert, ih, Keyed.keys_concat, List.eraseDups_append]
    by_cases hs : e.1 ∈ s.names <;> by_cases he : e.1 ∈ Keyed.keys entries <;>
      simp [hs, he, List.removeAll, List.eraseDups_cons]

theorem names_ofList (entries : List (String × Value)) :
    (ofList entries).names = (Keyed.keys entries).eraseDups := by
  have hempty : (∅ : Store).names = [] := rfl
  simp [ofList, names_extend, hempty]

def merge (p q : Store) : Store :=
  p.extend q.entries

theorem get?_merge (p q : Store) (name : String) :
    (p.merge q).get? name = (q.get? name).or (p.get? name) := by
  rw [merge, get?_extend, Keyed.last?_eq_lookup q.nodup]
  rfl

theorem names_merge (p q : Store) :
    (p.merge q).names = p.names ++ q.names.filter (· ∉ p.names) := by
  rw [merge, names_extend, Keyed.eraseDups_keys q.nodup]
  rfl

theorem merge_ofList (s : Store) (entries : List (String × Value)) :
    s.merge (ofList entries) = s.extend entries := by
  apply eq_of_names_of_get?
  · rw [names_merge, names_ofList, names_extend]
  · intro name
    rw [get?_merge, get?_ofList, get?_extend]

theorem merge_assoc (p q r : Store) : (p.merge q).merge r = p.merge (q.merge r) := by
  apply eq_of_names_of_get?
  · simp only [names_merge, List.filter_append, List.filter_filter, List.append_assoc]
    congr 2
    -- a name of the third store is new behind both of the others alike
    refine List.filter_congr fun name _ => ?_
    by_cases hp : name ∈ p.names <;> by_cases hq : name ∈ q.names <;> simp [hp, hq]
  · intro name
    simp only [get?_merge, Option.or_assoc]

theorem empty_merge (p : Store) : (∅ : Store).merge p = p := by
  apply eq_of_names_of_get?
  · have hempty : (∅ : Store).names = [] := rfl
    simp [names_merge, hempty]
  · intro name
    rw [get?_merge]
    exact Option.or_none

theorem merge_self (p : Store) : p.merge p = p := by
  apply eq_of_names_of_get?
  · simp [names_merge]
  · intro name
    rw [get?_merge, Option.or_self]

/-- Taking one store into another is an ordered union in which the second one wins: names of the
first store lead and new ones follow in order, and the operation is associative and idempotent with
the empty store as its unit. Raw entries are taken in like the store that is collected from them. -/
theorem merge_ordered_monoid (p q r : Store) (entries : List (String × Value)) :
    (p.merge q).names = p.names ++ q.names.filter (· ∉ p.names) ∧
    (∀ name, (p.merge q).get? name = (q.get? name).or (p.get? name)) ∧
    (p.merge q).merge r = p.merge (q.merge r) ∧
    (∅ : Store).merge p = p ∧ p.merge ∅ = p ∧ p.merge p = p ∧
    p.extend entries = p.merge (ofList entries) :=
  ⟨names_merge p q, get?_merge p q, merge_assoc p q r, empty_merge p, rfl, merge_self p,
    (merge_ofList p entries).symm⟩

example : ((ofList [("x", .str "1"), ("y", .str "2")]).merge
    (ofList [("z", .str "3"), ("x", .str "10")])).entries =
    [("x", .str "10"), ("y", .str "2"), ("z", .str "3")] := by
  decide

end Store

end UriExpansion
