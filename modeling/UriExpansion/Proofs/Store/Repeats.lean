import Mathlib.Data.List.Forall2
import Mathlib.Data.List.Induction
import UriExpansion.Proofs.Store.Lookup

/-!
# Repeated keys

Entries that repeat keys are merged by inserting them one after the other. What comes out can be
said without the insertions: each key stands where it stands first, with the value that stands last.
Merging leaves distinct keys alone, and entries that are related key by key stay so.
-/

namespace UriExpansion

namespace Keyed

variable {α β : Type}

/-- Each key where it stands first, with the value that stands last under it. -/
def merged (entries : List (String × α)) : List (String × α) :=
  (keys entries).eraseDups.filterMap (last? Prod.fst entries)

theorem keys_concat (entries : List (String × α)) (e : String × α) :
    keys (entries ++ [e]) = keys entries ++ [e.1] := by
  simp [keys]

theorem map_snd_last? (entries : List (String × α)) (key : String) :
    ((last? Prod.fst entries key).map Prod.snd).map (key, ·) = last? Prod.fst entries key := by
  cases h : last? Prod.fst entries key with
  | none => rfl
  | some e =>
    obtain ⟨-, rfl⟩ := mem_of_last?_eq_some h
    rfl

theorem dedup_concat (entries : List (String × α)) (e : String × α) :
    dedup (entries ++ [e]) = insert (dedup entries) e.1 e.2 :=
  List.foldl_concat ..

theorem lookup_dedup (entries : List (String × α)) (key : String) :
    (dedup entries).lookup key = (last? Prod.fst entries key).map Prod.snd := by
  induction entries using List.reverseRecOn with
  | nil => rfl
  | append_singleton entries e ih =>
    rw [dedup_concat, lookup_insert, last?_concat, ih]
    by_cases h : e.1 = key
    · simp [h]
    · simp [h, Ne.symm h]

theorem keys_dedup (entries : List (String × α)) :
    keys (dedup entries) = (keys entries).eraseDups := by
  induction entries using List.reverseRecOn with
  | nil => rfl
  | append_singleton entries e ih =>
    rw [dedup_concat, keys_insert, ih, keys_concat, List.eraseDups_append]
    by_cases h : e.1 ∈ keys entries <;> simp [h, List.removeAll, List.eraseDups_cons]

theorem nodup_dedup (entries : List (String × α)) : (keys (dedup entries)).Nodup := by
  induction entries using List.reverseRecOn with
  | nil => exact List.nodup_nil
  | append_singleton entries e ih =>
    rw [dedup_concat]
    exact nodup_insert ih e.1 e.2

theorem filterMap_lookup_keys {entries : List (String × α)} (h : (keys entries).Nodup) :
    ((keys entries).filterMap fun key => (entries.lookup key).map (key, ·)) = entries := by
  induction entries with
  | nil => rfl
  | cons e entries ih =>
    obtain ⟨hhead, htail⟩ := List.nodup_cons.1 h
    have hkeys : keys (e :: entries) = e.1 :: keys entries := rfl
    have hrest : ∀ key ∈ keys entries, (e :: entries).lookup key = entries.lookup key := by
      intro key hkey
      rw [lookup_cons, if_neg]
      rintro rfl
      exact hhead hkey
    rw [hkeys, List.filterMap_cons, lookup_cons, if_pos rfl, Option.map_some]
    simp only
    rw [List.filterMap_congr fun key hkey => by rw [hrest key hkey], ih htail]

theorem dedup_eq_merged (entries : List (String × α)) : dedup entries = merged entries := by
  have h := filterMap_lookup_keys (nodup_dedup entries)
  simp only [keys_dedup, lookup_dedup, map_snd_last?] at h
  exact h.symm

theorem dedup_of_nodup {entries : List (String × α)} (h : (keys entries).Nodup) :
    dedup entries = entries := by
  induction entries using List.reverseRecOn with
  | nil => rfl
  | append_singleton entries e ih =>
    rw [keys_concat, List.nodup_append] at h
    have hnew : e.1 ∉ keys entries := fun hmem => h.2.2 e.1 hmem e.1 (List.mem_singleton_self _) rfl
    rw [dedup_concat, ih h.1, insert, if_neg hnew]

theorem last?_dedup (entries : List (String × α)) (key : String) :
    last? Prod.fst (dedup entries) key = last? Prod.fst entries key := by
  rw [← map_snd_last?, ← lookup_dedup, dedup_of_nodup (nodup_dedup entries), lookup_dedup,
    map_snd_last?]

theorem last?_map (f : α → β) (entries : List (String × α)) (key : String) :
    last? Prod.fst (entries.map fun e => (e.1, f e.2)) key =
      (last? Prod.fst entries key).map fun e => (e.1, f e.2) := by
  rw [last?, last?, List.filter_map, List.getLast?_map]
  rfl

abbrev Related (R : α → β → Prop) : List (String × α) → List (String × β) → Prop :=
  List.Forall₂ fun a b => a.1 = b.1 ∧ R a.2 b.2

variable {R : α → β → Prop} {xs : List (String × α)} {ys : List (String × β)}

theorem Related.keys_eq (h : Related R xs ys) : keys xs = keys ys := by
  induction h with
  | nil => rfl
  | cons hab _ ih => simp only [keys, List.map_cons] at ih ⊢; rw [hab.1, ih]

theorem Related.symm (h : Related R xs ys) : Related (flip R) ys xs :=
  List.Forall₂.flip (h.imp fun _ _ hxy => ⟨hxy.1.symm, hxy.2⟩)

theorem Related.map_eq {f : α → β} (h : Related (f · = ·) xs ys) :
    (xs.map fun e => (e.1, f e.2)) = ys := by
  have heq : List.Forall₂ (fun x y => (x.1, f x.2) = y) xs ys :=
    h.imp fun _ _ hxy => Prod.ext hxy.1 hxy.2
  rwa [← List.forall₂_map_left_iff, List.forall₂_eq_eq_eq] at heq

theorem Related.map {α' β' : Type} {S : α' → β' → Prop} {f : α → α'} {g : β → β'}
    (h : Related R xs ys) (hfg : ∀ a b, R a b → S (f a) (g b)) :
    Related S (xs.map fun e => (e.1, f e.2)) (ys.map fun e => (e.1, g e.2)) := by
  rw [Related, List.forall₂_map_left_iff, List.forall₂_map_right_iff]
  exact h.imp fun x y hxy => ⟨hxy.1, hfg x.2 y.2 hxy.2⟩

theorem Related.insert (h : Related R xs ys) (key : String) {a : α} {b : β} (hab : R a b) :
    Related R (insert xs key a) (insert ys key b) := by
  unfold Keyed.insert
  rw [h.keys_eq]
  split
  · rw [Related, replace, replace, List.forall₂_map_left_iff, List.forall₂_map_right_iff]
    refine h.imp fun x y hxy => ?_
    rw [hxy.1]
    split
    · exact ⟨rfl, hab⟩
    · exact hxy
  · exact List.rel_append h (.cons ⟨rfl, hab⟩ .nil)

theorem Related.dedup (h : Related R xs ys) : Related R (dedup xs) (dedup ys) := by
  refine List.rel_foldl (fun _ _ hacc x y hxy => ?_) .nil h
  rw [hxy.1]
  exact Related.insert hacc y.1 hxy.2

end Keyed

end UriExpansion
