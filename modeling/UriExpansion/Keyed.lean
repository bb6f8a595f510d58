/-!
# Lists with keys

Entries keep their order. Inserting under a key that is present replaces its value in place, and
inserting under a new key appends; so keys stay distinct, each at the place of its first insertion.
-/

namespace UriExpansion

namespace Keyed

variable {α : Type}

def keys (entries : List (String × α)) : List String :=
  entries.map Prod.fst

def replace (key : String) (value : α) (entries : List (String × α)) : List (String × α) :=
  entries.map fun e => if e.1 = key then (key, value) else e

def insert (entries : List (String × α)) (key : String) (value : α) : List (String × α) :=
  if key ∈ keys entries then replace key value entries else entries ++ [(key, value)]

def erase (entries : List (String × α)) (key : String) : List (String × α) :=
  entries.filter (·.1 != key)

def remove (key : String) : List (String × α) → Option α × List (String × α)
  | [] => (none, [])
  | e :: entries =>
    if e.1 = key then (some e.2, entries)
    else
      let (found, rest) := remove key entries
      (found, e :: rest)

def dedup (entries : List (String × α)) : List (String × α) :=
  entries.foldl (fun es e => insert es e.1 e.2) []

theorem keys_replace (key : String) (value : α) (entries : List (String × α)) :
    keys (replace key value entries) = keys entries := by
  simp only [keys, replace, List.map_map]
  refine List.map_congr_left fun e _ => ?_
  simp only [Function.comp]
  split <;> simp_all

theorem keys_insert (entries : List (String × α)) (key : String) (value : α) :
    keys (insert entries key value) =
      if key ∈ keys entries then keys entries else keys entries ++ [key] := by
  unfold insert
  split
  · exact keys_replace key value entries
  · simp [keys]

theorem nodup_insert {entries : List (String × α)} (h : (keys entries).Nodup) (key : String)
    (value : α) : (keys (insert entries key value)).Nodup := by
  rw [keys_insert]
  split
  · exact h
  · rename_i absent
    rw [List.nodup_append]
    refine ⟨h, by simp, fun a ha b hb => ?_⟩
    rw [List.mem_singleton] at hb
    exact fun e => absent (hb ▸ e ▸ ha)

theorem nodup_erase {entries : List (String × α)} (h : (keys entries).Nodup) (key : String) :
    (keys (erase entries key)).Nodup :=
  h.sublist (List.filter_sublist.map _)

theorem remove_sublist (key : String) (entries : List (String × α)) :
    (remove key entries).2.Sublist entries := by
  induction entries with
  | nil => exact .slnil
  | cons e entries ih =>
    simp only [remove]
    split
    · exact .cons e (List.Sublist.refl entries)
    · exact .cons_cons e ih

theorem nodup_remove {entries : List (String × α)} (h : (keys entries).Nodup) (key : String) :
    (keys (remove key entries).2).Nodup :=
  h.sublist ((remove_sublist key entries).map _)

end Keyed

end UriExpansion
