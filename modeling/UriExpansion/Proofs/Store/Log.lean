import Mathlib.Data.List.Induction
import Mathlib.Data.List.Sort
import UriExpansion.Proofs.Store.Lookup

/-!
# Logs of changes

What a store holds can be told from the log of its changes alone. The value of a name is that of
the last change that mentions the name, and names stand in the order in which they were bound first
since they were last unbound.
-/

namespace UriExpansion

namespace Change

def name : Change → String
  | .bind name _ => name
  | .unbind name => name

def value? : Change → Option Value
  | .bind _ value => some value
  | .unbind _ => none

def binds (name : String) : Change → Bool
  | .bind other _ => other = name
  | .unbind _ => false

end Change

abbrev Log := List Change

namespace Log

def sinceUnbound (log : Log) (name : String) : Log :=
  (log.reverse.takeWhile (· ≠ .unbind name)).reverse

/-- The number of changes ahead of the first one that binds a name since it was last unbound. -/
def boundAt? (log : Log) (name : String) : Option Nat :=
  ((log.sinceUnbound name).findIdx? (Change.binds name)).map
    (log.length - (log.sinceUnbound name).length + ·)

/-- Both names are bound, the first one for longer. -/
def Before (log : Log) (a b : String) : Prop :=
  ∃ i ∈ log.boundAt? a, ∃ j ∈ log.boundAt? b, i < j

theorem sinceUnbound_concat (log : Log) (c : Change) (name : String) :
    sinceUnbound (log ++ [c]) name =
      if c = .unbind name then [] else log.sinceUnbound name ++ [c] := by
  by_cases h : c = .unbind name <;> simp [sinceUnbound, h]

theorem length_sinceUnbound_le (log : Log) (name : String) :
    (log.sinceUnbound name).length ≤ log.length := by
  have h := (List.takeWhile_sublist (l := log.reverse) (· ≠ Change.unbind name)).length_le
  simpa [sinceUnbound] using h

theorem boundAt?_concat (log : Log) (c : Change) (name : String) :
    boundAt? (log ++ [c]) name =
      if c = .unbind name then none
      else (log.boundAt? name).or (if c.binds name then some log.length else none) := by
  have hle := log.length_sinceUnbound_le name
  simp only [boundAt?, sinceUnbound_concat]
  by_cases h : c = .unbind name
  · simp [h]
  · have hend : log.length - (log.sinceUnbound name).length + (log.sinceUnbound name).length =
        log.length := by omega
    rw [if_neg h, if_neg h, List.findIdx?_append]
    cases (log.sinceUnbound name).findIdx? (Change.binds name) with
    | some i => simp
    | none => by_cases hc : c.binds name <;> simp [hc, hend]

theorem lt_length_of_mem_boundAt? {log : Log} {name : String} {i : Nat}
    (h : i ∈ log.boundAt? name) : i < log.length := by
  have hle := log.length_sinceUnbound_le name
  obtain ⟨k, hk, rfl⟩ := Option.map_eq_some_iff.1 h
  have hlt := (List.findIdx?_eq_some_iff_findIdx_eq.1 hk).1
  omega

theorem Before.not_before {log : Log} {a b : String} (h : log.Before a b) : ¬log.Before b a := by
  obtain ⟨i, hi, j, hj, hlt⟩ := h
  rintro ⟨j', hj', i', hi', hlt'⟩
  have hii : i = i' := Option.some.inj (hi.symm.trans hi')
  have hjj : j = j' := Option.some.inj (hj.symm.trans hj')
  omega

instance (log : Log) : Std.Antisymm log.Before :=
  ⟨fun _ _ h h' => absurd h' h.not_before⟩

theorem Before.concat {log : Log} {c : Change} {a b : String} (h : log.Before a b)
    (ha : c ≠ .unbind a) (hb : c ≠ .unbind b) : Before (log ++ [c]) a b := by
  obtain ⟨i, hi, j, hj, hlt⟩ := h
  refine ⟨i, ?_, j, ?_, hlt⟩
  · rw [boundAt?_concat, if_neg ha, Option.mem_def.1 hi]
    rfl
  · rw [boundAt?_concat, if_neg hb, Option.mem_def.1 hj]
    rfl

end Log

namespace Store

theorem replay_concat (s : Store) (log : Log) (c : Change) :
    s.replay (log ++ [c]) = (s.replay log).apply c :=
  List.foldl_concat ..

theorem replay_append (s : Store) (log log' : Log) :
    s.replay (log ++ log') = (s.replay log).replay log' :=
  List.foldl_append

theorem get?_apply (s : Store) (c : Change) (name : String) :
    (s.apply c).get? name = if name = c.name then c.value? else s.get? name := by
  cases c with
  | bind other value => exact get?_insert s other value name
  | unbind other => exact get?_erase s other name

theorem get?_replay (log : Log) (name : String) :
    (replay ∅ log).get? name = (Keyed.last? Change.name log name).bind Change.value? := by
  induction log using List.reverseRecOn with
  | nil => rfl
  | append_singleton log c ih =>
    rw [replay_concat, get?_apply, Keyed.last?_concat, ih]
    by_cases h : c.name = name
    · simp [h]
    · simp [h, Ne.symm h]

theorem get?_replay_eq_some_iff {log : Log} {name : String} {value : Value} :
    (replay ∅ log).get? name = some value ↔
      Keyed.last? Change.name log name = some (.bind name value) := by
  rw [get?_replay, Option.bind_eq_some_iff]
  constructor
  · rintro ⟨c, hc, hvalue⟩
    have hname := (Keyed.mem_of_last?_eq_some hc).2
    cases c with
    | bind other v =>
      cases hvalue
      cases hname
      exact hc
    | unbind other => cases hvalue
  · exact fun h => ⟨_, h, rfl⟩

theorem isSome_boundAt? (log : Log) (name : String) :
    (log.boundAt? name).isSome = ((replay ∅ log).get? name).isSome := by
  induction log using List.reverseRecOn with
  | nil => rfl
  | append_singleton log c ih =>
    rw [replay_concat, get?_apply, Log.boundAt?_concat]
    cases c with
    | bind other value =>
      by_cases h : name = other
      · simp [Change.binds, Change.name, Change.value?, h]
      · simp [Change.binds, Change.name, ih, h, Ne.symm h]
    | unbind other =>
      by_cases h : name = other
      · simp [Change.name, Change.value?, h]
      · simp [Change.binds, Change.name, ih, h, Ne.symm h]

theorem mem_names_replay_iff {log : Log} {name : String} :
    name ∈ (replay ∅ log).names ↔ (log.boundAt? name).isSome := by
  rw [isSome_boundAt?, mem_names_iff]

theorem pairwise_names_before (log : Log) : (replay ∅ log).names.Pairwise log.Before := by
  induction log using List.reverseRecOn with
  | nil => exact List.Pairwise.nil
  | append_singleton log c ih =>
    rw [replay_concat]
    cases c with
    | bind name value =>
      have hkept : (replay ∅ log).names.Pairwise (Log.Before (log ++ [.bind name value])) :=
        ih.imp fun h => h.concat (by simp) (by simp)
      rw [apply, names_insert]
      split
      case isTrue => exact hkept
      case isFalse hnew =>
        -- a new name is bound at the end of the log, later than all others
        have hnone : Log.boundAt? log name = none := by
          simpa using mem_names_replay_iff.not.1 hnew
        refine List.pairwise_append.2 ⟨hkept, List.pairwise_singleton _ _, fun a ha b hb => ?_⟩
        obtain ⟨i, hi⟩ := Option.isSome_iff_exists.1 (mem_names_replay_iff.1 ha)
        rw [List.mem_singleton.1 hb]
        refine ⟨i, ?_, log.length, ?_, Log.lt_length_of_mem_boundAt? hi⟩
        · simp [Log.boundAt?_concat, hi]
        · simp [Log.boundAt?_concat, hnone, Change.binds]
    | unbind name =>
      rw [apply, names_erase]
      refine (ih.filter _).imp_of_mem fun ha hb h => h.concat ?_ ?_
      · rintro ⟨⟩
        simp at ha
      · rintro ⟨⟩
        simp at hb

theorem sublist_names_replay_iff {log : Log} {a b : String} :
    [a, b].Sublist (replay ∅ log).names ↔ log.Before a b := by
  constructor
  · exact fun h => List.pairwise_iff_forall_sublist.1 (pairwise_names_before log) h
  · intro h
    have hmem : ∀ c ∈ [a, b], c ∈ (replay ∅ log).names := by
      obtain ⟨i, hi, j, hj, -⟩ := h
      intro c hc
      rcases List.mem_pair.1 hc with rfl | rfl
      · exact mem_names_replay_iff.2 (Option.isSome_iff_exists.2 ⟨i, hi⟩)
      · exact mem_names_replay_iff.2 (Option.isSome_iff_exists.2 ⟨j, hj⟩)
    have hne : a ≠ b := by
      rintro rfl
      exact h.not_before h
    have hsubperm := List.subperm_of_subset (by simpa using hne) hmem
    exact List.sublist_of_subperm_of_pairwise hsubperm (List.pairwise_pair.2 h)
      (pairwise_names_before log)

end Store

end UriExpansion
