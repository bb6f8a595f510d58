import Mathlib.Data.List.Dedup
import UriExpansion.ParamFile.Load
import UriExpansion.Proofs.Json.Effects
import UriExpansion.Proofs.Yaml.Effects

/-!
# Runs over a store

A program begins with the empty store and acts on it: it binds values, scalars, collections and
documents, removes bindings, takes in entries, or goes on with a store that is collected or read.
Each action puts changes into a log, and the store is at any time the log replayed.
-/

namespace UriExpansion

inductive Action
  | bind (name : String) (value : Value)
  | bindScalar (name : String) (x : Scalar)
  | bindList (name : String) (xs : List Scalar)
  | bindMap (name : String) (ps : List (String × Scalar))
  | bindJson (name : String) (j : Json)
  | remove (name : String)
  | extend (entries : List (String × Value))
  | collect (entries : List (String × Value))
  | document (j : Json)
  | load (text : String) (format : ParamFormat)

namespace Store

/-- A document that is refused leaves the store as it is. -/
def perform (s : Store) : Action → Store
  | .bind name value => s.insert name value
  | .bindScalar name x => s.bindScalar name x
  | .bindList name xs => s.bindList name xs
  | .bindMap name ps => s.bindMap name ps
  | .bindJson name j => s.bindJson name j
  | .remove name => (s.remove name).2
  | .extend entries => s.extend entries
  | .collect entries => .ofList entries
  | .document j => j.toStore.toOption.getD s
  | .load text format => (Store.parse text format).toOption.getD s

def run (actions : List Action) : Store :=
  actions.foldl perform ∅

end Store

namespace Log

/-- A store that is collected or read has a log of its own, with one change for each entry or
member; a document that is refused leaves the log. -/
def record (log : Log) : Action → Log
  | .bind name value => log ++ [.bind name value]
  | .bindScalar name x => log ++ [.bind name (.str x.canonical)]
  | .bindList name xs => log ++ [.bind name (.list (xs.map Scalar.canonical))]
  | .bindMap name ps => log ++ [.bind name (.map (ps.map fun (key, x) => (key, x.canonical)))]
  | .bindJson name j => log ++ [j.effect JsonNumber.jsonText name]
  | .remove name => log ++ [.unbind name]
  | .extend entries => log ++ entries.map fun e => .bind e.1 e.2
  | .collect entries => entries.map fun e => .bind e.1 e.2
  | .document j => j.effects?.getD log
  | .load text .json => ((Json.parseWritten text).toOption.bind Json.effects?).getD log
  | .load text .yaml => (Yaml.effects? text).getD log

def ofActions (actions : List Action) : Log :=
  actions.foldl record []

def mentioned (log : Log) : List String :=
  (log.map Change.name).dedup

end Log

namespace Store

/-- A store answers from the log alone. -/
structure Reflects (s : Store) (log : Log) : Prop where
  names_nodup : s.names.Nodup
  contains_iff (name : String) :
    s.contains name ↔ ∃ value, Keyed.last? Change.name log name = some (.bind name value)
  get?_eq_some_iff (name : String) (value : Value) :
    s.get? name = some value ↔ Keyed.last? Change.name log name = some (.bind name value)
  before_iff (a b : String) : [a, b].Sublist s.names ↔ log.Before a b
  contains_eq (name : String) : s.contains name = (s.get? name).isSome
  size_eq : s.size = (log.mentioned.filter fun name => (s.get? name).isSome).length
  isEmpty_iff : s.isEmpty ↔ ∀ name, s.get? name = none
  mem_entries_iff (name : String) (value : Value) :
    (name, value) ∈ s.entries ↔ s.get? name = some value
  entries_fst : s.entries.map Prod.fst = s.names
  remove_fst (name : String) : (s.remove name).1 = s.get? name

theorem size_replay (log : Log) : (replay ∅ log).size =
    (log.mentioned.filter fun name => ((replay ∅ log).get? name).isSome).length := by
  have hnames : (replay ∅ log).names.length = (replay ∅ log).size := List.length_map _
  have hnodup : (replay ∅ log).names.Nodup := (replay ∅ log).nodup
  rw [← hnames]
  apply List.Perm.length_eq
  refine (List.perm_ext_iff_of_nodup hnodup ((List.nodup_dedup _).filter _)).2 fun name => ?_
  rw [List.mem_filter, ← mem_names_iff, iff_and_self]
  intro h
  obtain ⟨value, hvalue⟩ := Option.isSome_iff_exists.1 (mem_names_iff.1 h)
  obtain ⟨hmem, hname⟩ := Keyed.mem_of_last?_eq_some (get?_replay_eq_some_iff.1 hvalue)
  exact List.mem_dedup.2 (List.mem_map.2 ⟨_, hmem, hname⟩)

theorem reflects_replay (log : Log) : (replay ∅ log).Reflects log where
  names_nodup := (replay ∅ log).nodup
  contains_iff name := by
    rw [contains_eq_isSome_get?, Option.isSome_iff_exists]
    exact exists_congr fun value => get?_replay_eq_some_iff
  get?_eq_some_iff name value := get?_replay_eq_some_iff
  before_iff a b := sublist_names_replay_iff
  contains_eq := contains_eq_isSome_get? _
  size_eq := size_replay log
  isEmpty_iff := isEmpty_iff_get?_eq_none
  mem_entries_iff name value := mem_entries_iff
  entries_fst := rfl
  remove_fst name := by rw [remove_eq]

theorem toOption_parseChanges (text : String) (format : ParamFormat) :
    (parseChanges text format).toOption = match format with
      | .json => (Json.parseWritten text).toOption.bind Json.effects?
      | .yaml => Yaml.effects? text := by
  cases format with
  | json => rw [parseChanges, toOption_mapError, Json.toOption_parseChanges]
  | yaml => rw [parseChanges, toOption_mapError, Yaml.toOption_parseChanges]

theorem perform_replay (log : Log) (a : Action) :
    (replay ∅ log).perform a = replay ∅ (log.record a) := by
  cases a with
  | bind name value => exact (replay_concat ∅ log (.bind name value)).symm
  | bindScalar name x => exact (replay_concat ∅ log (.bind name _)).symm
  | bindList name xs => exact (replay_concat ∅ log (.bind name _)).symm
  | bindMap name ps => exact (replay_concat ∅ log (.bind name _)).symm
  | bindJson name j =>
    rw [perform, bindJson, Json.ofOption_value?]
    exact (replay_concat ∅ log _).symm
  | remove name =>
    rw [perform, remove_eq]
    exact (replay_concat ∅ log (.unbind name)).symm
  | extend entries => exact (replay_append ∅ log _).symm
  | collect entries => rfl
  | document j =>
    rw [perform, Log.record, Json.toStore, toOption_map, Json.toOption_toChanges]
    exact Option.getD_map ..
  | load text format =>
    rw [perform, Store.parse, toOption_map, toOption_parseChanges]
    cases format with
    | json | yaml => exact Option.getD_map ..

theorem run_eq_replay (actions : List Action) : run actions = replay ∅ (Log.ofActions actions) := by
  induction actions using List.reverseRecOn with
  | nil => rfl
  | append_singleton actions a ih =>
    have hrun : run (actions ++ [a]) = (run actions).perform a := List.foldl_concat ..
    have hlog : Log.ofActions (actions ++ [a]) = (Log.ofActions actions).record a :=
      List.foldl_concat ..
    rw [hrun, hlog, ih, perform_replay]

/-- After every run the store is its log replayed: the last change that mentions a name decides
what the name is bound to, the time of its first binding since it was last unbound decides its
place, and all that a store can be asked agrees with this. -/
theorem run_reflects_log (actions : List Action) :
    (run actions).Reflects (Log.ofActions actions) := by
  rw [run_eq_replay]
  exact reflects_replay _

example : (run [.bind "a" (.str "1"), .bind "b" (.str "2"), .bind "a" (.str "3"),
    .bindJson "a" .null, .bind "a" (.list [])]).entries =
    [("b", .str "2"), ("a", .list [])] := by
  decide

end Store

end UriExpansion
