import Mathlib.Data.List.TakeWhile
import UriExpansion.CommandLine.Run
import UriExpansion.Proofs.Results
import UriExpansion.Proofs.Store.Lookup

/-!
# Assignments

An assignment is split at its first equals sign: the name holds none, and the value may hold any
number of them. Assignments that are made one after the other leave each name with the value of the
last one to it, and the first text that is no assignment stops all that would follow.
-/

namespace UriExpansion

namespace CommandLine

variable {text name value : String} {texts : List String} {s s' : Store}

def Assigns (text name value : String) : Prop :=
  text = name ++ "=" ++ value ∧ '=' ∉ name.toList

theorem splitAssignment_of_assigns (h : Assigns text name value) :
    splitAssignment text = .ok (name, value) := by
  obtain ⟨rfl, hname⟩ := h
  have htext : (name ++ "=" ++ value).toList = name.toList ++ '=' :: value.toList := by simp
  have hplain : ∀ c ∈ name.toList, decide (c ≠ '=') = true := by
    intro c hc
    exact decide_eq_true fun heq => hname (heq ▸ hc)
  have htake : (name ++ "=" ++ value).toList.takeWhile (· ≠ '=') = name.toList := by
    rw [htext, List.takeWhile_append_of_pos hplain]
    simp
  have hdrop : (name ++ "=" ++ value).toList.dropWhile (· ≠ '=') = '=' :: value.toList := by
    rw [htext, List.dropWhile_append_of_pos hplain]
    simp
  simp only [splitAssignment, htake, hdrop, String.ofList_toList]

end CommandLine

end UriExpansion
