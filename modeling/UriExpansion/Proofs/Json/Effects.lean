import UriExpansion.Proofs.Json.Within.Parameter
import UriExpansion.Proofs.Store.Log

/-!
# What a document does to a log

A document that is bound to a name, or stands under the name in an object that is read, unbinds the
name when it is `null` and binds it otherwise. A flat object so makes one change for each member, in
order, whether it is taken as a document or read off a text, and any other object is refused.
-/

namespace UriExpansion

namespace Json

def canonicalText (n : JsonNumber) : String :=
  n.toScalar.canonical

def memberTextBy (write : JsonNumber → String) : Json → String
  | .number n => write n
  | .string s => s
  | j => j.compact

def boundBy (write : JsonNumber → String) : Json → Value
  | .array items => .list (items.map (memberTextBy write))
  | .object members => .map (members.map fun m => (m.1, m.2.memberTextBy write))
  | j => .str (j.memberTextBy write)

def effect (write : JsonNumber → String) (name : String) : Json → Change
  | .null => .unbind name
  | j => .bind name (j.boundBy write)

/-- What a document does when it is taken for a store, unless it is refused. -/
def effects? : Json → Option Log
  | .object members =>
    if isFlatObject (.object members) then
      some (members.map fun m => m.2.effect canonicalText m.1)
    else none
  | _ => none

variable {write : JsonNumber → String} {j : Json}

theorem effect_of_ne_null (h : j ≠ .null) (name : String) :
    j.effect write name = .bind name (j.boundBy write) := by
  cases j with
  | null => exact absurd rfl h
  | _ => rfl

theorem memberTextBy_jsonText : memberTextBy JsonNumber.jsonText = memberText := by
  funext j
  cases j <;> rfl

theorem value?_eq_boundBy (h : j ≠ .null) : j.value? = some (j.boundBy JsonNumber.jsonText) := by
  cases j with
  | null => exact absurd rfl h
  | number n => rfl
  | _ => simp only [value?, boundBy, memberTextBy_jsonText]

theorem ofOption_value? (name : String) (j : Json) :
    .ofOption name j.value? = j.effect JsonNumber.jsonText name := by
  by_cases h : j = .null
  · subst h
    rfl
  · rw [value?_eq_boundBy h, effect_of_ne_null h, Change.ofOption]

theorem memberTextBy_of_scalarText? {text : String} (h : j.scalarText? = some text) :
    j.memberTextBy canonicalText = text := by
  cases j with
  | null | array | object => cases h
  | _ => exact Option.some.inj h

theorem boundBy_of_toValue {v : Value} (h : j.toValue = .ok v) : j.boundBy canonicalText = v := by
  cases j with
  | null => cases h
  | array items =>
    obtain ⟨texts, hrel, rfl⟩ := toValue_array_eq_ok_iff.1 h
    have htexts := hrel.imp fun _ _ => memberTextBy_of_scalarText?
    rw [← List.forall₂_map_left_iff, List.forall₂_eq_eq_eq] at htexts
    rw [boundBy, htexts]
  | object members =>
    obtain ⟨pairs, hrel, rfl⟩ := toValue_object_eq_ok_iff.1 h
    have hpairs : Keyed.Related (memberTextBy canonicalText · = ·) members pairs :=
      hrel.imp fun _ _ hm => ⟨hm.1, memberTextBy_of_scalarText? hm.2⟩
    rw [boundBy, hpairs.map_eq]
  | _ =>
    cases h
    rfl

theorem Gives.effect {value : Option Value} (h : j.Gives value) (name : String) :
    .ofOption name value = j.effect canonicalText name := by
  by_cases hnull : j = .null
  · subst hnull
    cases gives_null_iff.1 h
    rfl
  · obtain ⟨v, hv, rfl⟩ := (gives_iff_toValue hnull).1 h
    rw [effect_of_ne_null hnull, boundBy_of_toValue hv, Change.ofOption]

theorem changes_eq_effects {members : List (String × Json)} {ms : List (String × Option Value)}
    (h : Keyed.Related Gives members ms) :
    changes ms = members.map fun m => m.2.effect canonicalText m.1 := by
  induction h with
  | nil => rfl
  | cons hm _ ih => rw [List.map_cons, ← ih, ← hm.2.effect, hm.1, changes, changes, List.map_cons]

theorem effects?_of_toChanges {log : Log} (h : j.toChanges = .ok log) : j.effects? = some log := by
  have hflat := exists_toChanges_eq_ok_iff.1 ⟨log, h⟩
  cases j with
  | object members =>
    obtain ⟨ms, hms, rfl⟩ := toChanges_object_eq_ok_iff.1 h
    rw [effects?, if_pos hflat, changes_eq_effects hms]
  | _ => cases hflat

theorem isFlatObject_of_effects? {log : Log} (h : j.effects? = some log) : j.isFlatObject := by
  cases j with
  | object members => exact (Option.ite_none_right_eq_some.1 h).1
  | _ => cases h

theorem toOption_toChanges (j : Json) : j.toChanges.toOption = j.effects? := by
  refine Option.ext fun log => toOption_eq_some_iff.trans ⟨effects?_of_toChanges, fun h => ?_⟩
  obtain ⟨log', hlog'⟩ := exists_toChanges_eq_ok_iff.2 (isFlatObject_of_effects? h)
  cases (effects?_of_toChanges hlog').symm.trans h
  exact hlog'

theorem parseChanges_eq_ok_iff {text : String} {log : Log} :
    parseChanges text = .ok log ↔ ∃ j, parseWritten text = .ok j ∧ j.toChanges = .ok log := by
  constructor
  · -- members, values and scalars are three levels below the limit
    exact fun h => (follows_readChanges 125).readText h
  · rintro ⟨j, hj, hlog⟩
    obtain ⟨c, hread, hend⟩ := readText_eq_ok_iff.1 hj
    have hflat := exists_toChanges_eq_ok_iff.1 ⟨log, hlog⟩
    obtain ⟨log', hlog', heq⟩ := readChanges_within delimits_nil depthLimit _ j c hread hflat
    obtain rfl : log = log' := Except.ok.inj (hlog.symm.trans heq)
    rw [Cursor.within_nil, Cursor.within_nil] at hlog'
    exact readText_eq_ok_iff.2 ⟨c, hlog', hend⟩

theorem toOption_parseChanges (text : String) :
    (parseChanges text).toOption = (parseWritten text).toOption.bind effects? := by
  refine Option.ext fun log => ?_
  rw [toOption_eq_some_iff, parseChanges_eq_ok_iff, Option.bind_eq_some_iff]
  simp only [toOption_eq_some_iff, ← toOption_toChanges]

end Json

end UriExpansion
