import UriExpansion.Proofs.Results
import UriExpansion.Proofs.Store.Log
import UriExpansion.Yaml.Store

/-!
# What the members of a YAML document do to a log

A member is a name and the node of its value. It unbinds the name when the node is null, and binds
the name to the value of the node otherwise. A document does what its members do in order, and is
refused when one of them is.
-/

namespace UriExpansion

namespace Yaml

/-- The node is absent, or a plain scalar that means null by itself or by its tag. -/
def Node.isNull : Node → Bool
  | .absent => true
  | .scalar tag text true =>
    (tag.all fun bytes => CoreTag.ofBytes? bytes = some .null) &&
      (meaning tag text true).toOption = some .null
  | _ => false

namespace Document

def effect? (d : Document) (name : String) (path : Path) (p : Place) :
    Option (Change × Place) := do
  let r ← (d.reach p).toOption
  if r.node.isNull then some (.unbind name, r.after (r.index + 1) r.jumps)
  else
    let (value, p) ← (d.valueOf path r).toOption
    some (.bind name value, p)

/-- What the members of a mapping do, from a place on. Every member takes a node. -/
def effectsFrom? (d : Document) : Nat → Place → Option Log
  | 0, _ => none
  | fuel + 1, p => do
    let (node, _) ← d.node? p.index
    match node with
    | .mappingEnd => some []
    | _ =>
      let (name, p) ← (d.readName .root p).toOption
      let (c, p) ← d.effect? name (memberPath .root node) p
      let log ← d.effectsFrom? fuel p
      some (c :: log)

def effects? (d : Document) : Option Log := do
  let r ← (d.reach ⟨0, 0⟩).toOption
  match r.node with
  | .mappingStart _ => d.effectsFrom? (d.nodes.size + 1) ⟨r.index + 1, r.jumps⟩
  | .absent => some []
  | .scalar _ text plain => if plain && text.isEmpty then some [] else none
  | _ => none

end Document

def effects? (text : String) : Option Log :=
  let (d, further) := Document.load text
  match d.ending, further with
  | .complete, false => d.effects?
  | _, _ => none

theorem integer?_ne_null (text : String) : integer? text ≠ some .null := by
  intro h
  obtain ⟨n, -, hn⟩ := Option.bind_eq_some_iff.1 h
  split at hn
  · cases hn
  · split at hn <;> cases hn

theorem plainMeaning_eq_null_iff {text : String} :
    plainMeaning text = .null ↔ text.isEmpty || isNullWord text := by
  unfold plainMeaning
  split
  case isTrue h => exact iff_of_true rfl h
  case isFalse h =>
    refine iff_of_false (fun hnull => ?_) h
    split at hnull
    case h_1 => cases hnull
    case h_2 hinteger => exact integer?_ne_null text (hnull ▸ hinteger)
    case h_3 =>
      split at hnull
      case isTrue => cases hnull
      case isFalse => cases hdouble : double? text <;> simp [hdouble] at hnull

theorem isVariant_of_ofBytes? {bytes : Bytes} {tag : CoreTag}
    (h : CoreTag.ofBytes? bytes = some tag) : isVariant (some bytes) = false := by
  have hbytes : bytes = Bytes.ofAscii ("tag:yaml.org,2002:" ++ tag.name) := by
    simpa using List.find?_some h
  subst hbytes
  cases tag <;> rfl

namespace Document

variable {d : Document}

theorem isNull_untagged (text : String) :
    isNull (.scalar none text true) = .ok (Node.scalar none text true).isNull := by
  by_cases h : text.isEmpty || isNullWord text
  · simp [isNull, Node.isNull, meaning, h, plainMeaning_eq_null_iff.2 h, Except.toOption]
  · have hmeaning := plainMeaning_eq_null_iff.not.2 h
    simp [isNull, Node.isNull, meaning, h, hmeaning, Except.toOption]

/-- A node that is null by its tag, but not by its text, is refused, and as a scalar too. -/
theorem refused_of_null_tag {bytes : Bytes} {text : String}
    (htag : CoreTag.ofBytes? bytes = some .null) (hword : ¬isNullWord text) :
    (Node.scalar (some bytes) text true).isNull = false ∧
      (∃ e, isNull (.scalar (some bytes) text true) = .error e) ∧
      ∀ wanted, ∃ e, scalarOf wanted (.scalar (some bytes) text true) = .error e := by
  have hmeaning : meaning (some bytes) text true = .error .null := by
    simp [meaning, htag, CoreTag.meaning?, hword]
  refine ⟨?_, ⟨.ofCause (.unmet text .null), ?_⟩, fun wanted => ⟨.ofCause (.unmet text .null), ?_⟩⟩
  · simp [Node.isNull, htag, hmeaning, Except.toOption]
  · simp [isNull, htag, hword]
  · rw [scalarOf, isVariant_of_ofBytes? htag, scalarMeaning, hmeaning]
    rfl

theorem isNull_cases (n : Node) : isNull n = .ok n.isNull ∨ n.isNull = false ∧
    (∃ e, isNull n = .error e) ∧ ∀ wanted, ∃ e, scalarOf wanted n = .error e := by
  cases n with
  | scalar tag text plain =>
    cases plain with
    | false => cases tag <;> exact .inl rfl
    | true =>
      cases tag with
      | none => exact .inl (isNull_untagged text)
      | some bytes =>
        by_cases htag : CoreTag.ofBytes? bytes = some .null
        · by_cases hword : isNullWord text
          · left
            simp [isNull, Node.isNull, meaning, htag, CoreTag.meaning?, hword, Except.toOption]
          · exact .inr (refused_of_null_tag htag hword)
        · left
          simp [isNull, Node.isNull, htag]
  | _ => exact .inl rfl

theorem toOption_nodeAt (i : Nat) : (d.nodeAt i).toOption = d.node? i := by
  unfold nodeAt
  cases d.node? i <;> rfl

theorem exists_valueOf_eq_error {path : Path} {r : Reached} {e : Error}
    (hnull : isNull r.node = .error e)
    (hscalar : ∀ wanted, ∃ e, scalarOf wanted r.node = .error e) :
    ∃ e, d.valueOf path r = .error e := by
  obtain ⟨index, node, mark, jumps, behind⟩ := r
  cases node with
  | sequenceStart | mappingStart => cases hnull
  | _ =>
    obtain ⟨e', he⟩ := hscalar .value
    exact ⟨_, by simp only [valueOf, he]; rfl⟩

theorem toOption_readMember (name : String) (path : Path) (p : Place) :
    ((d.readMember path p).toOption.map fun (value, p) => (Change.ofOption name value, p)) =
      d.effect? name path p := by
  rw [readMember, effect?, toOption_bind]
  cases d.reach p with
  | error e => rfl
  | ok r =>
    simp only [Except.toOption, Option.bind_some, Option.bind_eq_bind]
    rcases isNull_cases r.node with hnull | ⟨hfalse, ⟨e, herror⟩, hscalar⟩
    · rw [hnull]
      cases r.node.isNull with
      | true => rfl
      | false =>
        cases hvalue : d.valueOf path r with
        | error e => rfl
        | ok x => rfl
    · obtain ⟨e', hvalue⟩ : ∃ e, d.valueOf path r = .error e :=
        exists_valueOf_eq_error herror hscalar
      simp [herror, hfalse, hvalue, bind, Except.bind]

theorem toOption_readChanges (fuel : Nat) (p : Place) :
    (d.readChanges fuel p).toOption = d.effectsFrom? fuel p := by
  induction fuel generalizing p with
  | zero => rfl
  | succ fuel ih =>
    rw [readChanges, effectsFrom?, toOption_bind, toOption_nodeAt]
    refine Option.bind_congr fun ⟨node, mark⟩ _ => ?_
    cases node with
    | mappingEnd => rfl
    | _ =>
      simp only [toOption_bind, Option.bind_eq_bind, ← toOption_readMember, Option.bind_map, ← ih]
      rfl

theorem toOption_changes (d : Document) : d.changes.toOption = d.effects? := by
  rw [changes, effects?, toOption_bind]
  refine Option.bind_congr fun r _ => ?_
  rw [toOption_mapError]
  cases r.node with
  | mappingStart => exact toOption_readChanges ..
  | scalar tag text plain =>
    simp only
    split
    case isTrue => rfl
    case isFalse =>
      rw [toOption_bind]
      exact Option.bind_fun_none _
  | _ => rfl

end Document

theorem toOption_parseChanges (text : String) : (parseChanges text).toOption = effects? text := by
  unfold parseChanges readText effects?
  obtain ⟨d, further⟩ := Document.load text
  simp only [toOption_bind, Document.toOption_changes]
  cases d.ending with
  | complete =>
    cases further with
    | true => exact Option.bind_fun_none _
    | false => exact Option.bind_fun_some _
  | _ => exact Option.bind_fun_none _

end Yaml

end UriExpansion
