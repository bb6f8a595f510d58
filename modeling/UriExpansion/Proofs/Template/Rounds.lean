import Mathlib.Data.String.Basic
import Mathlib.Logic.Relation
import UriExpansion.Proofs.Template.Source

/-!
# Rounds of the scan

What one round can do is said once, by `Scan.Step`. A scan reaches its end by finitely many steps:
either nothing is left, or the rest begins with an opening brace that is never closed. All that the
states of a scan have in common is derived from the two cases of a step.
-/

namespace UriExpansion

namespace Scan

theorem splitAtBrace_append {body : List Char} (hbody : '}' ∉ body) (rest : List Char) :
    splitAtBrace (body ++ '}' :: rest) = some (body, rest) := by
  induction body with
  | nil => rfl
  | cons b body ih =>
    have hb : b ≠ '}' := fun h => hbody (h ▸ List.mem_cons_self)
    have ht : '}' ∉ body := fun h => hbody (List.mem_cons_of_mem b h)
    simp [splitAtBrace, hb, ih ht]

theorem eq_append_of_splitAtBrace {cs body rest : List Char}
    (h : splitAtBrace cs = some (body, rest)) : cs = body ++ '}' :: rest ∧ '}' ∉ body := by
  induction cs generalizing body with
  | nil => cases h
  | cons c cs ih =>
    simp only [splitAtBrace] at h
    split at h
    case isTrue hc =>
      cases h
      simp [hc]
    case isFalse hc =>
      obtain ⟨⟨front, back⟩, hsplit, heq⟩ := Option.map_eq_some_iff.1 h
      cases heq
      obtain ⟨hcs, hfront⟩ := ih hsplit
      exact ⟨by rw [hcs, List.cons_append], by simp [hfront, Ne.symm hc]⟩

theorem splitAtBrace_eq_none_iff {cs : List Char} : splitAtBrace cs = none ↔ '}' ∉ cs := by
  induction cs with
  | nil => simp [splitAtBrace]
  | cons c cs ih =>
    simp only [splitAtBrace]
    split
    case isTrue hc => simp [hc]
    case isFalse hc => simp [ih, Ne.symm hc]

def pushChar (s : Scan) (c : Char) (rest : List Char) : Scan :=
  ⟨s.segments, s.literal.push c, s.position + c.utf8Size, rest⟩

def pushBody (s : Scan) (body rest : List Char) : Scan :=
  ⟨s.flush ++ [.expression (.ofBody body)], "", s.position + 1 + (String.utf8Len body + 1), rest⟩

theorem flush_pushBody (s : Scan) (body rest : List Char) :
    (s.pushBody body rest).flush = s.flush ++ [.expression (.ofBody body)] := by
  simp [flush, pushBody]

/-- A round that takes something: a character outside of braces, or a whole expression. -/
inductive Step (s : Scan) : Scan → Prop
  | char {c rest} : s.rest = c :: rest → c ≠ '{' → Step s (s.pushChar c rest)
  | body {body rest} : s.rest = '{' :: (body ++ '}' :: rest) → '}' ∉ body →
      Step s (s.pushBody body rest)

def Stuck (s : Scan) : Prop :=
  ∃ cs, s.rest = '{' :: cs ∧ '}' ∉ cs

variable {s s' : Scan}

theorem next_of_rest_eq_nil (h : s.rest = []) : s.next = none := by
  simp [next, h]

theorem next_of_stuck (h : s.Stuck) : s.next = some (.error ⟨s.position⟩) := by
  obtain ⟨cs, hrest, hcs⟩ := h
  simp [next, hrest, splitAtBrace_eq_none_iff.2 hcs]

theorem next_of_step (h : Step s s') : s.next = some (.ok s') := by
  cases h with
  | char hrest hc => simp [next, hrest, hc, pushChar]
  | body hrest hbody =>
    simp [next, hrest, splitAtBrace_append hbody, pushBody, String.utf8ByteSize_ofList]

theorem rest_cases (s : Scan) : s.rest = [] ∨ s.Stuck ∨ ∃ s', Step s s' := by
  cases hrest : s.rest with
  | nil => exact Or.inl rfl
  | cons c cs =>
    right
    by_cases hc : c = '{'
    · subst hc
      cases hsplit : splitAtBrace cs with
      | none => exact Or.inl ⟨cs, hrest, splitAtBrace_eq_none_iff.1 hsplit⟩
      | some parts =>
        obtain ⟨hcs, hbody⟩ := eq_append_of_splitAtBrace hsplit
        exact Or.inr ⟨_, .body (by rw [hrest, hcs]) hbody⟩
    · exact Or.inr ⟨_, .char hrest hc⟩

theorem next_eq_ok_iff : s.next = some (.ok s') ↔ Step s s' := by
  refine ⟨fun h => ?_, next_of_step⟩
  rcases s.rest_cases with hrest | hstuck | ⟨s'', hstep⟩
  · simp [next_of_rest_eq_nil hrest] at h
  · simp [next_of_stuck hstuck] at h
  · rw [next_of_step hstep] at h
    cases h
    exact hstep

abbrev Reaches : Scan → Scan → Prop := Relation.ReflTransGen Step

def read (s : Scan) : List Char :=
  s.segments.flatMap Segment.source ++ s.literal.toList

def withRest (s : Scan) (rest : List Char) : Scan :=
  { s with rest }

theorem toList_sourceOf_flush (s : Scan) : (sourceOf s.flush).toList = s.read := by
  rw [toList_sourceOf, read, flush]
  split
  case isTrue h => simp [String.isEmpty_iff.1 h]
  case isFalse h => simp [Segment.source]

/-- Between two states a piece of the text is taken: it is what is printed on top, the position
counts its bytes, and it would be taken in the same way with any text behind it. -/
structure Takes (s : Scan) (piece : List Char) (s' : Scan) : Prop where
  rest : s.rest = piece ++ s'.rest
  read : s'.read = s.read ++ piece
  position : s'.position = s.position + String.utf8Len piece
  anywhere (tail : List Char) : Reaches (s.withRest (piece ++ tail)) (s'.withRest tail)

theorem Takes.refl (s : Scan) : Takes s [] s :=
  ⟨rfl, (List.append_nil _).symm, rfl, fun _ => .refl⟩

theorem Takes.trans {s'' : Scan} {xs ys : List Char} (h : Takes s xs s') (h' : Takes s' ys s'') :
    Takes s (xs ++ ys) s'' where
  rest := by rw [h.rest, h'.rest, List.append_assoc]
  read := by rw [h'.read, h.read, List.append_assoc]
  position := by rw [h'.position, h.position, String.utf8Len_append, Nat.add_assoc]
  anywhere tail := by
    rw [List.append_assoc]
    exact (h.anywhere (ys ++ tail)).trans (h'.anywhere tail)

theorem takes_pushChar {c : Char} {rest : List Char} (hrest : s.rest = c :: rest) (hc : c ≠ '{') :
    Takes s [c] (s.pushChar c rest) where
  rest := hrest
  read := by simp [Scan.read, pushChar]
  position := by simp [pushChar]
  anywhere tail := .single (.char rfl hc)

theorem takes_pushBody {body rest : List Char} (hrest : s.rest = '{' :: (body ++ '}' :: rest))
    (hbody : '}' ∉ body) : Takes s ('{' :: (body ++ ['}'])) (s.pushBody body rest) where
  rest := by simp [hrest, pushBody]
  read := by
    have hf := s.toList_sourceOf_flush
    rw [toList_sourceOf] at hf
    simp [Scan.read, pushBody, hf, Segment.source_ofBody]
  position := by
    have ho : '{'.utf8Size = 1 := rfl
    have hc : '}'.utf8Size = 1 := rfl
    simp only [pushBody, String.utf8Len_cons, String.utf8Len_nil, String.utf8Len_append, ho, hc]
    omega
  anywhere tail := .single (.body (by simp [withRest]) hbody)

theorem Step.exists_takes (h : Step s s') : ∃ piece, piece ≠ [] ∧ Takes s piece s' := by
  cases h with
  | char hrest hc => exact ⟨_, List.cons_ne_nil _ _, takes_pushChar hrest hc⟩
  | body hrest hbody => exact ⟨_, List.cons_ne_nil _ _, takes_pushBody hrest hbody⟩

theorem exists_takes_of_reaches (h : Reaches s s') : ∃ piece, Takes s piece s' := by
  induction h with
  | refl => exact ⟨[], Takes.refl s⟩
  | tail _ hstep ih =>
    obtain ⟨xs, hxs⟩ := ih
    obtain ⟨ys, -, hys⟩ := hstep.exists_takes
    exact ⟨xs ++ ys, hxs.trans hys⟩

theorem Step.rest_length_lt (h : Step s s') : s'.rest.length < s.rest.length := by
  obtain ⟨piece, hpiece, htakes⟩ := h.exists_takes
  have hl := List.length_pos_iff.2 hpiece
  rw [htakes.rest, List.length_append]
  omega

theorem reaches_end (s : Scan) : ∃ s', Reaches s s' ∧ (s'.rest = [] ∨ s'.Stuck) := by
  rcases s.rest_cases with hrest | hstuck | ⟨s', hstep⟩
  · exact ⟨s, .refl, Or.inl hrest⟩
  · exact ⟨s, .refl, Or.inr hstuck⟩
  · have := hstep.rest_length_lt
    obtain ⟨s'', hreaches, hend⟩ := reaches_end s'
    exact ⟨s'', .head hstep hreaches, hend⟩
termination_by s.rest.length

theorem run_of_rest_eq_nil (h : s.rest = []) (rounds : Nat) : run rounds s = .ok s.flush := by
  cases rounds with
  | zero => rfl
  | succ rounds => simp [run, next_of_rest_eq_nil h]

theorem run_of_stuck (h : s.Stuck) {rounds : Nat} (hr : s.rest.length ≤ rounds) :
    run rounds s = .error ⟨s.position⟩ := by
  cases rounds with
  | zero =>
    obtain ⟨cs, hrest, -⟩ := h
    simp [hrest] at hr
  | succ rounds => simp [run, next_of_stuck h]

theorem run_of_reaches (h : Reaches s s') {rounds : Nat} (hr : s.rest.length ≤ rounds) :
    ∃ left, s'.rest.length ≤ left ∧ run rounds s = run left s' := by
  induction h with
  | refl => exact ⟨rounds, hr, rfl⟩
  | tail _ hstep ih =>
    obtain ⟨left, hleft, hrun⟩ := ih
    have hlt := hstep.rest_length_lt
    cases left with
    | zero => omega
    | succ left =>
      refine ⟨left, by omega, ?_⟩
      simp [hrun, run, next_of_step hstep]

end Scan

namespace Template

open Scan (Reaches)

variable {text : String} {s : Scan}

theorem parse_of_rest_eq_nil (h : Reaches (Scan.start text) s) (hrest : s.rest = []) :
    parse text = .ok ⟨text, s.flush⟩ := by
  obtain ⟨left, -, hrun⟩ := Scan.run_of_reaches h (Nat.le_of_eq String.length_toList)
  rw [parse, hrun, Scan.run_of_rest_eq_nil hrest]
  rfl

theorem parse_of_stuck (h : Reaches (Scan.start text) s) (hstuck : s.Stuck) :
    parse text = .error ⟨s.position⟩ := by
  obtain ⟨left, hleft, hrun⟩ := Scan.run_of_reaches h (Nat.le_of_eq String.length_toList)
  rw [parse, hrun, Scan.run_of_stuck hstuck hleft]
  rfl

theorem parse_eq_ok_iff {t : Template} : parse text = .ok t ↔
    ∃ s, Reaches (Scan.start text) s ∧ s.rest = [] ∧ t = ⟨text, s.flush⟩ := by
  constructor
  · intro h
    obtain ⟨s, hreaches, hrest | hstuck⟩ := (Scan.start text).reaches_end
    · rw [parse_of_rest_eq_nil hreaches hrest] at h
      cases h
      exact ⟨s, hreaches, hrest, rfl⟩
    · rw [parse_of_stuck hreaches hstuck] at h
      cases h
  · rintro ⟨s, hreaches, hrest, rfl⟩
    exact parse_of_rest_eq_nil hreaches hrest

theorem parse_eq_error_iff {e : Unterminated} : parse text = .error e ↔
    ∃ s, Reaches (Scan.start text) s ∧ s.Stuck ∧ e = ⟨s.position⟩ := by
  constructor
  · intro h
    obtain ⟨s, hreaches, hrest | hstuck⟩ := (Scan.start text).reaches_end
    · rw [parse_of_rest_eq_nil hreaches hrest] at h
      cases h
    · rw [parse_of_stuck hreaches hstuck] at h
      cases h
      exact ⟨s, hreaches, hstuck, rfl⟩
  · rintro ⟨s, hreaches, hstuck, rfl⟩
    exact parse_of_stuck hreaches hstuck

end Template

namespace Scan

variable {text : String} {s : Scan}

theorem takes_of_reaches_start (h : Reaches (start text) s) : Takes (start text) s.read s := by
  obtain ⟨piece, htakes⟩ := exists_takes_of_reaches h
  have hread : s.read = piece := by simpa [read, start] using htakes.read
  rwa [hread]

theorem read_append_rest (h : Reaches (start text) s) : s.read ++ s.rest = text.toList :=
  (takes_of_reaches_start h).rest.symm

theorem position_eq_utf8Len_read (h : Reaches (start text) s) :
    s.position = String.utf8Len s.read := by
  simpa [start] using (takes_of_reaches_start h).position

theorem reaches_withRest (h : Reaches (start text) s) (tail : List Char) :
    Reaches (start (String.ofList (s.read ++ tail))) (s.withRest tail) := by
  simpa [start, withRest] using (takes_of_reaches_start h).anywhere tail

end Scan

end UriExpansion
