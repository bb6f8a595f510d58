import UriExpansion.Json.NumberLiteral
import UriExpansion.Proofs.Results

/-!
# Numbers inside of longer texts

A number is read alike from a text of its own and from inside of a longer text, where other
characters stand in front of it and a separator stands behind. The reader looks at what stands
behind, but a separator does not go on with a number.
-/

namespace UriExpansion

namespace Json

variable {α : Type} {before : Nat} {tail : List Char}

def Delimits (tail : List Char) : Prop :=
  ∀ x ∈ tail.head?, x = ',' ∨ x = ':' ∨ x = ']' ∨ x = '\x7d'

theorem delimits_nil : Delimits [] := nofun

namespace Cursor

def within (before : Nat) (tail : List Char) (c : Cursor) : Cursor :=
  ⟨c.rest ++ tail, c.offset + before⟩

@[simp] theorem within_nil (c : Cursor) : c.within 0 [] = c := by
  simp [within]

theorem ne_nil_of_head? {c : Cursor} {x : Char} (h : c.rest.head? = some x) : c.rest ≠ [] := by
  intro hnil
  rw [hnil] at h
  cases h

theorem head?_ne {c : Cursor} {x : Char} (h : ∀ rest, c.rest = x :: rest → False) :
    c.rest.head? ≠ some x := fun hhead =>
  let ⟨rest, hrest⟩ := List.head?_eq_some_iff.1 hhead
  h rest hrest

theorem next_within {c : Cursor} (h : c.rest ≠ []) :
    (c.within before tail).next = c.next.within before tail := by
  obtain ⟨rest, offset⟩ := c
  cases rest with
  | nil => exact absurd rfl h
  | cons x rest => simp [within, next, Nat.add_right_comm]

theorem rest_within (before : Nat) (tail : List Char) {c : Cursor} {x : Char} {rest : List Char}
    (h : c.rest = x :: rest) :
    (c.within before tail).rest = x :: (rest ++ tail) := by
  rw [within, h]
  rfl

theorem head?_within_of_some {c : Cursor} {x : Char} (h : c.rest.head? = some x) :
    (c.within before tail).rest.head? = some x := by
  rw [within, List.head?_append, h]
  rfl

theorem head?_within (ht : Delimits tail) (c : Cursor) {x : Char}
    (hx : x ≠ ',' ∧ x ≠ ':' ∧ x ≠ ']' ∧ x ≠ '\x7d') :
    (c.within before tail).rest.head? = some x ↔ c.rest.head? = some x := by
  obtain ⟨rest, offset⟩ := c
  cases rest with
  | nil =>
    refine iff_of_false (fun h => ?_) nofun
    rcases ht x h with rfl | rfl | rfl | rfl <;> simp at hx
  | cons y rest => rfl

theorem any_head?_within {p : Char → Bool} (hp : ∀ x ∈ tail.head?, p x = false) (c : Cursor) :
    (c.within before tail).rest.head?.any p = c.rest.head?.any p := by
  obtain ⟨rest, offset⟩ := c
  cases rest with
  | nil =>
    cases tail with
    | nil => rfl
    | cons x tail => exact hp x rfl
  | cons y rest => rfl

theorem span_append {p : Char → Bool} (hp : ∀ x ∈ tail.head?, p x = false) (xs : List Char) :
    (xs ++ tail).takeWhile p = xs.takeWhile p ∧
      (xs ++ tail).dropWhile p = xs.dropWhile p ++ tail := by
  induction xs with
  | nil =>
    cases tail with
    | nil => exact ⟨rfl, rfl⟩
    | cons x tail => simp [hp x rfl]
  | cons x xs ih => cases hx : p x <;> simp [hx, ih]

theorem skip_within {p : Char → Bool} (hp : ∀ x ∈ tail.head?, p x = false) (c : Cursor) :
    (c.within before tail).skip p = (c.skip p).within before tail := by
  obtain ⟨htake, hdrop⟩ := span_append hp c.rest
  simp only [skip, within, htake, hdrop, Nat.add_right_comm]

theorem skipBlank_within (ht : Delimits tail) (c : Cursor) :
    (c.within before tail).skipBlank = c.skipBlank.within before tail := by
  refine skip_within (fun x hx => ?_) c
  rcases ht x hx with rfl | rfl | rfl | rfl <;> rfl

end Cursor

open Cursor

theorem isDigit_of_delimits (ht : Delimits tail) : ∀ x ∈ tail.head?, x.isDigit = false := by
  intro x hx
  rcases ht x hx with rfl | rfl | rfl | rfl <;> rfl

theorem atDigit_within (ht : Delimits tail) (c : Cursor) :
    atDigit (c.within before tail) = atDigit c :=
  any_head?_within (isDigit_of_delimits ht) c

theorem dropDigits_within (ht : Delimits tail) (c : Cursor) :
    dropDigits (c.within before tail) =
      ((dropDigits c).1, (dropDigits c).2.within before tail) := by
  simp only [dropDigits, skip_within (isDigit_of_delimits ht)]
  simp [within, Nat.add_sub_add_right]

theorem collect_within (ht : Delimits tail) (coefficient count : Nat) (c : Cursor) :
    collect (c.within before tail).rest coefficient count (c.within before tail) =
      ((collect c.rest coefficient count c).1, (collect c.rest coefficient count c).2.1,
        (collect c.rest coefficient count c).2.2.within before tail) := by
  obtain ⟨rest, offset⟩ := c
  simp only [within]
  induction rest generalizing coefficient count offset with
  | nil =>
    cases tail with
    | nil => rfl
    | cons x tail => simp [collect, isDigit_of_delimits ht x rfl]
  | cons d ds ih =>
    simp only [List.cons_append, collect]
    split
    case isTrue h =>
      simp only [next]
      rw [← ih, Nat.add_right_comm]
    case isFalse => rfl

theorem collectExponent_within (before : Nat) (ht : Delimits tail) (e : Nat) (c : Cursor) :
    collectExponent (c.within before tail).rest e (c.within before tail) =
      ((collectExponent c.rest e c).1, (collectExponent c.rest e c).2.within before tail) := by
  obtain ⟨rest, offset⟩ := c
  simp only [within]
  induction rest generalizing e offset with
  | nil =>
    cases tail with
    | nil => rfl
    | cons x tail => simp [collectExponent, isDigit_of_delimits ht x rfl]
  | cons d ds ih =>
    simp only [List.cons_append, collectExponent]
    split
    case isTrue =>
      split
      case isTrue =>
        simp only [next]
        rw [← ih, Nat.add_right_comm]
      case isFalse => simp [next, Nat.add_right_comm]
    case isFalse => rfl

/-- Every success of the one result is one of the other, in the longer text. -/
def Kept (before : Nat) (tail : List Char) (result result' : Except Fault (α × Cursor)) : Prop :=
  ∀ x c, result = .ok (x, c) → result' = .ok (x, c.within before tail)

theorem kept_error (f : Fault) (result' : Except Fault (α × Cursor)) :
    Kept before tail (.error f) result' :=
  nofun

theorem kept_ok (x : α) (c : Cursor) :
    Kept before tail (.ok (x, c)) (.ok (x, c.within before tail)) := by
  rintro _ _ ⟨⟩
  rfl

theorem Kept.bind {β : Type} {result result' : Except Fault (α × Cursor)}
    {f f' : α × Cursor → Except Fault (β × Cursor)} (h : Kept before tail result result')
    (hf : ∀ x c, Kept before tail (f (x, c)) (f' (x, c.within before tail))) :
    Kept before tail (result >>= f) (result' >>= f') := by
  intro y c' hy
  obtain ⟨⟨x, c⟩, hx, hy⟩ := bind_eq_ok_iff.1 hy
  exact bind_eq_ok_iff.2 ⟨_, h x c hx, hf x c y c' hy⟩

theorem kept_finishFloat (sign : Bool) (coefficient : Nat) (exponent : Int) (c : Cursor) :
    Kept before tail (finishFloat sign coefficient exponent c)
      (finishFloat sign coefficient exponent (c.within before tail)) := by
  unfold finishFloat
  split
  case h_1 => exact kept_ok _ c
  case h_2 => exact kept_error _ _

def exponentDigits (sign : Bool) (coefficient : Nat) (exponent : Int) (down : Bool) (c : Cursor) :
    Except Fault (JsonNumber × Cursor) :=
  match c.rest with
  | [] => c.fail .endInValue
  | d :: _ =>
    if d.isDigit then
      match collectExponent c.rest 0 c with
      | (some e, c) =>
        finishFloat sign coefficient (clampExponent (if down then exponent - e else exponent + e)) c
      | (none, c) =>
        if coefficient ≠ 0 ∧ !down then c.fail .numberOutOfRange
        else .ok (.float sign .zero, (dropDigits c).2)
    else c.failNext .invalidNumber

theorem readExponentPart_eq (sign : Bool) (coefficient : Nat) (exponent : Int) (c : Cursor) :
    readExponentPart sign coefficient exponent c =
      if c.rest.head? = some '-' then exponentDigits sign coefficient exponent true c.next
      else if c.rest.head? = some '+' then exponentDigits sign coefficient exponent false c.next
      else exponentDigits sign coefficient exponent false c := by
  obtain ⟨rest, offset⟩ := c
  cases rest with
  | nil => rfl
  | cons d ds =>
    by_cases hminus : d = '-'
    · subst hminus
      rfl
    · by_cases hplus : d = '+'
      · subst hplus
        rfl
      · rw [if_neg (by simpa using hminus), if_neg (by simpa using hplus)]
        unfold readExponentPart
        split
        rename_i down c hsigned
        have hplain : (false, (⟨d :: ds, offset⟩ : Cursor)) = (down, c) := by
          rw [← hsigned]
          simp [hminus, hplus]
        cases hplain
        rfl

theorem kept_exponentDigits (ht : Delimits tail) (sign : Bool) (coefficient : Nat) (exponent : Int)
    (down : Bool) (c : Cursor) :
    Kept before tail (exponentDigits sign coefficient exponent down c)
      (exponentDigits sign coefficient exponent down (c.within before tail)) := by
  have hcollect := collectExponent_within before ht 0 c
  cases hrest : c.rest with
  | nil =>
    simp only [exponentDigits, hrest]
    exact kept_error _ _
  | cons d ds =>
    have hrest' := rest_within before tail hrest
    rw [hrest, hrest'] at hcollect
    simp only [exponentDigits, hrest, hrest', hcollect]
    split
    case isTrue =>
      rcases collectExponent (d :: ds) 0 c with ⟨_ | e, c'⟩
      · simp only
        split
        case isTrue => exact kept_error _ _
        case isFalse =>
          rw [dropDigits_within ht]
          exact kept_ok _ _
      · exact kept_finishFloat _ _ _ c'
    case isFalse => exact kept_error _ _

theorem kept_readExponentPart (ht : Delimits tail) (sign : Bool) (coefficient : Nat)
    (exponent : Int) (c : Cursor) :
    Kept before tail (readExponentPart sign coefficient exponent c)
      (readExponentPart sign coefficient exponent (c.within before tail)) := by
  rw [readExponentPart_eq, readExponentPart_eq]
  simp only [head?_within ht c (x := '-') (by decide), head?_within ht c (x := '+') (by decide)]
  split
  case isTrue h =>
    rw [next_within (ne_nil_of_head? h)]
    exact kept_exponentDigits ht sign coefficient exponent true c.next
  case isFalse =>
    split
    case isTrue h =>
      rw [next_within (ne_nil_of_head? h)]
      exact kept_exponentDigits ht sign coefficient exponent false c.next
    case isFalse => exact kept_exponentDigits ht sign coefficient exponent false c

theorem readScale_eq (sign : Bool) (coefficient : Nat) (exponent : Int) (c : Cursor) :
    readScale sign coefficient exponent c =
      if c.rest.head? = some 'e' ∨ c.rest.head? = some 'E' then
        readExponentPart sign coefficient exponent c.next
      else finishFloat sign coefficient exponent c := by
  unfold readScale
  split
  case h_1 hrest => simp [hrest]
  case h_2 hrest => simp [hrest]
  case h_3 hlower hupper =>
    rw [if_neg (not_or.2 ⟨head?_ne hlower, head?_ne hupper⟩)]

theorem kept_readScale (ht : Delimits tail) (sign : Bool) (coefficient : Nat) (exponent : Int)
    (c : Cursor) :
    Kept before tail (readScale sign coefficient exponent c)
      (readScale sign coefficient exponent (c.within before tail)) := by
  rw [readScale_eq, readScale_eq]
  simp only [head?_within ht c (x := 'e') (by decide), head?_within ht c (x := 'E') (by decide)]
  split
  case isTrue h =>
    rw [next_within (h.elim ne_nil_of_head? ne_nil_of_head?)]
    exact kept_readExponentPart ht sign coefficient exponent c.next
  case isFalse => exact kept_finishFloat sign coefficient exponent c

theorem kept_readFraction (ht : Delimits tail) (sign : Bool) (coefficient : Nat) (exponent : Int)
    (c : Cursor) :
    Kept before tail (readFraction sign coefficient exponent c)
      (readFraction sign coefficient exponent (c.within before tail)) := by
  simp only [readFraction, collect_within ht]
  obtain ⟨coefficient, count, c⟩ := collect c.rest coefficient 0 c
  simp only [atDigit_within ht, dropDigits_within ht]
  split
  case isTrue => exact kept_readScale ht _ _ _ _
  case isFalse =>
    split
    case isTrue => exact kept_error _ _
    case isFalse => exact kept_readScale ht _ _ _ c

theorem readTail_eq (sign : Bool) (coefficient : Nat) (c : Cursor) :
    readTail sign coefficient c =
      if c.rest.head? = some '.' then readFraction sign coefficient 0 c.next
      else if c.rest.head? = some 'e' ∨ c.rest.head? = some 'E' then
        readExponentPart sign coefficient 0 c.next
      else .ok (integer sign coefficient, c) := by
  unfold readTail
  split
  case h_1 hrest => simp [hrest]
  case h_2 hrest => simp [hrest]
  case h_3 hrest => simp [hrest]
  case h_4 hpoint hlower hupper =>
    rw [if_neg (head?_ne hpoint), if_neg (not_or.2 ⟨head?_ne hlower, head?_ne hupper⟩)]

theorem kept_readTail (ht : Delimits tail) (sign : Bool) (coefficient : Nat) (c : Cursor) :
    Kept before tail (readTail sign coefficient c)
      (readTail sign coefficient (c.within before tail)) := by
  rw [readTail_eq, readTail_eq]
  simp only [head?_within ht c (x := '.') (by decide), head?_within ht c (x := 'e') (by decide),
    head?_within ht c (x := 'E') (by decide)]
  split
  case isTrue h =>
    rw [next_within (ne_nil_of_head? h)]
    exact kept_readFraction ht sign coefficient 0 c.next
  case isFalse =>
    split
    case isTrue h =>
      rw [next_within (h.elim ne_nil_of_head? ne_nil_of_head?)]
      exact kept_readExponentPart ht sign coefficient 0 c.next
    case isFalse => exact kept_ok _ c

theorem readLongTail_eq (sign : Bool) (coefficient : Nat) (c : Cursor) :
    readLongTail sign coefficient c =
      if (dropDigits c).2.rest.head? = some '.' then
        readFraction sign coefficient (dropDigits c).1 (dropDigits c).2.next
      else readScale sign coefficient (dropDigits c).1 (dropDigits c).2 := by
  unfold readLongTail
  simp only
  split
  case h_1 hrest => simp [hrest]
  case h_2 hpoint => rw [if_neg (head?_ne hpoint)]

theorem kept_readLongTail (ht : Delimits tail) (sign : Bool) (coefficient : Nat) (c : Cursor) :
    Kept before tail (readLongTail sign coefficient c)
      (readLongTail sign coefficient (c.within before tail)) := by
  rw [readLongTail_eq, readLongTail_eq]
  simp only [dropDigits_within ht, head?_within ht _ (x := '.') (by decide)]
  split
  case isTrue h =>
    rw [next_within (ne_nil_of_head? h)]
    exact kept_readFraction ht sign coefficient _ _
  case isFalse => exact kept_readScale ht sign coefficient _ _

theorem readNumber_eq (sign : Bool) (c : Cursor) (h : c.rest ≠ []) :
    readNumber sign c =
      if c.rest.head? = some '0' then
        if atDigit c.next then c.next.failAhead .invalidNumber else readTail sign 0 c.next
      else if atDigit c then
        if atDigit (collect c.rest 0 0 c).2.2 then
          readLongTail sign (collect c.rest 0 0 c).1 (collect c.rest 0 0 c).2.2
        else readTail sign (collect c.rest 0 0 c).1 (collect c.rest 0 0 c).2.2
      else c.failNext .invalidNumber := by
  unfold readNumber
  split
  case h_1 hrest => exact absurd hrest h
  case h_2 hrest => simp [hrest]
  case h_3 d ds hzero hrest =>
    have hhead : c.rest.head? ≠ some '0' := by
      rw [hrest]
      exact fun h => hzero (Option.some.inj h)
    rw [if_neg hhead]
    simp [atDigit, hrest]

theorem kept_readNumber (ht : Delimits tail) (sign : Bool) (c : Cursor) :
    Kept before tail (readNumber sign c) (readNumber sign (c.within before tail)) := by
  by_cases h : c.rest = []
  · simp only [readNumber, h]
    exact kept_error _ _
  · have h' : (c.within before tail).rest ≠ [] := by simp [within, h]
    rw [readNumber_eq sign c h, readNumber_eq sign _ h']
    simp only [head?_within ht c (x := '0') (by decide), next_within h, atDigit_within ht,
      collect_within ht]
    split
    case isTrue =>
      split
      case isTrue => exact kept_error _ _
      case isFalse => exact kept_readTail ht sign 0 c.next
    case isFalse =>
      split
      case isTrue =>
        split
        case isTrue => exact kept_readLongTail ht sign _ _
        case isFalse => exact kept_readTail ht sign _ _
      case isFalse => exact kept_error _ _

end Json

end UriExpansion
