import Mathlib.Data.String.Basic
import UriExpansion.Json.Reading
import UriExpansion.Proofs.Json.Within.Number

/-!
# Scalars inside of longer texts

A word or a string shows itself where it ends, so what stands around it does not matter. With
numbers, which a separator has to follow, this makes every scalar.
-/

namespace UriExpansion

namespace Json

variable {before : Nat} {tail : List Char}

open Cursor

theorem utf8Size_of_hexValue? {c : Char} {n : Nat} (h : hexValue? c = some n) :
    c.utf8Size = 1 := by
  rw [Char.utf8Size_eq_one_iff]
  have hbound : ∀ last : Char, last.val ≤ 127 → c ≤ last → c.val ≤ 127 := fun last hlast hc =>
    UInt32.le_trans hc hlast
  unfold hexValue? at h
  split at h
  case isTrue hdigit => exact hbound '9' (by decide) hdigit.2
  case isFalse =>
    split at h
    case isTrue hlower => exact hbound 'f' (by decide) hlower.2
    case isFalse =>
      split at h
      case isTrue hupper => exact hbound 'F' (by decide) hupper.2
      case isFalse => cases h

theorem utf8Len_of_natOfBase? {base n : Nat} {digits : List Char}
    (h : natOfBase? base digits = some n) : String.utf8Len digits = digits.length := by
  unfold natOfBase? at h
  split at h
  case isTrue => cases h
  case isFalse hne =>
    clear hne
    generalize 0 = start at h
    induction digits generalizing start with
    | nil => rfl
    | cons c cs ih =>
      rw [List.foldlM_cons, Option.bind_eq_bind, Option.bind_eq_some_iff] at h
      obtain ⟨value, hvalue, hrest⟩ := h
      obtain ⟨d, hd, -⟩ := Option.bind_eq_some_iff.1 hvalue
      rw [String.utf8Len_cons, List.length_cons, utf8Size_of_hexValue? hd, ih value hrest]

theorem kept_readHex (c : Cursor) :
    Kept before tail (readHex c) (readHex (c.within before tail)) := by
  intro n c' h
  unfold readHex at h
  split at h
  case isTrue => cases h
  case isFalse hlong =>
    split at h
    case h_2 => cases h
    case h_1 m hm =>
      cases h
      have hlength : 4 ≤ c.rest.length := by
        rw [String.utf8ByteSize_ofList, utf8Len_of_natOfBase? hm, List.length_take] at hlong
        omega
      have htake : (c.within before tail).rest.take 4 = c.rest.take 4 :=
        List.take_append_of_le_length hlength
      have hdrop : (c.within before tail).rest.drop 4 = c.rest.drop 4 ++ tail :=
        List.drop_append_of_le_length hlength
      rw [readHex, htake, if_neg hlong, hm, hdrop]
      simp [within, Nat.add_right_comm]

theorem readMark_within {mark : Char} {c c' : Cursor} (h : readMark mark c = .ok c') :
    readMark mark (c.within before tail) = .ok (c'.within before tail) := by
  unfold readMark at h
  split at h
  case h_1 => cases h
  case h_2 x rest hrest =>
    have hrest' := rest_within before tail hrest
    split at h
    case isTrue hx =>
      cases h
      rw [readMark, hrest']
      simp only
      rw [if_pos hx, next_within (by simp [hrest])]
    case isFalse => cases h

theorem kept_readCodePoint (c : Cursor) :
    Kept before tail (readCodePoint c) (readCodePoint (c.within before tail)) := by
  intro x c' h
  obtain ⟨⟨n, c₁⟩, hn, h⟩ := bind_eq_ok_iff.1 h
  refine bind_eq_ok_iff.2 ⟨_, kept_readHex c n c₁ hn, ?_⟩
  simp only at h ⊢
  split at h
  case isTrue => cases h
  case isFalse htrail =>
    rw [if_neg htrail]
    split at h
    case isTrue hlead =>
      rw [if_pos hlead]
      obtain ⟨c₂, hc₂, h⟩ := bind_eq_ok_iff.1 h
      obtain ⟨c₃, hc₃, h⟩ := bind_eq_ok_iff.1 h
      obtain ⟨⟨m, c₄⟩, hm, h⟩ := bind_eq_ok_iff.1 h
      refine bind_eq_ok_iff.2 ⟨_, readMark_within hc₂, ?_⟩
      refine bind_eq_ok_iff.2 ⟨_, readMark_within hc₃, ?_⟩
      refine bind_eq_ok_iff.2 ⟨_, kept_readHex c₃ m c₄ hm, ?_⟩
      simp only at h ⊢
      split at h
      case isTrue hpair =>
        rw [if_pos hpair]
        simp only [Except.ok.injEq, Prod.mk.injEq] at h ⊢
        exact ⟨h.1, by rw [h.2]⟩
      case isFalse => cases h
    case isFalse hlead =>
      cases h
      rw [if_neg hlead]

theorem kept_readEscape (c : Cursor) :
    Kept before tail (readEscape c) (readEscape (c.within before tail)) := by
  cases hrest : c.rest with
  | nil =>
    simp only [readEscape, hrest]
    exact kept_error _ _
  | cons x rest =>
    have hrest' := rest_within before tail hrest
    have hnext : (c.within before tail).next = c.next.within before tail :=
      next_within (by simp [hrest])
    simp only [readEscape, hrest, hrest', hnext]
    split
    case h_9 => exact kept_readCodePoint c.next
    case h_10 => exact kept_error _ _
    all_goals exact kept_ok _ _

theorem kept_readChars {fuel fuel' : Nat} (hfuel : fuel ≤ fuel') (read : String) (c : Cursor) :
    Kept before tail (readChars fuel read c) (readChars fuel' read (c.within before tail)) := by
  induction fuel generalizing fuel' read c with
  | zero => exact kept_error _ _
  | succ fuel ih =>
    obtain ⟨fuel', rfl⟩ : ∃ n, fuel' = n + 1 := ⟨fuel' - 1, by omega⟩
    have hle : fuel ≤ fuel' := by omega
    cases hrest : c.rest with
    | nil =>
      simp only [readChars, hrest]
      exact kept_error _ _
    | cons x rest =>
      have hrest' := rest_within before tail hrest
      have hnext : (c.within before tail).next = c.next.within before tail :=
        next_within (by simp [hrest])
      simp only [readChars, hrest, hrest', hnext]
      split
      case h_1 => exact kept_error _ _
      case h_2 hx =>
        cases hx
        exact kept_ok read c.next
      case h_3 hx =>
        cases hx
        exact (kept_readEscape c.next).bind fun y c₁ => ih hle (read.push y) c₁
      case h_4 hquote hescape hx =>
        cases hx
        split
        case isTrue => exact kept_error _ _
        case isFalse hblank =>
          split
          case h_1 heq => cases heq
          case h_2 heq =>
            cases heq
            exact absurd rfl hquote
          case h_3 heq =>
            cases heq
            exact absurd rfl hescape
          case h_4 heq =>
            cases heq
            rw [if_neg hblank]
            exact ih hle (read.push x) c.next

theorem kept_readString (c : Cursor) :
    Kept before tail (readString c) (readString (c.within before tail)) :=
  kept_readChars (by simp [within]) "" c

theorem readWord_within {word : List Char} {c c' : Cursor} (h : readWord word c = .ok c') :
    readWord word (c.within before tail) = .ok (c'.within before tail) := by
  induction word generalizing c with
  | nil =>
    cases h
    rfl
  | cons x xs ih =>
    unfold readWord at h
    split at h
    case h_1 => cases h
    case h_2 y rest hrest =>
      have hrest' := rest_within before tail hrest
      split at h
      case isTrue hy =>
        simp only [readWord, hrest']
        rw [if_pos hy, next_within (by simp [hrest])]
        exact ih h
      case isFalse => cases h

inductive IsWord : Char → List Char → Json → Prop
  | null : IsWord 'n' ['u', 'l', 'l'] .null
  | true : IsWord 't' ['r', 'u', 'e'] (.bool true)
  | false : IsWord 'f' ['a', 'l', 's', 'e'] (.bool false)

inductive ReadsScalar (c c' : Cursor) : Json → Prop
  | word {x : Char} {word : List Char} {j : Json} (hj : IsWord x word j)
      (hhead : c.rest.head? = some x) (hread : readWord word c.next = .ok c') : ReadsScalar c c' j
  | negative (n : JsonNumber) (hhead : c.rest.head? = some '-')
      (hread : readNumber true c.next = .ok (n, c')) : ReadsScalar c c' (.number n)
  | string (s : String) (hhead : c.rest.head? = some '"')
      (hread : readString c.next = .ok (s, c')) : ReadsScalar c c' (.string s)
  | number (n : JsonNumber) (hdigit : atDigit c) (hread : readNumber false c = .ok (n, c')) :
      ReadsScalar c c' (.number n)

theorem readsScalar_of_readScalar? {c c' : Cursor} {j : Json}
    (h : readScalar? c = some (.ok (j, c'))) : ReadsScalar c c' j := by
  unfold readScalar? at h
  split at h
  case h_1 hrest =>
    obtain ⟨_, hread, hj⟩ := bind_eq_ok_iff.1 (Option.some.inj h)
    cases hj
    exact .word .null (by rw [hrest, List.head?_cons]) hread
  case h_2 hrest =>
    obtain ⟨_, hread, hj⟩ := bind_eq_ok_iff.1 (Option.some.inj h)
    cases hj
    exact .word .true (by rw [hrest, List.head?_cons]) hread
  case h_3 hrest =>
    obtain ⟨_, hread, hj⟩ := bind_eq_ok_iff.1 (Option.some.inj h)
    cases hj
    exact .word .false (by rw [hrest, List.head?_cons]) hread
  case h_4 hrest =>
    obtain ⟨⟨n, _⟩, hread, hj⟩ := map_eq_ok_iff.1 (Option.some.inj h)
    cases hj
    exact .negative n (by rw [hrest, List.head?_cons]) hread
  case h_5 hrest =>
    obtain ⟨⟨s, _⟩, hread, hj⟩ := map_eq_ok_iff.1 (Option.some.inj h)
    cases hj
    exact .string s (by rw [hrest, List.head?_cons]) hread
  case h_6 hrest =>
    split at h
    case isTrue hdigit =>
      obtain ⟨⟨n, _⟩, hread, hj⟩ := map_eq_ok_iff.1 (Option.some.inj h)
      cases hj
      exact .number n (by simp [atDigit, hrest, hdigit]) hread
    case isFalse => cases h
  case h_7 => cases h

theorem readScalar?_of_isDigit {c : Cursor} (h : atDigit c) :
    readScalar? c = some ((readNumber false c).map fun (n, c) => (.number n, c)) := by
  obtain ⟨rest, offset⟩ := c
  cases rest with
  | nil => cases h
  | cons d ds =>
    have hdigit : d.isDigit := h
    -- no digit begins a word, a string or a sign
    have hne : ∀ x, x.isDigit = false → d ≠ x := by
      rintro x hx rfl
      rw [hdigit] at hx
      cases hx
    simp [readScalar?, hdigit, hne]

theorem readScalar?_eq_ok_iff {c c' : Cursor} {j : Json} :
    readScalar? c = some (.ok (j, c')) ↔ ReadsScalar c c' j := by
  refine ⟨readsScalar_of_readScalar?, fun h => ?_⟩
  cases h with
  | word hj hhead hread =>
    obtain ⟨rest, hrest⟩ := List.head?_eq_some_iff.1 hhead
    cases hj <;> simp [readScalar?, hrest, hread, bind, Except.bind]
  | negative n hhead hread | string s hhead hread =>
    obtain ⟨rest, hrest⟩ := List.head?_eq_some_iff.1 hhead
    simp [readScalar?, hrest, hread, Except.map]
  | number n hdigit hread =>
    rw [readScalar?_of_isDigit hdigit, hread]
    rfl

theorem ReadsScalar.within (before : Nat) (ht : Delimits tail) {c c' : Cursor} {j : Json}
    (h : ReadsScalar c c' j) : ReadsScalar (c.within before tail) (c'.within before tail) j := by
  cases h with
  | word hj hhead hread =>
    refine .word hj (head?_within_of_some hhead) ?_
    rw [next_within (ne_nil_of_head? hhead), readWord_within hread]
  | negative n hhead hread =>
    refine .negative n (head?_within_of_some hhead) ?_
    rw [next_within (ne_nil_of_head? hhead), kept_readNumber ht true c.next n c' hread]
  | string s hhead hread =>
    refine .string s (head?_within_of_some hhead) ?_
    rw [next_within (ne_nil_of_head? hhead), kept_readString c.next s c' hread]
  | number n hdigit hread =>
    exact .number n (by rwa [atDigit_within ht]) (kept_readNumber ht false c n c' hread)

theorem readScalar?_within (before : Nat) (ht : Delimits tail) {c c' : Cursor} {j : Json}
    (h : readScalar? c = some (.ok (j, c'))) :
    readScalar? (c.within before tail) = some (.ok (j, c'.within before tail)) :=
  readScalar?_eq_ok_iff.2 ((readScalar?_eq_ok_iff.1 h).within before ht)

end Json

end UriExpansion
