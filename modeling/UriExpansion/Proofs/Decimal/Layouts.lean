import Mathlib.Data.List.DropRight
import Mathlib.Tactic.IntervalCases
import UriExpansion.Params
import UriExpansion.Proofs.Decimal.Value

/-!
# Texts of decimals

The text of a decimal depends on its value only. Two layouts write a number alike when both are
positional and there is a fraction: then no mark of a whole number is written, and nothing but the
digits before and behind the point.
-/

namespace UriExpansion

namespace NumberLayout

open Decimal

variable {l : NumberLayout} {d d' : Decimal}

theorem significant_shift {m : Nat} (hm : 0 < m) (k : Nat) (e e' : Int) :
    significant ⟨m * 10 ^ k, e⟩ = significant ⟨m, e'⟩ := by
  have hzeros : ∀ cs, (zeros k ++ cs).dropWhile (· = '0') = cs.dropWhile (· = '0') := fun cs =>
    List.dropWhile_append_of_pos fun c hc => by simp [List.eq_of_mem_replicate hc]
  rw [significant, significant, decimalDigits_mul_pow_ten hm, List.reverse_append, zeros,
    List.reverse_replicate, ← zeros, hzeros]

theorem decimalText_of_ne_zero (h : d.coefficient ≠ 0) :
    l.decimalText d =
      match l.positional with
      | none => l.positionalText (significant d) d.position
      | some (low, high) =>
        if low ≤ d.position ∧ d.position ≤ high then l.positionalText (significant d) d.position
        else exponentText (significant d) d.position := by
  rw [decimalText, if_neg h]
  rfl

theorem decimalText_shift {m : Nat} (hm : 0 < m) (k : Nat) (e : Int) :
    l.decimalText ⟨m * 10 ^ k, e⟩ = l.decimalText ⟨m, e + k⟩ := by
  have hpos : m * 10 ^ k ≠ 0 := by positivity
  have hposition : position ⟨m * 10 ^ k, e⟩ = position ⟨m, e + k⟩ := by
    simp only [position, decimalDigits_mul_pow_ten hm, zeros, List.length_append,
      List.length_replicate]
    omega
  rw [decimalText_of_ne_zero hpos, decimalText_of_ne_zero (d := ⟨m, e + k⟩) hm.ne', hposition,
    significant_shift hm k e (e + k)]

theorem decimalText_congr (l : NumberLayout) (h : d.value = d'.value) :
    l.decimalText d = l.decimalText d' := by
  wlog hle : d.exponent ≤ d'.exponent generalizing d d'
  · exact (this h.symm (by omega)).symm
  have hcoefficient := coefficient_eq_of_value_eq h hle
  rcases Nat.eq_zero_or_pos d'.coefficient with hzero | hpos
  · have hzero' : d.coefficient = 0 := by rw [hcoefficient, hzero, Nat.zero_mul]
    rw [decimalText, decimalText, if_pos hzero, if_pos hzero']
  · have hexponent : d.exponent + ((d'.exponent - d.exponent).toNat : Int) = d'.exponent := by omega
    have hshift := decimalText_shift (l := l) hpos (d'.exponent - d.exponent).toNat d.exponent
    rwa [← hcoefficient, hexponent] at hshift

theorem significant_of_isReduced (h : d.IsReduced) :
    significant d = decimalDigits d.coefficient := by
  refine List.rdropWhile_eq_self_iff.2 fun hne hlast => ?_
  have hdigit : Nat.digitChar (d.coefficient % 10) = '0' := by
    have hsome := getLast?_decimalDigits d.coefficient
    rw [List.getLast?_eq_some_getLast hne, Option.some.injEq] at hsome
    rw [← hsome]
    exact of_decide_eq_true hlast
  have hzero : d.coefficient % 10 ≠ 0 := fun hmod => h (Nat.dvd_of_mod_eq_zero hmod)
  have hlt := Nat.mod_lt d.coefficient (show 10 > 0 by decide)
  interval_cases d.coefficient % 10 <;> simp at hzero hdigit

def Positional (l : NumberLayout) (v : ℚ) : Prop :=
  ∀ low high, l.positional = some (low, high) → 10 ^ (low - 1) ≤ v ∧ v < 10 ^ high

theorem plain_positional (v : ℚ) : plain.Positional v := nofun

theorem json_positional_iff {v : ℚ} : json.Positional v ↔ 1 / 10 ^ 5 ≤ v ∧ v < 10 ^ 16 := by
  have hlow : (10 : ℚ) ^ (-4 - 1 : Int) = 1 / 10 ^ 5 := by norm_num
  have hhigh : (10 : ℚ) ^ (16 : Int) = 10 ^ 16 := by norm_num
  rw [← hlow, ← hhigh]
  constructor
  · exact fun h => h _ _ rfl
  · rintro h _ _ ⟨⟩
    exact h

theorem decimalText_of_positional (h : d.coefficient ≠ 0) (hl : l.Positional d.value) :
    l.decimalText d = l.positionalText (significant d) d.position := by
  rw [decimalText_of_ne_zero h]
  rcases hrange : l.positional with _ | ⟨low, high⟩
  · rfl
  · obtain ⟨hlow, hhigh⟩ := hl low high hrange
    have hlow' := (lt_position_iff h (low - 1)).2 hlow
    exact if_pos ⟨by omega, (position_le_iff h high).2 hhigh⟩

theorem decimalText_of_not_positional (h : d.coefficient ≠ 0) (hl : ¬l.Positional d.value) :
    l.decimalText d = exponentText (significant d) d.position := by
  rw [decimalText_of_ne_zero h]
  rcases hrange : l.positional with _ | ⟨low, high⟩
  · exact absurd (fun _ _ h => nomatch hrange.symm.trans h) hl
  · refine if_neg fun hin => hl fun _ _ h' => ?_
    cases hrange.symm.trans h'
    exact ⟨(lt_position_iff h (low - 1)).1 (by omega), (position_le_iff h high).1 hin.2⟩

theorem positionalText_of_natural {m : Nat} (l : NumberLayout) (k : Nat) (hm : ¬10 ∣ m) :
    l.positionalText (significant ⟨m, k⟩) (position ⟨m, k⟩) =
      natText (m * 10 ^ k) ++ l.wholeMark := by
  have hpos : 0 < m := Nat.pos_of_ne_zero fun hzero => hm (hzero ▸ dvd_zero 10)
  have hlength := List.length_pos_of_ne_nil (decimalDigits_ne_nil m)
  have hsignificant : significant ⟨m, k⟩ = decimalDigits m := significant_of_isReduced hm
  have hcount : (position ⟨m, k⟩).toNat - (decimalDigits m).length = k := by
    simp only [position]
    omega
  rw [positionalText, if_neg (by simp only [position]; omega), hsignificant,
    if_pos (by simp only [position]; omega), hcount, natText, decimalDigits_mul_pow_ten hpos]

theorem decimalText_of_natural {n : ℕ} (h : d.value = n) (hl : n ≠ 0 → l.Positional n) :
    l.decimalText d = natText n ++ l.wholeMark := by
  by_cases hzero : n = 0
  · subst hzero
    rw [Nat.cast_zero, value_eq_zero_iff] at h
    rw [decimalText, if_pos h]
    rfl
  · obtain ⟨k, m, hm, rfl⟩ := Nat.exists_eq_pow_mul_and_not_dvd hzero 10 (by decide)
    have hvalue : d.value = value ⟨m, k⟩ := by
      rw [h, value, zpow_natCast]
      push_cast
      ring
    have hm' : m ≠ 0 := fun hmzero => hm (hmzero ▸ dvd_zero 10)
    rw [decimalText_congr l hvalue, decimalText_of_positional hm' (hvalue ▸ h ▸ hl hzero),
      positionalText_of_natural l k hm, Nat.mul_comm m]

structure Splits (v : ℚ) (whole fraction : List Char) : Prop where
  isDigit : ∀ c ∈ whole ++ fraction, c.isDigit
  value : (Nat.ofDigitChars 10 (whole ++ fraction) 0 : ℚ) = v * 10 ^ fraction.length

theorem splits_of_digits {whole fraction : List Char}
    (hdigit : ∀ c ∈ whole ++ fraction, c.isDigit)
    (hcoefficient : Nat.ofDigitChars 10 (whole ++ fraction) 0 = d.coefficient)
    (hlength : (fraction.length : Int) = -d.exponent) : Splits d.value whole fraction where
  isDigit := hdigit
  value := by rw [hcoefficient, value_mul_pow hlength]

theorem exists_positionalText_of_isReduced (h : d.IsReduced) (hneg : d.exponent < 0) :
    ∃ whole fraction, Splits d.value whole fraction ∧
      ∀ l : NumberLayout, l.positionalText (significant d) d.position =
        String.ofList (whole ++ '.' :: fraction) := by
  have hdigits := ofDigitChars_decimalDigits d.coefficient
  have hdigit : ∀ c ∈ decimalDigits d.coefficient, c.isDigit := fun _ hc =>
    isDigit_of_mem_decimalDigits hc
  rw [significant_of_isReduced h]
  by_cases hposition : d.position ≤ 0
  · refine ⟨['0'], zeros (-d.position).toNat ++ decimalDigits d.coefficient,
      splits_of_digits ?_ ?_ ?_, fun l => ?_⟩
    · simp only [zeros, List.forall_mem_append, List.mem_singleton, forall_eq]
      exact ⟨rfl, fun c hc => List.eq_of_mem_replicate hc ▸ rfl, hdigit⟩
    · rw [List.singleton_append, Nat.ofDigitChars_cons, Nat.ofDigitChars_append, zeros,
        Nat.ofDigitChars_replicate_zero]
      exact hdigits
    · simp only [zeros, List.length_append, List.length_replicate, position] at hposition ⊢
      omega
    · rw [positionalText, if_pos hposition]
      rfl
  · have happend := List.take_append_drop d.position.toNat (decimalDigits d.coefficient)
    refine ⟨(decimalDigits d.coefficient).take d.position.toNat,
      (decimalDigits d.coefficient).drop d.position.toNat,
      splits_of_digits (by rwa [happend]) (by rw [happend, hdigits]) ?_, fun l => ?_⟩
    · simp only [List.length_drop, position] at hposition ⊢
      omega
    · -- the point stands inside of the digits, the exponent being negative
      have hinside : ¬((decimalDigits d.coefficient).length : Int) ≤ d.position := by
        rw [position]
        omega
      rw [positionalText, if_neg hposition, if_neg hinside]

theorem exists_decimalText_of_fraction (h : ∀ n : ℕ, d.value ≠ n) :
    ∃ whole fraction, Splits d.value whole fraction ∧
      ∀ l : NumberLayout, l.Positional d.value →
        l.decimalText d = String.ofList (whole ++ '.' :: fraction) := by
  have hzero : d.coefficient ≠ 0 := fun hzero => h 0 (value_eq_zero_iff.2 hzero)
  obtain ⟨r, hr, hvalue⟩ := exists_isReduced hzero
  have hneg : r.exponent < 0 := by
    by_contra hpos
    obtain ⟨n, hn⟩ := hr.value_eq_natural_iff.2 (not_lt.1 hpos)
    exact h n (hvalue ▸ hn)
  obtain ⟨whole, fraction, hsplits, htext⟩ := exists_positionalText_of_isReduced hr hneg
  refine ⟨whole, fraction, hvalue ▸ hsplits, fun l hl => ?_⟩
  have hl' : l.Positional r.value := hvalue ▸ hl
  rw [decimalText_congr l hvalue.symm, decimalText_of_positional hr.coefficient_ne_zero hl', htext]

theorem Splits.point_not_mem {v : ℚ} {whole fraction : List Char} (h : Splits v whole fraction) :
    '.' ∉ whole := fun hmem =>
  absurd (h.isDigit '.' (List.mem_append_left _ hmem)) (by decide)

theorem Splits.point_not_mem_fraction {v : ℚ} {whole fraction : List Char}
    (h : Splits v whole fraction) : '.' ∉ fraction := fun hmem =>
  absurd (h.isDigit '.' (List.mem_append_right _ hmem)) (by decide)

theorem ne_point_of_not_mem {cs : List Char} (h : '.' ∉ cs) :
    ∀ c ∈ cs, decide (c ≠ '.') = true := fun _ hc =>
  decide_eq_true fun hpoint => h (hpoint ▸ hc)

theorem point_not_mem_decimalDigits (n : ℕ) : '.' ∉ decimalDigits n := fun hmem =>
  absurd (isDigit_of_mem_decimalDigits hmem) (by decide)

theorem plain_decimalText_of_natural {n : ℕ} (h : d.value = n) :
    (plain.decimalText d).toList = decimalDigits n := by
  rw [decimalText_of_natural h fun _ => plain_positional _, String.toList_append, natText,
    String.toList_ofList]
  exact List.append_nil _

theorem plain_decimalText_cases (d : Decimal) :
    (∃ n : ℕ, d.value = n ∧ (plain.decimalText d).toList = decimalDigits n) ∨
    ∃ whole fraction, Splits d.value whole fraction ∧
      (plain.decimalText d).toList = whole ++ '.' :: fraction := by
  by_cases hwhole : ∃ n : ℕ, d.value = n
  · obtain ⟨n, hn⟩ := hwhole
    exact .inl ⟨n, hn, plain_decimalText_of_natural hn⟩
  · obtain ⟨whole, fraction, hsplits, htext⟩ := exists_decimalText_of_fraction (not_exists.1 hwhole)
    refine .inr ⟨whole, fraction, hsplits, ?_⟩
    rw [htext plain (plain_positional _), String.toList_ofList]

theorem mem_plain_decimalText {c : Char} (h : c ∈ (plain.decimalText d).toList) :
    c.isDigit ∨ c = '.' := by
  rcases plain_decimalText_cases d with ⟨n, -, htext⟩ | ⟨whole, fraction, hsplits, htext⟩
  · exact .inl (isDigit_of_mem_decimalDigits (htext ▸ h))
  · rw [htext, List.mem_append, List.mem_cons] at h
    rcases h with hc | rfl | hc
    · exact .inl (hsplits.isDigit c (List.mem_append_left _ hc))
    · exact .inr rfl
    · exact .inl (hsplits.isDigit c (List.mem_append_right _ hc))

def denoted (cs : List Char) : ℚ :=
  Nat.ofDigitChars 10 (cs.filter (· ≠ '.')) 0 / 10 ^ (cs.dropWhile (· ≠ '.')).tail.length

theorem denoted_decimalDigits (n : ℕ) : denoted (decimalDigits n) = n := by
  have hpoint := ne_point_of_not_mem (point_not_mem_decimalDigits n)
  rw [denoted, List.filter_eq_self.2 hpoint, List.dropWhile_eq_nil_iff.2 hpoint,
    ofDigitChars_decimalDigits]
  simp

theorem denoted_split {whole fraction : List Char} (hwhole : '.' ∉ whole)
    (hfraction : '.' ∉ fraction) : denoted (whole ++ '.' :: fraction) =
      Nat.ofDigitChars 10 (whole ++ fraction) 0 / 10 ^ fraction.length := by
  have hwhole' := ne_point_of_not_mem hwhole
  rw [denoted, List.dropWhile_append_of_pos hwhole', List.filter_append,
    List.filter_eq_self.2 hwhole', List.filter_cons_of_neg (by simp),
    List.filter_eq_self.2 (ne_point_of_not_mem hfraction), List.dropWhile_cons_of_neg (by simp),
    List.tail_cons]

theorem denoted_plain_decimalText (d : Decimal) :
    denoted (plain.decimalText d).toList = d.value := by
  rcases plain_decimalText_cases d with ⟨n, hn, htext⟩ | ⟨whole, fraction, hsplits, htext⟩
  · rw [htext, denoted_decimalDigits, hn]
  · rw [htext, denoted_split hsplits.point_not_mem hsplits.point_not_mem_fraction, hsplits.value]
    simp

theorem plain_decimalText_eq_iff :
    plain.decimalText d = plain.decimalText d' ↔ d.value = d'.value := by
  refine ⟨fun h => ?_, decimalText_congr plain⟩
  rw [← denoted_plain_decimalText, h, denoted_plain_decimalText]

theorem plain_decimalText_ne_marked (d : Decimal) (n : ℕ) :
    plain.decimalText d ≠ natText n ++ ".0" := by
  intro h
  have hmarked : (plain.decimalText d).toList = decimalDigits n ++ '.' :: ['0'] := by
    rw [h, String.toList_append, natText, String.toList_ofList]
    rfl
  have hdigits : Nat.ofDigitChars 10 (decimalDigits n ++ ['0']) 0 = 10 * n := by
    rw [Nat.ofDigitChars_append, ofDigitChars_decimalDigits]
    rfl
  have hvalue : d.value = n := by
    rw [← denoted_plain_decimalText, hmarked,
      denoted_split (point_not_mem_decimalDigits n) (by decide), hdigits]
    simp
  rw [plain_decimalText_of_natural hvalue] at hmarked
  simp at hmarked

theorem exponent_mark_mem (h : d.coefficient ≠ 0) (hl : ¬l.Positional d.value) :
    'e' ∈ (l.decimalText d).toList := by
  rw [decimalText_of_not_positional h hl]
  simp [exponentText]

theorem decimalText_eq_plain_of_fraction (h : ∀ n : ℕ, d.value ≠ n) (hl : l.Positional d.value) :
    l.decimalText d = plain.decimalText d := by
  obtain ⟨whole, fraction, -, htext⟩ := exists_decimalText_of_fraction h
  rw [htext l hl, htext plain (plain_positional _)]

theorem json_decimalText_eq_plain_iff : json.decimalText d = plain.decimalText d' ↔
    d.value = d'.value ∧ (∀ n : ℕ, d.value ≠ n) ∧ 1 / 10 ^ 5 ≤ d.value ∧ d.value < 10 ^ 16 := by
  rw [← json_positional_iff]
  constructor
  · intro h
    have hpositional : d.coefficient ≠ 0 → json.Positional d.value := by
      intro hne
      by_contra hl
      -- an exponent is marked by a letter, which no plain text holds
      rcases mem_plain_decimalText (h ▸ exponent_mark_mem hne hl) with hdigit | hpoint
      · exact absurd hdigit (by decide)
      · exact absurd hpoint (by decide)
    have hfraction : ∀ n : ℕ, d.value ≠ n := by
      intro n hn
      have hmarked : json.decimalText d = natText n ++ ".0" := by
        refine decimalText_of_natural hn fun hne => hn ▸ hpositional fun hzero => hne ?_
        rw [value_eq_zero_iff.2 hzero] at hn
        exact_mod_cast hn.symm
      exact plain_decimalText_ne_marked d' n (h.symm.trans hmarked)
    have hjson := hpositional fun hzero => hfraction 0 (value_eq_zero_iff.2 hzero)
    refine ⟨plain_decimalText_eq_iff.1 ?_, hfraction, hjson⟩
    rw [← decimalText_eq_plain_of_fraction hfraction hjson, h]
  · intro ⟨hvalue, hfraction, hjson⟩
    rw [decimalText_eq_plain_of_fraction hfraction hjson, plain_decimalText_eq_iff, hvalue]

end NumberLayout

end UriExpansion
