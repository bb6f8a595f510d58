import Mathlib.Data.String.Basic
import UriExpansion.ParamFile.Load

/-!
# Formats of paths

The format of a file is decided by the last piece of its path that names something: empty pieces and
dots are passed over, whatever their number. Such a name means JSON when it ends in `.json`, in
either case, and has something in front of that.
-/

namespace UriExpansion

theorem utf8Size_toLower (c : Char) : c.toLower.utf8Size = c.utf8Size := by
  unfold Char.toLower
  split
  case isTrue h =>
    have hlow : c.val.toNat ≤ 90 := UInt32.le_iff_toNat_le.1 h.2
    have hhigh : (c.val + ('a'.val - 'A'.val)).toNat ≤ 122 := by
      have hdiff : ('a'.val - 'A'.val).toNat = 32 := rfl
      rw [UInt32.toNat_add, hdiff]
      omega
    rw [Char.utf8Size, Char.utf8Size, if_pos, if_pos]
    · exact UInt32.le_iff_toNat_le.2 (Nat.le_trans hlow (by decide))
    · exact UInt32.le_iff_toNat_le.2 (Nat.le_trans hhigh (by decide))
  case isFalse => rfl

theorem utf8Len_map_toLower (cs : List Char) :
    String.utf8Len (cs.map Char.toLower) = String.utf8Len cs := by
  induction cs with
  | nil => rfl
  | cons c cs ih => 
    rw [List.map_cons, String.utf8Len_cons, String.utf8Len_cons, utf8Size_toLower, ih]

theorem toLower_eq_dot_iff {c : Char} : c.toLower = '.' ↔ c = '.' := by
  constructor
  · intro h
    unfold Char.toLower at h
    split at h
    case isTrue hupper =>
      -- a letter stays a letter
      have hval := congrArg (fun x : Char => x.val.toNat) h
      have hdiff : ('a'.val - 'A'.val).toNat = 32 := rfl
      have hlow : 65 ≤ c.val.toNat := UInt32.le_iff_toNat_le.1 hupper.1
      have hhigh : c.val.toNat ≤ 90 := UInt32.le_iff_toNat_le.1 hupper.2
      simp only [UInt32.toNat_add, hdiff] at hval
      have hdot : '.'.val.toNat = 46 := rfl
      omega
    case isFalse => exact h
  · rintro rfl
    rfl

namespace ParamPath

theorem takeWhile_ne_dot {cs : List Char} (h : '.' ∉ cs) (rest : List Char) :
    (cs ++ rest).takeWhile (· ≠ '.') = cs ++ rest.takeWhile (· ≠ '.') := by
  refine List.takeWhile_append_of_pos fun c hc => ?_
  rw [decide_eq_true_eq]
  rintro rfl
  exact h hc

theorem extension?_of_not_mem {name : List Char} (h : '.' ∉ name) : extension? name = none := by
  have htake : name.reverse.takeWhile (· ≠ '.') = name.reverse := by
    simpa using takeWhile_ne_dot (mt List.mem_reverse.1 h) []
  simp only [extension?, htake, List.reverse_reverse]
  rw [if_neg (by omega)]

theorem extension?_append {stem extension : List Char} (h : '.' ∉ extension) :
    extension? (stem ++ '.' :: extension) = if stem = [] then none else some extension := by
  have htake : (stem ++ '.' :: extension).reverse.takeWhile (· ≠ '.') = extension.reverse := by
    rw [List.reverse_append, List.reverse_cons, List.append_assoc,
      takeWhile_ne_dot (mt List.mem_reverse.1 h)]
    simp
  simp only [extension?, htake, List.reverse_reverse, List.length_append, List.length_cons]
  by_cases hstem : stem = []
  · rw [if_pos hstem, if_neg (by simp [hstem])]
  · have hpos := List.length_pos_iff.2 hstem
    rw [if_neg hstem, if_pos (by omega)]

theorem exists_last_dot {name : List Char} (h : '.' ∈ name) :
    ∃ stem extension, name = stem ++ '.' :: extension ∧ '.' ∉ extension := by
  obtain ⟨back, front, hname, hback⟩ := List.eq_append_cons_of_mem (List.mem_reverse.2 h)
  refine ⟨front.reverse, back.reverse, ?_, mt List.mem_reverse.1 hback⟩
  rw [← List.reverse_reverse name, hname]
  simp

theorem extension?_eq_some_iff {name extension : List Char} :
    extension? name = some extension ↔
      ∃ stem, stem ≠ [] ∧ name = stem ++ '.' :: extension ∧ '.' ∉ extension := by
  constructor
  · intro h
    by_cases hdot : '.' ∈ name
    · obtain ⟨stem, other, rfl, hother⟩ := exists_last_dot hdot
      rw [extension?_append hother] at h
      split at h
      case isTrue => cases h
      case isFalse hstem =>
        cases h
        exact ⟨stem, hstem, rfl, hother⟩
    · rw [extension?_of_not_mem hdot] at h
      cases h
  · rintro ⟨stem, hstem, rfl, hdot⟩
    rw [extension?_append hdot, if_neg hstem]

theorem extension?_isJson_iff {name : List Char} :
    (∃ extension, extension? name = some extension ∧
      extension.map Char.toLower = ['j', 's', 'o', 'n']) ↔
    6 ≤ String.utf8Len name ∧ ['.', 'j', 's', 'o', 'n'] <:+ name.map Char.toLower := by
  constructor
  · rintro ⟨extension, hext, hjson⟩
    obtain ⟨stem, hstem, rfl, -⟩ := extension?_eq_some_iff.1 hext
    have hlower : (stem ++ '.' :: extension).map Char.toLower =
        stem.map Char.toLower ++ ['.', 'j', 's', 'o', 'n'] := by
      rw [List.map_append, List.map_cons, hjson]
      rfl
    refine ⟨?_, hlower ▸ List.suffix_append _ _⟩
    have hpos := Nat.pos_of_ne_zero (String.utf8Len_eq_zero.not.2 hstem)
    have hbytes : String.utf8Len ['.', 'j', 's', 'o', 'n'] = 5 := by decide
    rw [← utf8Len_map_toLower, hlower, String.utf8Len_append, utf8Len_map_toLower, hbytes]
    omega
  · rintro ⟨hbytes, front, hfront⟩
    obtain ⟨stem, rest, rfl, rfl, hrest⟩ := List.map_eq_append_iff.1 hfront.symm
    obtain ⟨dot, extension, rfl, hdot, hjson⟩ := List.map_eq_cons_iff.1 hrest
    rw [toLower_eq_dot_iff] at hdot
    subst hdot
    refine ⟨extension, extension?_eq_some_iff.2 ⟨stem, ?_, rfl, ?_⟩, hjson⟩
    · rintro rfl
      rw [List.nil_append, ← utf8Len_map_toLower, hrest] at hbytes
      exact absurd hbytes (by decide)
    · intro hmem
      have hlower := List.mem_map_of_mem (f := Char.toLower) hmem
      rw [hjson] at hlower
      exact absurd hlower (by decide)

/-- A piece that names something, behind which nothing else does. -/
def LastNamed (path : String) (name : List Char) : Prop :=
  name ≠ [] ∧ name ≠ ['.'] ∧ ∃ before after, path.toList.splitOn '/' = before ++ name :: after ∧
    ∀ piece ∈ after, piece = [] ∨ piece = ['.']

def named (path : String) : List (List Char) :=
  (path.toList.splitOn '/').filter fun p => p ≠ [] ∧ p ≠ ['.']

theorem named_append_slash (front path : String) :
    named (front ++ "/" ++ path) = named front ++ named path := by
  have hslash : "/".toList = ['/'] := rfl
  simp only [named, String.toList_append, hslash, List.append_assoc, List.cons_append,
    List.nil_append, List.splitOn_eq_splitOnP]
  rw [List.splitOnP_append_cons _ _ (by decide), List.filter_append]

theorem getLast?_named_eq_some_iff {path : String} {name : List Char} :
    (named path).getLast? = some name ↔ LastNamed path name := by
  rw [named, List.getLast?_filter, List.find?_eq_some_iff_append]
  constructor
  · rintro ⟨hname, back, front, hpieces, hback⟩
    obtain ⟨hne, hdot⟩ := of_decide_eq_true hname
    refine ⟨hne, hdot, front.reverse, back.reverse, ?_, fun piece hpiece => ?_⟩
    · rw [← List.reverse_reverse (path.toList.splitOn '/'), hpieces]
      simp
    · have hnot := hback piece (List.mem_reverse.1 hpiece)
      by_contra hcontra
      rw [not_or] at hcontra
      simp [hcontra] at hnot
  · rintro ⟨hne, hdot, before, after, hpieces, hafter⟩
    refine ⟨by simp [hne, hdot], after.reverse, before.reverse, by simp [hpieces], ?_⟩
    intro piece hpiece
    rcases hafter piece (List.mem_reverse.1 hpiece) with rfl | rfl <;> rfl

theorem fileName?_eq_some_iff {path : String} {name : List Char} :
    fileName? path = some name ↔ LastNamed path name ∧ name ≠ ['.', '.'] := by
  rw [← getLast?_named_eq_some_iff]
  show (named path).getLast?.filter (· ≠ ['.', '.']) = some name ↔ _
  rw [Option.filter_eq_some_iff, decide_eq_true_eq]

theorem fileName?_congr {path path' : String}
    (h : (named path).getLast? = (named path').getLast?) : fileName? path = fileName? path' := by
  apply Option.ext
  intro name
  simp only [fileName?_eq_some_iff, ← getLast?_named_eq_some_iff, h]

end ParamPath

namespace ParamFormat

open ParamPath

theorem ofPath_eq_json_iff {path : String} : ofPath path = .json ↔
    ∃ name, fileName? path = some name ∧ ∃ extension, extension? name = some extension ∧
      extension.map Char.toLower = ['j', 's', 'o', 'n'] := by
  unfold ofPath
  cases hname : fileName? path with
  | none => simp
  | some name =>
    cases hext : extension? name with
    | none => simp [hext]
    | some extension => by_cases hjson : extension.map Char.toLower = ['j', 's', 'o', 'n'] <;>
        simp [hext, hjson]

theorem ofPath_congr {path path' : String}
    (h : (named path).getLast? = (named path').getLast?) : ofPath path = ofPath path' := by
  rw [ofPath, ofPath, fileName?_congr h]

/-- A path means JSON exactly when its last piece that names something ends in `.json`, up to case,
and is longer than that. So slashes and dots behind a path change nothing, and neither does a
directory in front of a path that names something. -/
theorem ofPath_decided_by_last_piece (path : String) :
    (ofPath path = .json ↔ ∃ name, LastNamed path name ∧ 6 ≤ String.utf8Len name ∧
      ['.', 'j', 's', 'o', 'n'] <:+ name.map Char.toLower) ∧
    ofPath (path ++ "/") = ofPath path ∧ ofPath (path ++ "/.") = ofPath path ∧
    ∀ (dir : String) (name : List Char), LastNamed path name →
      ofPath (dir ++ "/" ++ path) = ofPath path := by
  refine ⟨?_, ?_, ?_, fun dir name hname => ?_⟩
  · simp only [ofPath_eq_json_iff, extension?_isJson_iff, fileName?_eq_some_iff]
    refine exists_congr fun name => ⟨fun ⟨⟨hname, _⟩, hjson⟩ => ⟨hname, hjson⟩, ?_⟩
    rintro ⟨hname, hbytes, hjson⟩
    refine ⟨⟨hname, ?_⟩, hbytes, hjson⟩
    -- two dots are too short
    rintro rfl
    exact absurd hbytes (by decide)
  · have hslash : path ++ "/" = path ++ "/" ++ "" := String.append_empty.symm
    rw [hslash]
    refine ofPath_congr ?_
    rw [named_append_slash]
    have hempty : named "" = [] := by decide
    rw [hempty, List.append_nil]
  · have hslash : path ++ "/." = path ++ "/" ++ "." := by rw [String.append_assoc]; rfl
    rw [hslash]
    refine ofPath_congr ?_
    rw [named_append_slash]
    have hdot : named "." = [] := by decide
    rw [hdot, List.append_nil]
  · refine ofPath_congr ?_
    rw [named_append_slash, List.getLast?_append, getLast?_named_eq_some_iff.2 hname]
    rfl

theorem ofPath_decided_by_last_piece_below_directory :
    LastNamed "p/été.JsOn/./" ['é', 't', 'é', '.', 'J', 's', 'O', 'n'] ∧
    ofPath ("a.yml/.." ++ "/" ++ "p/été.JsOn/./") = .json := by
  have hname : LastNamed "p/été.JsOn/./" ['é', 't', 'é', '.', 'J', 's', 'O', 'n'] :=
    ⟨by decide, by decide, [['p']], [['.'], []], by decide, by decide⟩
  obtain ⟨hjson, -, -, hdir⟩ := ofPath_decided_by_last_piece "p/été.JsOn/./"
  exact ⟨hname, (hdir "a.yml/.." _ hname).trans (hjson.2 ⟨_, hname, by decide, by decide⟩)⟩

end ParamFormat

end UriExpansion
