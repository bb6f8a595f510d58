import UriExpansion.Proofs.Template.Rounds

/-!
# Positions of the scan

The scan counts bytes while it takes characters. A second scan keeps the position alone: whatever it
looks at it cuts out of the text, and a cut that leaves the text or stands inside of a character
fails. None of its cuts fails, and its rounds are those of the scan, at most one for each character.
-/

namespace UriExpansion

/-- The part of a text between two byte positions, which have to be in order and to lie on
boundaries of characters. -/
def cut? (text : String) (first last : Nat) : Option String :=
  if h : first ≤ last ∧ (⟨first⟩ : String.Pos.Raw).IsValid text ∧
      (⟨last⟩ : String.Pos.Raw).IsValid text then
    some (String.extract (⟨⟨first⟩, h.2.1⟩ : text.Pos) ⟨⟨last⟩, h.2.2⟩)
  else none

theorem isValid_utf8ByteSize_append (before after : String) :
    (⟨before.utf8ByteSize⟩ : String.Pos.Raw).IsValid (before ++ after) :=
  String.Pos.Raw.isValid_iff_exists_append.2 ⟨before, after, rfl, rfl⟩

theorem cut?_append (before piece after : String) :
    cut? (before ++ (piece ++ after)) before.utf8ByteSize
      (before.utf8ByteSize + piece.utf8ByteSize) = some piece := by
  have hfirst := isValid_utf8ByteSize_append before (piece ++ after)
  have hlast : (⟨before.utf8ByteSize + piece.utf8ByteSize⟩ : String.Pos.Raw).IsValid
      (before ++ (piece ++ after)) := by
    rw [← String.utf8ByteSize_append, ← String.append_assoc]
    exact isValid_utf8ByteSize_append (before ++ piece) after
  rw [cut?, dif_pos ⟨Nat.le_add_right _ _, hfirst, hlast⟩, Option.some_inj,
    ← String.toByteArray_inj, String.toByteArray_extract]
  simp only [String.toByteArray_append, ← String.size_toByteArray]
  have h := ByteArray.extract_append_size_add (a := before.toByteArray)
    (b := piece.toByteArray ++ after.toByteArray) (i := 0) (j := piece.toByteArray.size)
  rw [Nat.add_zero] at h
  rw [h, ByteArray.extract_append_eq_left rfl]

theorem cut?_eq_some {text : String} {before piece after : List Char}
    (h : text.toList = before ++ (piece ++ after)) :
    cut? text (String.utf8Len before) (String.utf8Len before + String.utf8Len piece) =
      some (String.ofList piece) := by
  have htext : text = String.ofList before ++ (String.ofList piece ++ String.ofList after) :=
    String.toList_inj.1 (by simp [h])
  rw [htext, ← String.utf8ByteSize_ofList, ← String.utf8ByteSize_ofList, cut?_append]

def braceOffset? : List Char → Option Nat
  | [] => none
  | c :: cs => if c = '}' then some 0 else (braceOffset? cs).map (c.utf8Size + ·)

theorem braceOffset?_eq_map_splitAtBrace (cs : List Char) :
    braceOffset? cs = (Scan.splitAtBrace cs).map fun parts => String.utf8Len parts.1 := by
  induction cs with
  | nil => rfl
  | cons c cs ih =>
    rw [braceOffset?, Scan.splitAtBrace, ih]
    split
    case isTrue => rfl
    case isFalse =>
      rw [Option.map_map, Option.map_map]
      exact Option.map_congr fun parts _ => Nat.add_comm ..

structure ByteScan where
  segments : List Segment
  literal : String
  position : Nat

namespace ByteScan

def start : ByteScan :=
  ⟨[], "", 0⟩

def flush (s : ByteScan) : List Segment :=
  if s.literal.isEmpty then s.segments else s.segments ++ [.literal s.literal]

def next (text : String) (s : ByteScan) : Option (Option (Except Unterminated ByteScan)) := do
  let ahead ← cut? text s.position text.utf8ByteSize
  match ahead.toList with
  | [] => return none
  | c :: _ =>
    if c = '{' then
      let behind ← cut? text (s.position + 1) text.utf8ByteSize
      match braceOffset? behind.toList with
      | none => return some (.error ⟨s.position⟩)
      | some length =>
        let body ← cut? text (s.position + 1) (s.position + 1 + length)
        return some (.ok
          { segments := s.flush ++ [.expression (.ofBody body.toList)]
            literal := ""
            position := s.position + 1 + (length + 1) })
    else return some (.ok
      { s with
        literal := s.literal.push c
        position := s.position + c.utf8Size })

def run (text : String) : Nat → ByteScan → Option (Except Unterminated (List Segment))
  | 0, s => do
    match ← s.next text with
    | none => return .ok s.flush
    | some _ => none
  | rounds + 1, s => do
    match ← s.next text with
    | none => return .ok s.flush
    | some (.error e) => return .error e
    | some (.ok s) => run text rounds s

end ByteScan

namespace Scan

def bytes (s : Scan) : ByteScan :=
  ⟨s.segments, s.literal, s.position⟩

theorem flush_bytes (s : Scan) : s.bytes.flush = s.flush :=
  rfl

/-- At the head of a round the position is a boundary of the text. What is printed so far ends
there, what is left begins there, and the body of an expression that begins there can be cut out. -/
structure Placed (text : String) (s : Scan) : Prop where
  bounded : s.position ≤ text.utf8ByteSize
  boundary : (⟨s.position⟩ : String.Pos.Raw).IsValid text
  printed : cut? text 0 s.position = some (sourceOf s.segments ++ s.literal)
  ahead : cut? text s.position text.utf8ByteSize = some (String.ofList s.rest)
  behind : ∀ cs, s.rest = '{' :: cs →
    cut? text (s.position + 1) text.utf8ByteSize = some (String.ofList cs)
  inside : ∀ body rest, s.rest = '{' :: (body ++ '}' :: rest) → '}' ∉ body →
    cut? text (s.position + 1) (s.position + 1 + String.utf8Len body) = some (String.ofList body) ∧
      s.position + 1 + String.utf8Len body + 1 ≤ text.utf8ByteSize

variable {text : String} {s s' : Scan}

theorem utf8ByteSize_of_reaches (h : Reaches (start text) s) :
    text.utf8ByteSize = s.position + String.utf8Len s.rest := by
  rw [position_eq_utf8Len_read h, ← String.utf8Len_append, read_append_rest h,
    ← String.utf8ByteSize_ofList, String.ofList_toList]

theorem isValid_position (h : Reaches (start text) s) :
    (⟨s.position⟩ : String.Pos.Raw).IsValid text := by
  have htext : text = String.ofList s.read ++ String.ofList s.rest :=
    String.toList_inj.1 (by simp [read_append_rest h])
  rw [htext, position_eq_utf8Len_read h, ← String.utf8ByteSize_ofList]
  exact isValid_utf8ByteSize_append _ _

theorem cut?_read (h : Reaches (start text) s) :
    cut? text 0 s.position = some (sourceOf s.segments ++ s.literal) := by
  have hread : String.ofList s.read = sourceOf s.segments ++ s.literal :=
    String.toList_inj.1 (by simp [read, toList_sourceOf])
  have htext : text.toList = [] ++ (s.read ++ s.rest) := (read_append_rest h).symm
  have hcut := cut?_eq_some htext
  rwa [String.utf8Len_nil, Nat.zero_add, ← position_eq_utf8Len_read h, hread] at hcut

theorem cut?_rest (h : Reaches (start text) s) (front piece back : List Char)
    (hrest : s.rest = front ++ (piece ++ back)) :
    cut? text (s.position + String.utf8Len front)
      (s.position + String.utf8Len front + String.utf8Len piece) = some (String.ofList piece) := by
  have htext : text.toList = (s.read ++ front) ++ (piece ++ back) := by
    rw [← read_append_rest h, hrest, List.append_assoc]
  have hcut := cut?_eq_some htext
  rwa [String.utf8Len_append, ← position_eq_utf8Len_read h] at hcut

theorem cut?_rest_to_end (h : Reaches (start text) s) (front back : List Char)
    (hrest : s.rest = front ++ back) :
    cut? text (s.position + String.utf8Len front) text.utf8ByteSize =
      some (String.ofList back) := by
  have hcut := cut?_rest h front back [] (by rw [hrest, List.append_nil])
  rwa [Nat.add_assoc, ← String.utf8Len_append, ← hrest, ← utf8ByteSize_of_reaches h] at hcut

theorem placed_of_reaches (h : Reaches (start text) s) : s.Placed text where
  bounded := (isValid_position h).le_utf8ByteSize
  boundary := isValid_position h
  printed := cut?_read h
  ahead := cut?_rest_to_end h [] s.rest rfl
  behind cs hrest := cut?_rest_to_end h ['{'] cs hrest
  inside body rest hrest _ := by
    refine ⟨cut?_rest h ['{'] body ('}' :: rest) hrest, ?_⟩
    have ho : '{'.utf8Size = 1 := rfl
    have hc : '}'.utf8Size = 1 := rfl
    simp only [utf8ByteSize_of_reaches h, hrest, String.utf8Len_cons, String.utf8Len_append, ho, hc]
    omega

theorem Step.position_lt (h : Step s s') : s.position < s'.position := by
  obtain ⟨piece, hpiece, htakes⟩ := h.exists_takes
  rw [htakes.position]
  exact Nat.lt_add_of_pos_right (Nat.pos_of_ne_zero (String.utf8Len_eq_zero.not.2 hpiece))

inductive Head (text : String) : Nat → Scan → Prop
  | first : Head text 0 (start text)
  | next {n s s'} : Head text n s → s.next = some (.ok s') → Head text (n + 1) s'

theorem Head.reaches {n : Nat} (h : Head text n s) : Reaches (start text) s := by
  induction h with
  | first => exact .refl
  | next _ hnext ih => exact ih.tail (next_eq_ok_iff.1 hnext)

theorem Head.rounds_le {n : Nat} (h : Head text n s) : n + s.rest.length ≤ text.length := by
  induction h with
  | first => simp [start, String.length_toList]
  | next _ hnext ih =>
    have hlt := (next_eq_ok_iff.1 hnext).rest_length_lt
    omega

theorem next_bytes (h : Reaches (start text) s) :
    s.bytes.next text = some (s.next.map (Except.map bytes)) := by
  have hplaced := placed_of_reaches h
  rcases s.rest_cases with hrest | hstuck | ⟨s', hstep⟩
  · have hahead := hplaced.ahead
    rw [hrest] at hahead
    simp [ByteScan.next, bytes, hahead, next_of_rest_eq_nil hrest]
  · rw [next_of_stuck hstuck]
    obtain ⟨cs, hrest, hcs⟩ := hstuck
    have hahead := hplaced.ahead
    rw [hrest] at hahead
    simp [ByteScan.next, bytes, hahead, hplaced.behind cs hrest,
      braceOffset?_eq_map_splitAtBrace, splitAtBrace_eq_none_iff.2 hcs, Except.map]
  · rw [next_of_step hstep]
    cases hstep with
    | char hrest hc =>
      have hahead := hplaced.ahead
      rw [hrest] at hahead
      simp [ByteScan.next, bytes, hahead, hc, pushChar, Except.map]
    | body hrest hbody =>
      have hahead := hplaced.ahead
      rw [hrest] at hahead
      simp [ByteScan.next, bytes, hahead, hplaced.behind _ hrest,
        braceOffset?_eq_map_splitAtBrace, splitAtBrace_append hbody,
        (hplaced.inside _ _ hrest hbody).1, pushBody, Except.map, ← flush_bytes]

theorem run_bytes (h : Reaches (start text) s) {rounds : Nat} (hr : s.rest.length ≤ rounds) :
    s.bytes.run text rounds = some (run rounds s) := by
  -- the rounds that remain always cover the characters that remain
  induction rounds generalizing s with
  | zero =>
    have hrest := List.eq_nil_of_length_eq_zero (Nat.le_zero.1 hr)
    have hnext := next_bytes h
    rw [next_of_rest_eq_nil hrest] at hnext
    simp [ByteScan.run, hnext, run, flush_bytes]
  | succ rounds ih =>
    have hnext := next_bytes h
    rcases s.rest_cases with hrest | hstuck | ⟨s', hstep⟩
    · rw [next_of_rest_eq_nil hrest] at hnext
      simp [ByteScan.run, hnext, run, next_of_rest_eq_nil hrest, flush_bytes]
    · rw [next_of_stuck hstuck] at hnext
      simp [ByteScan.run, hnext, run, next_of_stuck hstuck, Except.map]
    · have hlt := hstep.rest_length_lt
      have hrun := ih (h.tail hstep) (by omega)
      rw [next_of_step hstep] at hnext
      simp [ByteScan.run, hnext, run, next_of_step hstep, hrun, Except.map]

/-- At every head of the scan the position is a boundary of the text behind what is printed so far,
each round moves it on, and no more rounds are behind than characters. Scanning by positions alone
makes the same rounds without a cut that fails, and comes to what the text reads as. -/
theorem placed_at_every_head (text : String) :
    (∀ n s, Head text n s → s.Placed text ∧ n + s.rest.length ≤ text.length ∧
      (∀ s', s.next = some (.ok s') → s.position < s'.position) ∧
      s.bytes.next text = some (s.next.map (Except.map bytes))) ∧
    ByteScan.start.run text text.length = some ((Template.parse text).map Template.segments) := by
  constructor
  · intro n s hhead
    have h := hhead.reaches
    exact ⟨placed_of_reaches h, hhead.rounds_le,
      fun s' hnext => (next_eq_ok_iff.1 hnext).position_lt, next_bytes h⟩
  · have hrun := run_bytes (s := start text) .refl (Nat.le_of_eq String.length_toList)
    have hmap : (Template.parse text).map Template.segments = run text.length (start text) := by
      rw [Template.parse]
      cases run text.length (start text) <;> rfl
    rw [hmap, ← hrun]
    rfl

theorem placed_at_every_head_of_wide_body :
    Head "é\x7bü*\x7d\x7d\x7b" 1 ⟨[], "é", 2, ['{', 'ü', '*', '}', '}', '{']⟩ ∧
    cut? "é\x7bü*\x7d\x7d\x7b" 2 9 = some "\x7bü*\x7d\x7d\x7b" ∧
    cut? "é\x7bü*\x7d\x7d\x7b" 3 6 = some "ü*" ∧
    cut? "é\x7bü*\x7d\x7d\x7b" 3 4 = none ∧
    Head "é\x7bü*\x7d\x7d\x7b" 2
      ⟨[.literal "é", .expression ⟨.simple, [⟨"ü", true⟩]⟩], "", 7, ['}', '{']⟩ ∧
    (⟨7⟩ : String.Pos.Raw).IsValid "é\x7bü*\x7d\x7d\x7b" ∧
    cut? "é\x7bü*\x7d\x7d\x7b" 0 7 = some "é\x7bü*\x7d" ∧
    ByteScan.start.run "é\x7bü*\x7d\x7d\x7b" 7 = some (.error ⟨8⟩) := by
  have hfirst : Head "é\x7bü*\x7d\x7d\x7b" 1 ⟨[], "é", 2, ['{', 'ü', '*', '}', '}', '{']⟩ :=
    .next .first rfl
  have hsecond : Head "é\x7bü*\x7d\x7d\x7b" 2
      ⟨[.literal "é", .expression ⟨.simple, [⟨"ü", true⟩]⟩], "", 7, ['}', '{']⟩ :=
    .next hfirst rfl
  obtain ⟨hheads, hrun⟩ := placed_at_every_head "é\x7bü*\x7d\x7d\x7b"
  obtain ⟨hopen, -⟩ := hheads _ _ hfirst
  obtain ⟨hstray, -⟩ := hheads _ _ hsecond
  refine ⟨hfirst, hopen.ahead, ?_, by decide, hsecond, hstray.boundary, hstray.printed, hrun⟩
  exact (hopen.inside ['ü', '*'] ['}', '{'] rfl (by decide)).1

end Scan

end UriExpansion
