import Mathlib.Data.List.TakeWhile
import Mathlib.Tactic.SplitIfs
import PromptPack.Proofs.Text.Lines
import PromptPack.Transform.Comments

/-! Hash comments, read one character at a time. Within a line the quote marks are paired from the
left, whatever a backslash or an earlier line says; a hash sign behind paired marks starts a
comment, and white space in front of it goes with it. What is read outside such comments is what
removing them line by line leaves. Main statement: `unlines_stripHashLines`. -/

namespace PromptPack.Transform

open Text

def isQuoteMark (c : Char) : Bool := c == '\'' || c == '"'

/-- The mark that is open behind a character of a line. -/
def pairMark (unpaired : Option Char) (c : Char) : Option Char :=
  if isQuoteMark c then
    match unpaired with
    | none => some c
    | some mark => if c = mark then none else some mark
  else unpaired

def isGap (c : Char) : Bool := isBlank c && c != '\n'

def hashAhead (cs : List Char) : Bool := (cs.dropWhile isGap).head? == some '#'

inductive LineState where
  | reading (unpaired : Option Char)
  | dropping
  /-- In a line that names an interpreter. -/
  | keeping
deriving DecidableEq, Repr

def LineState.next : LineState → Char → List Char → LineState × Bool
  | .reading unpaired, c, cs =>
    if c = '\n' then (.reading none, true)
    else if unpaired = none ∧ hashAhead (c :: cs) = true then (.dropping, false)
    else (.reading (pairMark unpaired c), true)
  | .dropping, c, _ => if c = '\n' then (.reading none, true) else (.dropping, false)
  | .keeping, c, _ => if c = '\n' then (.reading none, true) else (.keeping, true)

def readLines : LineState → List Char → List (Bool × Char)
  | _, [] => []
  | state, c :: cs => ((state.next c cs).2, c) :: readLines (state.next c cs).1 cs

def uncommented (state : LineState) (cs : List Char) : List Char :=
  ((readLines state cs).filter Prod.fst).map Prod.snd

section

variable {state after : LineState} {unpaired : Option Char} {c : Char}
  {cs line rest code passed : List Char} {parts : List (List Char)}

@[simp] theorem uncommented_nil (state : LineState) : uncommented state [] = [] := rfl

theorem uncommented_written (read : state.next c cs = (after, true)) :
    uncommented state (c :: cs) = c :: uncommented after cs := by
  simp [uncommented, readLines, read]

theorem uncommented_dropped (read : state.next c cs = (after, false)) :
    uncommented state (c :: cs) = uncommented after cs := by
  simp [uncommented, readLines, read]

theorem map_snd_readLines (state : LineState) (cs : List Char) :
    (readLines state cs).map Prod.snd = cs := by
  induction cs generalizing state with
  | nil => rfl
  | cons c cs ih => rw [readLines, List.map_cons, ih]

theorem uncommented_sublist (state : LineState) (cs : List Char) :
    (uncommented state cs).Sublist cs := by
  conv => rhs; rw [← map_snd_readLines state cs]
  exact List.filter_sublist.map Prod.snd

theorem next_lineBreak (state : LineState) (cs : List Char) :
    state.next '\n' cs = (.reading none, true) := by
  cases state <;> simp [LineState.next]

theorem ne_of_hashAhead (ahead : hashAhead (c :: cs) = true) : c ≠ '\n' := by
  rintro rfl
  cases ahead

theorem next_reading_goes (ahead : hashAhead (c :: cs) = true) :
    LineState.next (.reading none) c cs = (.dropping, false) := by
  rw [LineState.next, if_neg (ne_of_hashAhead ahead), if_pos ⟨rfl, ahead⟩]

theorem next_dropping (inside : c ≠ '\n') (cs : List Char) :
    LineState.next .dropping c cs = (.dropping, false) := if_neg inside

theorem uncommented_lineBreak (state : LineState) (cs : List Char) :
    uncommented state ('\n' :: cs) = '\n' :: uncommented (.reading none) cs :=
  uncommented_written (next_lineBreak state cs)

/-! One line. -/

theorem hashAhead_append (line rest : List Char) :
    hashAhead (line ++ '\n' :: rest) = hashAhead line := by
  induction line with
  | nil => rfl
  | cons c line ih =>
    unfold hashAhead at ih ⊢
    rw [List.cons_append]
    by_cases gap : isGap c = true
    · rw [List.dropWhile_cons_of_pos gap, List.dropWhile_cons_of_pos gap]
      exact ih
    · rw [List.dropWhile_cons_of_neg gap, List.dropWhile_cons_of_neg gap]
      rfl

theorem next_append (state : LineState) (c : Char) (line rest : List Char) :
    state.next c (line ++ '\n' :: rest) = state.next c line := by
  cases state with
  | reading unpaired =>
    simp only [LineState.next]
    rw [← List.cons_append, hashAhead_append]
  | dropping | keeping => rfl

theorem uncommented_append (inline : '\n' ∉ line) (state : LineState) (rest : List Char) :
    uncommented state (line ++ '\n' :: rest) =
      uncommented state line ++ '\n' :: uncommented (.reading none) rest := by
  induction line generalizing state with
  | nil => exact uncommented_lineBreak state rest
  | cons c line ih =>
    have tail := ih (List.not_mem_of_not_mem_cons inline) (state.next c line).1
    have step := next_append state c line rest
    rw [List.cons_append]
    cases read : state.next c line with
    | mk after written =>
      rw [read] at step tail
      cases written with
      | true => rw [uncommented_written step, uncommented_written read, tail, List.cons_append]
      | false => rw [uncommented_dropped step, uncommented_dropped read, tail]

theorem uncommented_dropping (inline : '\n' ∉ line) : uncommented .dropping line = [] := by
  induction line with
  | nil => rfl
  | cons c line ih =>
    rw [uncommented_dropped (next_dropping (Ne.symm (List.ne_of_not_mem_cons inline)) line)]
    exact ih (List.not_mem_of_not_mem_cons inline)

theorem uncommented_keeping (inline : '\n' ∉ line) : uncommented .keeping line = line := by
  induction line with
  | nil => rfl
  | cons c line ih =>
    have read : LineState.next .keeping c line = (.keeping, true) :=
      if_neg (Ne.symm (List.ne_of_not_mem_cons inline))
    rw [uncommented_written read, ih (List.not_mem_of_not_mem_cons inline)]

def codeBefore? : Option Char → List Char → Option (List Char)
  | _, [] => none
  | unpaired, c :: cs =>
    if c = '#' ∧ unpaired = none then some []
    else (codeBefore? (pairMark unpaired c) cs).map (c :: ·)

theorem pairMark_of_other (other : isQuoteMark c = false) (unpaired : Option Char) :
    pairMark unpaired c = unpaired := by
  unfold pairMark
  rw [if_neg (by simp [other])]

theorem isQuoteMark_iff : isQuoteMark c = true ↔ c = '\'' ∨ c = '"' := by simp [isQuoteMark]

def Marks (unpaired : Option Char) : Prop := ∀ mark ∈ unpaired, isQuoteMark mark = true

theorem Marks.pair (marks : Marks unpaired) (c : Char) : Marks (pairMark unpaired c) := by
  intro mark opened
  unfold pairMark at opened
  split at opened
  · next quote =>
    split at opened
    · cases opened
      exact quote
    · split at opened
      · cases opened
      · exact marks mark opened
  · exact marks mark opened

/-- The two flags of the line reader say which mark is open. -/
theorem beforeHash?_cons (marks : Marks unpaired) (passed : List Char) :
    beforeHash? (unpaired = some '\'') (unpaired = some '"') passed (c :: cs) =
      if c = '#' ∧ unpaired = none then some passed.reverse
      else beforeHash? (pairMark unpaired c = some '\'') (pairMark unpaired c = some '"')
        (c :: passed) cs := by
  have states : unpaired = none ∨ unpaired = some '\'' ∨ unpaired = some '"' := by
    cases unpaired with
    | none => exact .inl rfl
    | some mark => exact .inr (by simpa [isQuoteMark_iff] using marks mark rfl)
  by_cases single : c = '\''
  · subst single
    rcases states with rfl | rfl | rfl <;> simp [beforeHash?, pairMark, isQuoteMark]
  · by_cases double : c = '"'
    · subst double
      rcases states with rfl | rfl | rfl <;> simp [beforeHash?, pairMark, isQuoteMark]
    · have other : isQuoteMark c = false := by simp [isQuoteMark, single, double]
      rw [pairMark_of_other other]
      rcases states with rfl | rfl | rfl <;> simp [beforeHash?, single, double]

theorem beforeHash?_eq (marks : Marks unpaired) (passed line : List Char) :
    beforeHash? (unpaired = some '\'') (unpaired = some '"') passed line =
      (codeBefore? unpaired line).map (passed.reverse ++ ·) := by
  induction line generalizing unpaired passed with
  | nil => rfl
  | cons c line ih =>
    rw [beforeHash?_cons marks, codeBefore?]
    split
    · simp
    · rw [ih (marks.pair c), Option.map_map]
      congr 1
      funext code
      simp

theorem foldl_pairMark_of_others (others : ∀ other ∈ cs, isQuoteMark other = false)
    (unpaired : Option Char) : cs.foldl pairMark unpaired = unpaired := by
  induction cs with
  | nil => rfl
  | cons c cs ih =>
    rw [List.foldl_cons, pairMark_of_other (others c List.mem_cons_self)]
    exact ih fun other member => others other (List.mem_cons_of_mem c member)

theorem not_quote_of_isBlank (blank : isBlank c = true) : isQuoteMark c = false := by
  by_contra quote
  rcases isQuoteMark_iff.mp (by simpa using quote) with rfl | rfl <;> revert blank <;> decide

theorem codeBefore?_eq_some (found : codeBefore? unpaired line = some code) :
    (∃ rest, line = code ++ '#' :: rest) ∧ code.foldl pairMark unpaired = none := by
  induction line generalizing unpaired code with
  | nil => cases found
  | cons c line ih =>
    rw [codeBefore?] at found
    split at found
    · next hash =>
      cases found
      exact ⟨⟨line, by rw [hash.1]; rfl⟩, hash.2⟩
    · obtain ⟨tail, rest?, rfl⟩ := Option.map_eq_some_iff.mp found
      obtain ⟨⟨rest, rfl⟩, paired⟩ := ih rest?
      exact ⟨⟨rest, rfl⟩, paired⟩

theorem hashAhead_iff :
    hashAhead cs = true ↔ ∃ gap rest, cs = gap ++ '#' :: rest ∧ ∀ c ∈ gap, isGap c = true := by
  constructor
  · intro ahead
    obtain ⟨rest, left⟩ : ∃ rest, cs.dropWhile isGap = '#' :: rest := by
      unfold hashAhead at ahead
      cases left : cs.dropWhile isGap with
      | nil => simp [left] at ahead
      | cons c rest =>
        rw [left] at ahead
        exact ⟨rest, by simpa using ahead⟩
    refine ⟨cs.takeWhile isGap, rest, ?_, fun c => List.mem_takeWhile_imp⟩
    rw [← left, List.takeWhile_append_dropWhile]
  · rintro ⟨gap, rest, rfl, gaps⟩
    unfold hashAhead
    rw [List.dropWhile_append_of_pos gaps]
    rfl

theorem isBlank_of_isGap (gap : isGap c = true) : isBlank c = true :=
  (Bool.and_eq_true_iff.mp gap).1

theorem codeBefore?_of_gap (gaps : ∀ c ∈ cs, isGap c = true) (rest : List Char) :
    codeBefore? none (cs ++ '#' :: rest) = some cs := by
  induction cs with
  | nil => rfl
  | cons c cs ih =>
    have gap := gaps c List.mem_cons_self
    have other : c ≠ '#' := by
      rintro rfl
      revert gap
      decide
    rw [List.cons_append, codeBefore?, if_neg fun hash => other hash.1,
      pairMark_of_other (not_quote_of_isBlank (isBlank_of_isGap gap)),
      ih fun c member => gaps c (List.mem_cons_of_mem _ member)]
    rfl

/-- A comment behind nothing but white space starts with that white space. -/
theorem hashAhead_of_codeBefore? (inline : '\n' ∉ line)
    (found : codeBefore? unpaired line = some code) (nothing : trimEnd code = []) :
    unpaired = none ∧ hashAhead line = true := by
  obtain ⟨⟨rest, rfl⟩, paired⟩ := codeBefore?_eq_some found
  have blanks := trimEnd_eq_nil_iff.mp nothing
  rw [foldl_pairMark_of_others fun c member => not_quote_of_isBlank (blanks c member)] at paired
  refine ⟨paired, hashAhead_iff.mpr ⟨code, rest, rfl, fun c member => ?_⟩⟩
  have within : c ≠ '\n' := by
    rintro rfl
    exact inline (List.mem_append_left _ member)
  simp [isGap, blanks c member, within]

theorem uncommented_line (inline : '\n' ∉ line) (unpaired : Option Char) :
    uncommented (.reading unpaired) line =
      match codeBefore? unpaired line with
      | some code => trimEnd code
      | none => line := by
  induction line generalizing unpaired with
  | nil => rfl
  | cons c line ih =>
    have sameLine : c ≠ '\n' := Ne.symm (List.ne_of_not_mem_cons inline)
    have inside := List.not_mem_of_not_mem_cons inline
    by_cases drops : unpaired = none ∧ hashAhead (c :: line) = true
    · obtain ⟨rfl, ahead⟩ := drops
      obtain ⟨gap, rest, split, gaps⟩ := hashAhead_iff.mp ahead
      rw [uncommented_dropped (next_reading_goes ahead), uncommented_dropping inside, split, codeBefore?_of_gap gaps]
      exact (trimEnd_eq_nil_iff.mpr fun c member => isBlank_of_isGap (gaps c member)).symm
    · have read : LineState.next (.reading unpaired) c line =
          (.reading (pairMark unpaired c), true) := by
        rw [LineState.next, if_neg sameLine, if_neg drops]
      have goesOn : codeBefore? unpaired (c :: line) =
          (codeBefore? (pairMark unpaired c) line).map (c :: ·) := by
        refine if_neg ?_
        rintro ⟨rfl, rfl⟩
        exact drops ⟨rfl, rfl⟩
      rw [uncommented_written read, ih inside, goesOn]
      cases found : codeBefore? (pairMark unpaired c) line with
      | none => rfl
      | some code =>
        rw [found] at goesOn
        have some : ¬ (isBlank c = true ∧ trimEnd code = []) := fun blank =>
          drops (hashAhead_of_codeBefore? inline goesOn ((trimEnd_cons c code).trans (if_pos blank)))
        exact ((trimEnd_cons c code).trans (if_neg some)).symm

theorem stripHashLine_eq_match (line : List Char) :
    stripHashLine line =
      match codeBefore? none line with
      | some code => trimEnd code
      | none => line := by
  have flags : beforeHash? false false [] line = codeBefore? none line := by
    simpa using beforeHash?_eq (show Marks none from nofun) [] line
  cases found : codeBefore? none line with
  | none => rw [stripHashLine, flags, found]
  | some code => rw [stripHashLine, flags, found]

theorem stripHashLine_eq (inline : '\n' ∉ line) :
    stripHashLine line = uncommented (.reading none) line :=
  (stripHashLine_eq_match line).trans (uncommented_line inline none).symm

/-! All lines. -/

theorem unlines_map_stripHashLine (inline : ∀ line ∈ parts, '\n' ∉ line) (some : parts ≠ []) :
    unlines (parts.map stripHashLine) = uncommented (.reading none) (unlines parts) := by
  induction parts with
  | nil => exact absurd rfl some
  | cons line parts ih =>
    obtain ⟨sameLine, inline⟩ := List.forall_mem_cons.mp inline
    cases parts with
    | nil => simpa [unlines] using stripHashLine_eq sameLine
    | cons next parts =>
      rw [List.map_cons, unlines_cons (by simp), unlines_cons (List.cons_ne_nil next parts),
        uncommented_append sameLine, stripHashLine_eq sameLine, ih inline (List.cons_ne_nil _ _)]

/-- A text that names an interpreter in its first line keeps that line. -/
def LineState.start (cs : List Char) : LineState :=
  if startsWith ['#', '!'] cs then .keeping else .reading none

theorem startsWith_append (line rest : List Char) :
    startsWith ['#', '!'] (line ++ '\n' :: rest) = startsWith ['#', '!'] line := by
  rcases line with _ | ⟨first, _ | ⟨second, line⟩⟩
  · simp [startsWith, after?]
  · simp [startsWith, after?]
  · simp only [startsWith, after?, List.cons_append]
    split_ifs <;> rfl

theorem uncommented_start_append (inline : '\n' ∉ line) (rest : List Char) :
    uncommented (.start (line ++ '\n' :: rest)) (line ++ '\n' :: rest) =
      uncommented (.start line) line ++ '\n' :: uncommented (.reading none) rest := by
  unfold LineState.start
  rw [startsWith_append, uncommented_append inline]

theorem uncommented_start (inline : '\n' ∉ line) :
    uncommented (.start line) line =
      if startsWith ['#', '!'] line then line else stripHashLine line := by
  unfold LineState.start
  split
  · exact uncommented_keeping inline
  · exact (stripHashLine_eq inline).symm

/-! Looking ahead. Between two characters that are written, a line break is written where some are
not, so marks that follow each other in what is left do so in the text. -/

theorem eq_of_uncommented_dropping {written : List Char}
    (left : uncommented .dropping cs = c :: written) : c = '\n' := by
  induction cs with
  | nil => cases left
  | cons first cs ih =>
    by_cases ends : first = '\n'
    · rw [ends, uncommented_lineBreak] at left
      exact (List.cons.inj left).1.symm
    · rw [uncommented_dropped (next_dropping ends cs)] at left
      exact ih left

theorem next_of_not_written (read : state.next c cs = (after, false)) : after = .dropping := by
  cases state with
  | reading unpaired =>
    simp only [LineState.next] at read
    split_ifs at read <;> simp_all
  | dropping | keeping =>
    simp only [LineState.next] at read
    split_ifs at read <;> simp_all

theorem isPrefix_of_uncommented {mark : Char} (quote : isQuoteMark mark = true) {n : Nat}
    (ahead : List.replicate n mark <+: uncommented state cs) : List.replicate n mark <+: cs := by
  induction n generalizing state cs with
  | zero => exact List.nil_prefix
  | succ n ih =>
    obtain ⟨written, left⟩ := ahead
    rw [List.replicate_succ, List.cons_append] at left
    cases cs with
    | nil => cases left
    | cons c cs =>
      cases read : state.next c cs with
      | mk after stays =>
        cases stays with
        | true =>
          rw [uncommented_written read] at left
          obtain ⟨rfl, tail⟩ := List.cons.inj left
          rw [List.replicate_succ, List.cons_prefix_cons]
          exact ⟨rfl, ih ⟨written, tail⟩⟩
        | false =>
          obtain rfl := next_of_not_written read
          rw [uncommented_dropped read] at left
          obtain rfl := eq_of_uncommented_dropping left.symm
          cases quote

/-- Removing hash comments line by line leaves what is read outside them. -/
theorem unlines_stripHashLines (cs : List Char) :
    unlines (stripHashLines (lines cs)) = uncommented (.start cs) cs := by
  have inline := notMem_of_mem_lines cs
  have joined := unlines_lines cs
  cases split : lines cs with
  | nil => exact absurd split (splitOn_ne_nil '\n' cs)
  | cons first rest =>
    rw [split] at inline joined
    obtain ⟨sameLine, inline⟩ := List.forall_mem_cons.mp inline
    rw [stripHashLines, ← uncommented_start sameLine, ← joined]
    cases rest with
    | nil => simp [unlines]
    | cons next rest =>
      rw [List.map_cons, unlines_cons (List.cons_ne_nil _ _), unlines_cons (List.cons_ne_nil _ _),
        uncommented_start_append sameLine, ← List.map_cons,
        unlines_map_stripHashLine inline (List.cons_ne_nil _ _)]

end

end PromptPack.Transform
