import PromptPack.Proofs.Text.SolidLines
import PromptPack.Transform.Whitespace

/-! What reducing white space does to each gap of a text. Runs of line breaks are cut down first and
the ends of lines are trimmed then, so white space on blank lines can keep more breaks in a gap than
one run may have. Main statements: `reduceWhitespace_normal` and `reduceWhitespace_keeps_lines`. -/

namespace PromptPack.Transform

open Text

def breakRun : List Char := ['\n', '\n', '\n']

def squeeze (c : Char) (cs : List Char) : List Char :=
  if breakRun <+: c :: cs then cs else c :: cs

section

variable {gap : List Char} {c : Char} {cs rest : List Char}

/-! Runs of line breaks. -/

theorem collapseBreaks_of_run (rest : List Char) :
    collapseBreaks ('\n' :: '\n' :: '\n' :: rest) =
      '\n' :: '\n' :: collapseBreaks (rest.dropWhile (· == '\n')) :=
  scan_cons breakStep '\n' ('\n' :: '\n' :: rest)

theorem collapseBreaks_of_no_run (none : ¬ breakRun <+: c :: cs) :
    collapseBreaks (c :: cs) = c :: collapseBreaks cs := by
  have copied : breakStep c cs = copy c cs := by
    unfold breakStep
    split
    · next rest => exact absurd ⟨rest, rfl⟩ none
    · rfl
  rw [collapseBreaks, scan_cons, copied]
  rfl

theorem breakStep_sublist (c : Char) (cs : List Char) :
    ((breakStep c cs).1 ++ (breakStep c cs).2.val).Sublist (c :: cs) := by
  unfold breakStep
  split
  · next rest =>
    exact (((List.dropWhile_sublist _).cons '\n').cons_cons '\n').cons_cons '\n'
  · exact .refl _

theorem collapseBreaks_sublist (cs : List Char) : (collapseBreaks cs).Sublist cs :=
  scan_sublist breakStep_sublist cs

theorem notMem_breakRun (other : c ≠ '\n') : c ∉ breakRun := by simpa [breakRun] using other

theorem squeeze_of_ne (other : c ≠ '\n') (cs : List Char) : squeeze c cs = c :: cs :=
  if_neg fun run => other (List.cons_prefix_cons.mp run).1.symm

theorem squeeze_of_run (run : breakRun <+: c :: cs) : squeeze c cs = cs := if_pos run

theorem breakRun_prefix_iff :
    breakRun <+: c :: cs ↔ c = '\n' ∧ ∃ rest, cs = '\n' :: '\n' :: rest := by
  constructor
  · rintro ⟨rest, joined⟩
    obtain ⟨rfl, rfl⟩ := List.cons.inj joined
    exact ⟨rfl, rest, rfl⟩
  · rintro ⟨rfl, rest, rfl⟩
    exact ⟨rest, rfl⟩

theorem lineBreak_of_collapseBreaks (left : collapseBreaks cs = '\n' :: rest) :
    ∃ behind, cs = '\n' :: behind ∧ (¬ breakRun <+: cs → collapseBreaks behind = rest) := by
  cases cs with
  | nil => rw [collapseBreaks, scan_nil] at left; cases left
  | cons c cs =>
    by_cases run : breakRun <+: c :: cs
    · exact ⟨cs, by rw [(breakRun_prefix_iff.mp run).1], absurd run⟩
    · rw [collapseBreaks_of_no_run run] at left
      obtain ⟨rfl, behind⟩ := List.cons.inj left
      exact ⟨cs, rfl, fun _ => behind⟩

theorem run_of_collapseBreaks (run : breakRun <+: c :: collapseBreaks cs) :
    breakRun <+: c :: cs := by
  obtain ⟨rfl, rest, left⟩ := breakRun_prefix_iff.mp run
  refine breakRun_prefix_iff.mpr ⟨rfl, ?_⟩
  obtain ⟨behind, rfl, next⟩ := lineBreak_of_collapseBreaks left
  by_cases again : breakRun <+: '\n' :: behind
  · obtain ⟨-, rest, rfl⟩ := breakRun_prefix_iff.mp again
    exact ⟨_, rfl⟩
  · obtain ⟨rest, rfl, -⟩ := lineBreak_of_collapseBreaks (next again)
    exact ⟨rest, rfl⟩

/-- Runs can be cut from the right as well as from the left. -/
theorem collapseBreaks_cons (c : Char) (cs : List Char) :
    collapseBreaks (c :: cs) = squeeze c (collapseBreaks cs) := by
  by_cases run : breakRun <+: c :: cs
  · obtain ⟨rfl, rest, rfl⟩ := breakRun_prefix_iff.mp run
    have left : collapseBreaks ('\n' :: '\n' :: rest) =
        '\n' :: '\n' :: collapseBreaks (rest.dropWhile (· == '\n')) := by
      cases rest with
      | nil => decide +kernel
      | cons d rest =>
        by_cases again : d = '\n'
        · rw [again, collapseBreaks_of_run, List.dropWhile_cons_of_pos (by rfl)]
        · rw [List.dropWhile_cons_of_neg (by simpa using again),
            collapseBreaks_of_no_run (by simp [breakRun_prefix_iff, again]),
            collapseBreaks_of_no_run (by simp [breakRun_prefix_iff, again])]
    rw [collapseBreaks_of_run, left, squeeze_of_run (breakRun_prefix_iff.mpr ⟨rfl, _, rfl⟩)]
  · rw [collapseBreaks_of_no_run run]
    exact (if_neg fun again => run (run_of_collapseBreaks again)).symm

theorem collapseBreaks_nil : collapseBreaks [] = [] := scan_nil breakStep

theorem collapseBreaks_append (other : c ≠ '\n') (front cs : List Char) :
    collapseBreaks (front ++ c :: cs) = collapseBreaks front ++ c :: collapseBreaks cs := by
  induction front with
  | nil => rw [List.nil_append, collapseBreaks_cons, squeeze_of_ne other, collapseBreaks_nil,
      List.nil_append]
  | cons first front ih =>
    rw [List.cons_append, collapseBreaks_cons, collapseBreaks_cons, ih]
    simp only [squeeze, ← List.cons_append, prefix_append_cons_iff (notMem_breakRun other)]
    split <;> rfl

theorem not_run_collapseBreaks (cs : List Char) : ¬ breakRun <:+: collapseBreaks cs := by
  induction cs with
  | nil => rw [collapseBreaks_nil]; decide
  | cons c cs ih =>
    rw [collapseBreaks_cons]
    unfold squeeze
    split
    · exact ih
    · next none => exact fun run => (List.infix_cons_iff.mp run).elim none ih

theorem collapseBreaks_eq_self_iff : collapseBreaks cs = cs ↔ ¬ breakRun <:+: cs := by
  constructor
  · intro same
    rw [← same]
    exact not_run_collapseBreaks cs
  · intro none
    induction cs with
    | nil => exact collapseBreaks_nil
    | cons c cs ih =>
      rw [collapseBreaks_of_no_run fun run => none run.isInfix,
        ih fun run => none (List.infix_cons run)]

/-! The ends of lines. -/

def trimLineEnds (cs : List Char) : List Char := unlines ((lines cs).map trimEnd)

theorem trimLineEnds_lineBreak (cs : List Char) :
    trimLineEnds ('\n' :: cs) = '\n' :: trimLineEnds cs := by
  have some : (lines cs).map trimEnd ≠ [] := mt List.map_eq_nil_iff.mp (splitOn_ne_nil '\n' cs)
  rw [trimLineEnds, lines_lineBreak, List.map_cons, unlines_cons some]
  rfl

/-- White space goes when there is only white space behind it on its line. -/
theorem trimLineEnds_dropped (blank : isBlank c = true) (inside : c ≠ '\n')
    (ends : Blank (cs.takeWhile (· != '\n'))) : trimLineEnds (c :: cs) = trimLineEnds cs := by
  obtain ⟨parts, first⟩ := exists_lines cs
  have nothing := trimEnd_eq_nil_iff.mpr ends
  rw [trimLineEnds, trimLineEnds, lines_cons inside, first, List.modifyHead_cons, List.map_cons,
    List.map_cons, trimEnd_cons, if_pos ⟨blank, nothing⟩, nothing]

theorem trimLineEnds_kept (inside : c ≠ '\n')
    (stays : ¬ (isBlank c = true ∧ Blank (cs.takeWhile (· != '\n')))) :
    trimLineEnds (c :: cs) = c :: trimLineEnds cs := by
  obtain ⟨parts, first⟩ := exists_lines cs
  have stays : ¬ (isBlank c = true ∧ trimEnd (cs.takeWhile (· != '\n')) = []) := fun nothing =>
    stays ⟨nothing.1, trimEnd_eq_nil_iff.mp nothing.2⟩
  rw [trimLineEnds, trimLineEnds, lines_cons inside, first, List.modifyHead_cons, List.map_cons,
    List.map_cons, trimEnd_cons, if_neg stays, unlines_cons_cons]

/-- What stays of the white space in front of another character: all line breaks, and the rest of it
on the line of that character. -/
def settle : List Char → List Char
  | [] => []
  | c :: cs => if c ≠ '\n' ∧ '\n' ∈ cs then settle cs else c :: settle cs

theorem trimLineEnds_append (blank : Blank gap) (solid : isBlank c = false) (cs : List Char) :
    trimLineEnds (gap ++ c :: cs) = settle gap ++ c :: trimLineEnds cs := by
  induction gap with
  | nil => exact trimLineEnds_kept (ne_lineBreak_of_solid solid) (by simp [solid])
  | cons first gap ih =>
    obtain ⟨isGap, blank⟩ := List.forall_mem_cons.mp blank
    have restOfLine := blank_restOfLine_iff blank solid cs
    rw [List.cons_append, settle]
    by_cases ends : first = '\n'
    · rw [if_neg (by simp [ends]), ends, trimLineEnds_lineBreak, ih blank, List.cons_append]
    · by_cases behind : '\n' ∈ gap
      · rw [if_pos ⟨ends, behind⟩, trimLineEnds_dropped isGap ends (restOfLine.mpr behind), ih blank]
      · rw [if_neg (by simp [behind]), trimLineEnds_kept ends fun drops => behind
          (restOfLine.mp drops.2), ih blank, List.cons_append]

theorem exists_settle (gap : List Char) :
    ∃ rest, settle gap = List.replicate (gap.count '\n') '\n' ++ rest ∧ '\n' ∉ rest := by
  induction gap with
  | nil => exact ⟨[], rfl, List.not_mem_nil⟩
  | cons c gap ih =>
    obtain ⟨rest, settled, inline⟩ := ih
    rw [settle, settled]
    by_cases ends : c = '\n'
    · exact ⟨rest, by simp [ends, List.replicate_succ], inline⟩
    · by_cases behind : '\n' ∈ gap
      · exact ⟨rest, by simp [ends, behind], inline⟩
      · have none : gap.count '\n' = 0 := List.count_eq_zero.mpr behind
        exact ⟨c :: rest, by simp [ends, behind, none], by simp [Ne.symm ends, inline]⟩

theorem settle_replicate (n : Nat) (inline : '\n' ∉ rest) :
    settle (List.replicate n '\n' ++ rest) = List.replicate n '\n' ++ rest := by
  induction n with
  | zero =>
    induction rest with
    | nil => rfl
    | cons c rest ih =>
      have behind := List.not_mem_of_not_mem_cons inline
      have same := ih behind
      simp only [List.replicate_zero, List.nil_append] at same ⊢
      rw [settle, if_neg fun drops => behind drops.2, same]
  | succ n ih => rw [List.replicate_succ, List.cons_append, settle, if_neg (by simp), ih]

theorem settle_settle (gap : List Char) : settle (settle gap) = settle gap := by
  obtain ⟨rest, settled, inline⟩ := exists_settle gap
  rw [settled, settle_replicate _ inline]

theorem run_replicate_iff (n : Nat) (inline : '\n' ∉ rest) :
    breakRun <:+: List.replicate n '\n' ++ rest ↔ 3 ≤ n := by
  have count : (List.replicate n '\n' ++ rest).count '\n' = n := by
    rw [List.count_append, List.count_replicate_self, List.count_eq_zero.mpr inline, Nat.add_zero]
  constructor
  · intro run
    have fewer := run.sublist.count_le '\n'
    rwa [count] at fewer
  · intro many
    obtain ⟨more, rfl⟩ := Nat.exists_eq_add_of_le many
    rw [← List.replicate_append_replicate, List.append_assoc]
    exact (List.prefix_append _ _).isInfix

theorem collapseBreaks_replicate (n : Nat) (inline : '\n' ∉ rest) :
    collapseBreaks (List.replicate n '\n' ++ rest) = List.replicate (min n 2) '\n' ++ rest := by
  induction n with
  | zero => exact collapseBreaks_eq_self_iff.mpr (by rw [run_replicate_iff 0 inline]; decide)
  | succ n ih =>
    rw [List.replicate_succ, List.cons_append, collapseBreaks_cons, ih]
    by_cases many : 2 ≤ n
    · rw [Nat.min_eq_right many, Nat.min_eq_right (by omega)]
      exact squeeze_of_run (breakRun_prefix_iff.mpr ⟨rfl, rest, rfl⟩)
    · have short : ¬ breakRun <+: '\n' :: (List.replicate n '\n' ++ rest) := fun run =>
        many (by have := (run_replicate_iff (n + 1) inline).mp run.isInfix; omega)
      rw [Nat.min_eq_left (by omega), Nat.min_eq_left (by omega), squeeze, if_neg short]
      rfl

/-- A gap that has settled has at most one run, which is cut when it is long. -/
theorem count_collapseBreaks_settle (gap : List Char) :
    (collapseBreaks (settle gap)).count '\n' ≤ 2 := by
  obtain ⟨rest, settled, inline⟩ := exists_settle gap
  rw [settled, collapseBreaks_replicate _ inline, List.count_append, List.count_replicate_self,
    List.count_eq_zero.mpr inline]
  omega

theorem run_settle_iff (gap : List Char) : breakRun <:+: settle gap ↔ 3 ≤ gap.count '\n' := by
  obtain ⟨rest, settled, inline⟩ := exists_settle gap
  rw [settled, run_replicate_iff _ inline]

theorem settle_sublist (gap : List Char) : (settle gap).Sublist gap := by
  induction gap with
  | nil => exact .slnil
  | cons c gap ih =>
    rw [settle]
    split
    · exact ih.cons c
    · exact ih.cons_cons c

theorem trimLineEnds_sublist (cs : List Char) : (trimLineEnds cs).Sublist cs := by
  have shorter := unlines_map_sublist trimEnd_sublist (lines cs)
  rwa [unlines_lines] at shorter

theorem lines_trimLineEnds (cs : List Char) : lines (trimLineEnds cs) = (lines cs).map trimEnd := by
  refine lines_unlines (mt List.map_eq_nil_iff.mp (splitOn_ne_nil '\n' cs)) fun line member => ?_
  obtain ⟨whole, listed, rfl⟩ := List.mem_map.mp member
  exact fun ends => notMem_of_mem_lines cs whole listed ((trimEnd_sublist whole).subset ends)

/-! The passes together. -/

theorem reduceWhitespace_sublist (cs : List Char) : (reduceWhitespace cs).Sublist cs :=
  (trim_sublist _).trans ((trimLineEnds_sublist _).trans (collapseBreaks_sublist cs))

def settled (gap : List Char) : List Char := settle (collapseBreaks gap)

def finish (cs : List Char) : List Char := trimEnd (trimLineEnds (collapseBreaks cs))

theorem blank_collapseBreaks (blank : Blank gap) : Blank (collapseBreaks gap) :=
  blank.sublist (collapseBreaks_sublist gap)

theorem blank_settled (blank : Blank gap) : Blank (settled gap) :=
  (blank_collapseBreaks blank).sublist (settle_sublist _)

theorem blank_trimLineEnds (blank : Blank gap) : Blank (trimLineEnds (collapseBreaks gap)) :=
  (blank_collapseBreaks blank).sublist (trimLineEnds_sublist _)

theorem finish_of_blank (blank : Blank gap) : finish gap = [] :=
  trimEnd_eq_nil_iff.mpr (blank_trimLineEnds blank)

theorem finish_append (blank : Blank gap) (solid : isBlank c = false) (cs : List Char) :
    finish (gap ++ c :: cs) = settled gap ++ c :: finish cs := by
  rw [finish, collapseBreaks_append (ne_lineBreak_of_solid solid),
    trimLineEnds_append (blank_collapseBreaks blank) solid, trimEnd_append solid]
  rfl

theorem reduceWhitespace_of_blank (blank : Blank gap) : reduceWhitespace gap = [] :=
  congrArg trimEnd (trimStart_of_blank (blank_trimLineEnds blank))

theorem reduceWhitespace_append (blank : Blank gap) (solid : isBlank c = false) (cs : List Char) :
    reduceWhitespace (gap ++ c :: cs) = c :: finish cs := by
  calc reduceWhitespace (gap ++ c :: cs)
      = trim (trimLineEnds (collapseBreaks (gap ++ c :: cs))) := rfl
    _ = trim (settled gap ++ c :: trimLineEnds (collapseBreaks cs)) := by
        rw [collapseBreaks_append (ne_lineBreak_of_solid solid),
          trimLineEnds_append (blank_collapseBreaks blank) solid]
        rfl
    _ = trimEnd ([] ++ c :: trimLineEnds (collapseBreaks cs)) := by
        rw [trim, trimStart_append (blank_settled blank) solid, List.nil_append]
    _ = c :: finish cs := by rw [trimEnd_append solid, List.nil_append, finish]

theorem gapsBefore_finish (cs : List Char) : gapsBefore (finish cs) = (gapsBefore cs).map settled := by
  induction cs using gap_induction with
  | blank gap blank => rw [finish_of_blank blank, gapsBefore_of_blank blank]; rfl
  | append gap c cs blank solid ih =>
    rw [finish_append blank solid, gapsBefore_append (blank_settled blank) solid,
      gapsBefore_append blank solid, ih, List.map_cons]

theorem gaps_reduceWhitespace (cs : List Char) :
    gaps (reduceWhitespace cs) = (gaps cs).map settled := by
  induction cs using gap_induction with
  | blank gap blank => rw [reduceWhitespace_of_blank blank, gaps_of_blank blank]; rfl
  | append gap c cs blank solid _ =>
    rw [reduceWhitespace_append blank solid, gaps_append blank solid, ← gapsBefore_finish]
    exact gaps_append blank_nil solid _

theorem run_finish_iff (cs : List Char) :
    breakRun <:+: finish cs ↔ ∃ gap ∈ gapsBefore cs, 3 ≤ (collapseBreaks gap).count '\n' := by
  induction cs using gap_induction with
  | blank gap blank =>
    rw [finish_of_blank blank, gapsBefore_of_blank blank]
    simp [breakRun]
  | append gap c cs blank solid ih =>
    have inline := notMem_breakRun (ne_lineBreak_of_solid solid)
    rw [finish_append blank solid, infix_append_cons_iff inline, ih, settled, run_settle_iff,
      gapsBefore_append blank solid, List.exists_mem_cons_iff]

theorem trimLineEnds_finish (cs : List Char) : trimLineEnds (finish cs) = finish cs := by
  induction cs using gap_induction with
  | blank gap blank => rw [finish_of_blank blank]; rfl
  | append gap c cs blank solid ih =>
    rw [finish_append blank solid, trimLineEnds_append (blank_settled blank) solid, ih, settled,
      settle_settle]

theorem trimmed_reduceWhitespace (cs : List Char) :
    trimLineEnds (reduceWhitespace cs) = reduceWhitespace cs ∧
      trimStart (reduceWhitespace cs) = reduceWhitespace cs ∧
      trimEnd (reduceWhitespace cs) = reduceWhitespace cs := by
  induction cs using gap_induction with
  | blank gap blank => rw [reduceWhitespace_of_blank blank]; exact ⟨rfl, rfl, rfl⟩
  | append gap c cs blank solid _ =>
    have lineEnds : trimLineEnds (c :: finish cs) = c :: trimLineEnds (finish cs) :=
      trimLineEnds_append blank_nil solid _
    have ends : trimEnd (c :: finish cs) = c :: trimEnd (finish cs) := trimEnd_append solid [] _
    have twice : trimEnd (finish cs) = finish cs := trimEnd_trimEnd _
    rw [reduceWhitespace_append blank solid, lineEnds, ends, trimLineEnds_finish, twice]
    exact ⟨rfl, trimStart_append blank_nil solid _, rfl⟩

theorem reduceWhitespace_eq_self_iff (lineEnds : trimLineEnds cs = cs) (start : trimStart cs = cs)
    (ends : trimEnd cs = cs) : reduceWhitespace cs = cs ↔ ¬ breakRun <:+: cs := by
  rw [← collapseBreaks_eq_self_iff]
  constructor
  · intro same
    have shorter : (reduceWhitespace cs).Sublist (collapseBreaks cs) :=
      (trim_sublist _).trans (trimLineEnds_sublist _)
    rw [same] at shorter
    exact (collapseBreaks_sublist cs).antisymm shorter
  · intro same
    calc reduceWhitespace cs
        = trim (trimLineEnds (collapseBreaks cs)) := rfl
      _ = cs := by rw [same, lineEnds, trim, start, ends]

end

/-- Some white space between two other characters has more line breaks in it than one run may keep,
each run of it cut. -/
def Loose (cs : List Char) : Prop := ∃ gap ∈ gaps cs, 3 ≤ (collapseBreaks gap).count '\n'

instance (cs : List Char) : Decidable (Loose cs) :=
  inferInstanceAs (Decidable (∃ gap ∈ gaps cs, 3 ≤ (collapseBreaks gap).count '\n'))

theorem run_reduceWhitespace_iff (cs : List Char) : breakRun <:+: reduceWhitespace cs ↔ Loose cs := by
  induction cs using gap_induction with
  | blank gap blank =>
    rw [reduceWhitespace_of_blank blank, Loose, gaps_of_blank blank]
    simp [breakRun]
  | append gap c cs blank solid _ =>
    have inline := notMem_breakRun (ne_lineBreak_of_solid solid)
    rw [reduceWhitespace_append blank solid, infix_cons_iff_of_notMem inline, run_finish_iff, Loose,
      gaps_append blank solid]
    simp [breakRun]

theorem not_loose_reduceWhitespace (cs : List Char) : ¬ Loose (reduceWhitespace cs) := by
  unfold Loose
  rw [gaps_reduceWhitespace]
  rintro ⟨gap, member, many⟩
  obtain ⟨gap, -, rfl⟩ := List.mem_map.mp member
  have few := count_collapseBreaks_settle (collapseBreaks gap)
  rw [settled] at many
  omega

/-- No line of what is left ends with white space, and it neither starts nor ends with some. It has
three line breaks in a row, and changes when white space is reduced again, exactly if the text is
loose; doing so twice always gives a normal form. -/
theorem reduceWhitespace_normal (cs : List Char) :
    (∀ line ∈ lines (reduceWhitespace cs), ∀ c ∈ line.getLast?, isBlank c = false) ∧
      (∀ c ∈ (reduceWhitespace cs).head?, isBlank c = false) ∧
      (∀ c ∈ (reduceWhitespace cs).getLast?, isBlank c = false) ∧
      (breakRun <:+: reduceWhitespace cs ↔ Loose cs) ∧
      (reduceWhitespace (reduceWhitespace cs) = reduceWhitespace cs ↔ ¬ Loose cs) ∧
      ¬ breakRun <:+: reduceWhitespace (reduceWhitespace cs) ∧
      reduceWhitespace (reduceWhitespace (reduceWhitespace cs)) =
        reduceWhitespace (reduceWhitespace cs) := by
  obtain ⟨lineEnds, start, ends⟩ := trimmed_reduceWhitespace cs
  obtain ⟨lineEnds', start', ends'⟩ := trimmed_reduceWhitespace (reduceWhitespace cs)
  have runs := run_reduceWhitespace_iff cs
  have none : ¬ breakRun <:+: reduceWhitespace (reduceWhitespace cs) := fun run =>
    not_loose_reduceWhitespace cs ((run_reduceWhitespace_iff _).mp run)
  have lineByLine : (lines (reduceWhitespace cs)).map trimEnd =
      (lines (reduceWhitespace cs)).map id := by
    rw [← lines_trimLineEnds, lineEnds, List.map_id]
  refine ⟨fun line member => ?_, trimStart_eq_self_iff.mp start, trimEnd_eq_self_iff.mp ends, runs,
    ?_, none, (reduceWhitespace_eq_self_iff lineEnds' start' ends').mpr none⟩
  · exact trimEnd_eq_self_iff.mp (List.map_inj_left.mp lineByLine line member)
  · rw [reduceWhitespace_eq_self_iff lineEnds start ends, runs]

/-- Line breaks that blanks keep apart are not cut, and stand in one run when the blanks are gone. -/
theorem reduceWhitespace_leaves_run :
    breakRun <:+: reduceWhitespace "a\n \n \nb".toList ∧
      reduceWhitespace "a\n \n \nb".toList = "a\n\n\nb".toList ∧
      reduceWhitespace "a\n\n\nb".toList = "a\n\nb".toList := by
  decide +kernel

/-! No text is lost. -/

theorem foldr_collapseBreaks (cs : List Char) :
    (collapseBreaks cs).foldr lineStep ([], []) = cs.foldr lineStep ([], []) := by
  induction cs with
  | nil => rw [collapseBreaks_nil]
  | cons c cs ih =>
    rw [collapseBreaks_cons, squeeze, List.foldr_cons, ← ih]
    split
    · next run =>
      obtain ⟨rfl, rest, left⟩ := breakRun_prefix_iff.mp run
      rw [left]
      rfl
    · rfl

theorem solidLines_trimLineEnds (cs : List Char) :
    solidLines (trimLineEnds cs) = (solidLines cs).map trimEnd := by
  have kind : ∀ line : List Char, (trimEnd line).all isBlank = line.all isBlank := fun line => by
    rw [Bool.eq_iff_iff, all_isBlank_iff, all_isBlank_iff, trimEnd_trimEnd]
  rw [solidLines, lines_trimLineEnds, List.filter_map, solidLines]
  congr 2
  funext line
  exact congrArg not (kind line)

/-- The lines that hold more than white space stay, in their order, without the white space at their
ends, and only the first loses white space in front. So the words stay. -/
theorem reduceWhitespace_keeps_lines (cs : List Char) :
    solidLines (reduceWhitespace cs) = ((solidLines cs).map trimEnd).modifyHead trimStart ∧
      words (reduceWhitespace cs) = words cs := by
  have still : ∀ c, isBlank c = true → lineStep c ([], []) = ([], []) := fun c blank =>
    lineStep_of_blank blank []
  have twice : (solidLines (collapseBreaks cs)).map (trimEnd ∘ trimEnd) =
      (solidLines (collapseBreaks cs)).map trimEnd :=
    List.map_congr_left fun line _ => trimEnd_trimEnd line
  have kept : solidLines (reduceWhitespace cs) =
      ((solidLines cs).map trimEnd).modifyHead trimStart := by
    conv => lhs; rw [← (trimmed_reduceWhitespace cs).1]
    calc solidLines (trimLineEnds (reduceWhitespace cs))
        = finishLine ((reduceWhitespace cs).foldr lineStep ([], [])) := by
          rw [solidLines_trimLineEnds, finishLine_foldr]
      _ = finishLine ((trimStart (trimLineEnds (collapseBreaks cs))).foldr lineStep ([], [])) :=
          congrArg finishLine (foldr_trimEnd still _)
      _ = ((solidLines (trimLineEnds (collapseBreaks cs))).map trimEnd).modifyHead trimStart := by
          rw [finishLine_foldr_trimStart, finishLine_foldr]
      _ = ((solidLines (collapseBreaks cs)).map trimEnd).modifyHead trimStart := by
          rw [solidLines_trimLineEnds, List.map_map, twice]
      _ = ((solidLines cs).map trimEnd).modifyHead trimStart := by
          rw [← finishLine_foldr, foldr_collapseBreaks, finishLine_foldr]
  refine ⟨kept, ?_⟩
  rw [words_eq_flatMap, kept, flatMap_words_modifyHead, flatMap_words_map_trimEnd,
    ← words_eq_flatMap]

example : reduceWhitespace "\n  def f(): \n\n \n\n\n\t    pass\u0085\n".toList =
    "def f():\n\n\n\n\t    pass".toList := by decide +kernel

end PromptPack.Transform
