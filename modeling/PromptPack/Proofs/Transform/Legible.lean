import PromptPack.Proofs.Transform.Script

/-! Scripts that keep their code. Hash comments go first, line by line, and without a state that
outlasts a line; then everything from one fence to the next goes. In a legible script the two agree
with the reading of the language: outside blocks both readings go in step, and the search for a
closer comes to where the block ends. Main statement: `stripComments_keeps_code`. -/

namespace PromptPack.Transform.Script

open Text

section

variable {state : State} {line next : LineState} {unpaired : Option Char} {mark c : Char}
  {cs inner body rest : List Char}

/-! Docstrings, as they are taken out. -/

theorem docstrings_of_none (other : tripleAhead (c :: cs) = false) :
    docstrings.apply (c :: cs) = c :: docstrings.apply cs := by
  have unfenced : ∀ mark, isQuoteMark mark = true → ¬ fence mark <+: c :: cs :=
    fun mark quote ahead => absurd (tripleAhead_of_fence quote ahead) (by simp [other])
  have double := Removal.enclosed_eq_none (fence '"') (unfenced '"' rfl)
  have single := Removal.enclosed_eq_none (fence '\'') (unfenced '\'' rfl)
  exact Removal.apply_cons_of_none ((Removal.orElse_of_none double).trans single)

theorem docstrings_of_block (quote : isQuoteMark mark = true)
    (closed : breakOn? (fence mark) inner = some (body, rest)) :
    docstrings.apply (fence mark ++ inner) = docstrings.apply rest := by
  rcases isQuoteMark_iff.mp quote with rfl | rfl
  · obtain ⟨suffix, found⟩ := Removal.enclosed_eq_some '\'' ['\'', '\''] closed
    have unfenced : ¬ fence '"' <+: '\'' :: (['\'', '\''] ++ inner) := not_fence_of_ne (by decide)
    have unopened := Removal.enclosed_eq_none (fence '"') unfenced
    exact Removal.apply_cons_of_some suffix ((Removal.orElse_of_none unopened).trans found)
  · obtain ⟨suffix, found⟩ := Removal.enclosed_eq_some '"' ['"', '"'] closed
    exact Removal.apply_cons_of_some suffix (Removal.orElse_of_some found)

/-! Legible scripts. -/

/-- The mark that is open behind a character when marks are paired line by line. -/
def pairOnLine (unpaired : Option Char) (c : Char) : Option Char :=
  if c = '\n' then none else pairMark unpaired c

structure Place where
  state : State
  unpaired : Option Char
  rest : List Char

def places : State → Option Char → List Char → List Place
  | state, unpaired, [] => [⟨state, unpaired, []⟩]
  | state, unpaired, c :: cs =>
    ⟨state, unpaired, c :: cs⟩ :: places (state.next c cs).1 (pairOnLine unpaired c) cs

namespace Place

def LooksComment (place : Place) : Prop := place.unpaired = none ∧ hashAhead place.rest = true

instance : DecidablePred LooksComment := fun place =>
  inferInstanceAs (Decidable (place.unpaired = none ∧ hashAhead place.rest = true))

/-- A block goes on here, and what looks like a comment in it does not reach its closer. -/
def InBlock (mark : Char) (place : Place) : Prop :=
  place.rest ≠ [] ∧
    (place.LooksComment → ¬ fence mark <:+: place.rest.takeWhile (· != '\n'))

instance (mark : Char) : DecidablePred (InBlock mark) := fun place =>
  inferInstanceAs (Decidable (place.rest ≠ [] ∧
    (place.LooksComment → ¬ fence mark <:+: place.rest.takeWhile (· != '\n'))))

/-- What the language reads here is read alike line by line, and fences are where blocks open and
close. -/
def Clear (place : Place) : Prop :=
  match place.state with
  | .code => hashAhead place.rest = true → place.unpaired = none
  | .interpreter => tripleAhead place.rest = false
  | .literal _ | .escaped _ => ¬ place.LooksComment ∧ tripleAhead place.rest = false
  | .block mark => place.InBlock mark
  | .blockEscaped mark => place.InBlock mark ∧ ¬ fence mark <+: place.rest
  | .comment | .opening _ _ | .closing _ => True

instance : DecidablePred Clear
  | ⟨.code, unpaired, rest⟩ => inferInstanceAs (Decidable (hashAhead rest = true → unpaired = none))
  | ⟨.interpreter, _, rest⟩ => inferInstanceAs (Decidable (tripleAhead rest = false))
  | ⟨.literal mark, unpaired, rest⟩ => inferInstanceAs
    (Decidable (¬ LooksComment ⟨.literal mark, unpaired, rest⟩ ∧ tripleAhead rest = false))
  | ⟨.escaped mark, unpaired, rest⟩ => inferInstanceAs
    (Decidable (¬ LooksComment ⟨.escaped mark, unpaired, rest⟩ ∧ tripleAhead rest = false))
  | ⟨.block mark, unpaired, rest⟩ => inferInstanceAs
    (Decidable (InBlock mark ⟨.block mark, unpaired, rest⟩))
  | ⟨.blockEscaped mark, unpaired, rest⟩ => inferInstanceAs
    (Decidable (InBlock mark ⟨.blockEscaped mark, unpaired, rest⟩ ∧ ¬ fence mark <+: rest))
  | ⟨.comment, _, _⟩ | ⟨.opening _ _, _, _⟩ | ⟨.closing _, _, _⟩ => .isTrue trivial

end Place

theorem next_reading_stays (inside : ¬ (unpaired = none ∧ hashAhead (c :: cs) = true)) :
    LineState.next (.reading unpaired) c cs = (.reading (pairOnLine unpaired c), true) := by
  unfold pairOnLine
  by_cases ends : c = '\n'
  · rw [LineState.next, if_pos ends, if_pos ends]
  · rw [LineState.next, if_neg ends, if_neg inside, if_neg ends]

theorem endsLine_eq (plain : c ≠ '\r') : endsLine c = (c == '\n') := by
  simp [endsLine, plain]

/-- The state of the line reader that goes in step with a state outside blocks. -/
def State.onLine? (unpaired : Option Char) : State → Option LineState
  | .code | .literal _ | .escaped _ => some (.reading unpaired)
  | .comment => some .dropping
  | .interpreter => some .keeping
  | .opening _ _ | .block _ | .blockEscaped _ | .closing _ => none

theorem step_onLine (inStep : state.onLine? unpaired = some line)
    (clear : Place.Clear ⟨state, unpaired, c :: cs⟩) (plain : c ≠ '\r')
    (unopened : state = .code → tripleAhead (c :: cs) = false) :
    (state.next c cs).1.onLine? (pairOnLine unpaired c) = some (line.next c cs).1 ∧
      (line.next c cs).2 = (state.next c cs).2.stays ∧
      ((state.next c cs).2.stays = true → tripleAhead (c :: cs) = false) := by
  have ends := endsLine_eq plain
  cases state with
  | code =>
    cases inStep
    have unopened := unopened rfl
    by_cases ahead : hashAhead (c :: cs) = true
    · obtain rfl : unpaired = none := clear ahead
      have inside := ne_of_hashAhead ahead
      simp [next_reading_goes ahead, State.next, State.inCode, ends, inside, ahead, Region.stays,
        State.onLine?]
    · rw [next_reading_stays fun looks => ahead looks.2]
      simp only [State.next, State.inCode, unopened, ahead]
      split_ifs <;> simp_all [State.onLine?, Region.stays]
  | literal mark =>
    cases inStep
    rw [next_reading_stays clear.1]
    simp only [State.next]
    split_ifs <;> simp [State.onLine?, Region.stays, clear.2]
  | escaped mark =>
    cases inStep
    rw [next_reading_stays clear.1]
    simp [State.next, plain, State.onLine?, Region.stays, clear.2]
  | comment =>
    cases inStep
    simp only [State.next, LineState.next, ends]
    by_cases inside : c = '\n'
    · simp [inside, State.onLine?, Region.stays, pairOnLine, tripleAhead, isQuoteMark]
    · simp [inside, State.onLine?, Region.stays]
  | interpreter =>
    cases inStep
    simp only [State.next, LineState.next, ends]
    by_cases inside : c = '\n'
    · simp [inside, State.onLine?, Region.stays, pairOnLine, tripleAhead, isQuoteMark]
    · have unfenced : tripleAhead (c :: cs) = false := clear
      simp [inside, State.onLine?, Region.stays, unfenced]
  | opening | block | blockEscaped | closing => cases inStep

/-! Blocks. -/

theorem tripleAhead_uncommented (unfenced : tripleAhead (c :: cs) = false)
    (written : line.next c cs = (next, true)) :
    tripleAhead (c :: uncommented next cs) = false := by
  by_contra ahead
  obtain ⟨mark, quote, fenced⟩ := tripleAhead_iff.mp (by simpa using ahead)
  rw [← uncommented_written written] at fenced
  rw [tripleAhead_of_fence quote (isPrefix_of_uncommented (n := 3) quote fenced)] at unfenced
  cases unfenced

/-- The line reader in a block: it reads, or it drops the rest of a line that closes nothing. -/
def BlockLine (mark : Char) (unpaired : Option Char) (cs : List Char) (line : LineState) : Prop :=
  line = .reading unpaired ∨
    line = .dropping ∧ ¬ fence mark <:+: cs.takeWhile (· != '\n')

theorem BlockLine.step (onLine : BlockLine mark unpaired (c :: cs) line)
    (inBlock : Place.InBlock mark ⟨state, unpaired, c :: cs⟩) :
    BlockLine mark (pairOnLine unpaired c) cs (line.next c cs).1 := by
  have shorter : c ≠ '\n' → ¬ fence mark <:+: (c :: cs).takeWhile (· != '\n') →
      ¬ fence mark <:+: cs.takeWhile (· != '\n') := by
    intro inside open_ closed
    rw [List.takeWhile_cons_of_pos (by simpa using inside)] at open_
    exact open_ (closed.trans (List.suffix_cons c _).isInfix)
  rcases onLine with rfl | ⟨rfl, open_⟩
  · by_cases looks : unpaired = none ∧ hashAhead (c :: cs) = true
    · obtain ⟨rfl, ahead⟩ := looks
      have inside := ne_of_hashAhead ahead
      rw [next_reading_goes ahead]
      exact .inr ⟨rfl, shorter inside (inBlock.2 ⟨rfl, ahead⟩)⟩
    · rw [next_reading_stays looks]
      exact .inl rfl
  · by_cases ends : c = '\n'
    · rw [ends, next_lineBreak]
      exact .inl rfl
    · rw [next_dropping ends]
      exact .inr ⟨rfl, shorter ends open_⟩

theorem uncommented_fence (quote : isQuoteMark mark = true) (unpaired : Option Char)
    (cs : List Char) :
    uncommented (.reading unpaired) (fence mark ++ cs) =
      fence mark ++ uncommented (.reading ((fence mark).foldl pairOnLine unpaired)) cs := by
  have stays (unpaired : Option Char) (cs : List Char) :
      uncommented (.reading unpaired) (mark :: cs) =
        mark :: uncommented (.reading (pairOnLine unpaired mark)) cs := by
    refine uncommented_written (next_reading_stays fun looks => ?_)
    rcases isQuoteMark_iff.mp quote with rfl | rfl <;> cases looks.2
  simp only [fence, List.cons_append, List.nil_append, stays, List.foldl_cons, List.foldl_nil]

theorem read_fence {first second third fourth : State}
    (one : first.next mark (mark :: mark :: cs) = (second, .block))
    (two : second.next mark (mark :: cs) = (third, .block))
    (three : third.next mark cs = (fourth, .block)) (unpaired : Option Char) :
    remaining (read first (fence mark ++ cs)) = remaining (read fourth cs) ∧
      places fourth ((fence mark).foldl pairOnLine unpaired) cs ⊆
        places first unpaired (fence mark ++ cs) := by
  constructor
  · simp [fence, read, remaining, one, two, three, Region.stays]
  · intro place member
    simp only [fence, List.cons_append, List.nil_append, places, one, two, three]
    exact .tail _ (.tail _ (.tail _ member))

theorem next_opener (quote : isQuoteMark mark = true) (cs : List Char) :
    State.next .code mark (mark :: mark :: cs) = (.opening mark 1, .block) := by
  rcases isQuoteMark_iff.mp quote with rfl | rfl <;> rfl

theorem next_closer (quote : isQuoteMark mark = true) (cs : List Char) :
    State.next (.block mark) mark (mark :: mark :: cs) = (.closing 1, .block) := by
  rw [State.next, if_neg (ne_of_isQuoteMark quote).2, if_pos ⟨cs, rfl⟩]

theorem BlockLine.eq_reading (quote : isQuoteMark mark = true)
    (onLine : BlockLine mark unpaired (fence mark ++ cs) line) : line = .reading unpaired := by
  rcases onLine with reads | ⟨_, open_⟩
  · exact reads
  · refine absurd ?_ open_
    rw [List.takeWhile_append_of_pos fun c member => ?_]
    · exact (List.prefix_append _ _).isInfix
    · obtain rfl : c = mark := by simpa [fence] using member
      simpa using (ne_of_isQuoteMark quote).1

theorem next_block (inBlock : state = .block mark ∨ state = .blockEscaped mark)
    (absent : ¬ fence mark <+: c :: cs) :
    (state.next c cs).2 = .block ∧
      ((state.next c cs).1 = .block mark ∨ (state.next c cs).1 = .blockEscaped mark) := by
  rcases inBlock with rfl | rfl
  · simp only [State.next]
    rw [if_neg absent]
    split
    · exact ⟨rfl, .inr rfl⟩
    · exact ⟨rfl, .inl rfl⟩
  · exact ⟨rfl, .inl rfl⟩

/-- The search for a closer in what is left of a block comes to where the script closes it. -/
theorem breakOnto?_block (quote : isQuoteMark mark = true)
    (inBlock : state = .block mark ∨ state = .blockEscaped mark)
    (onLine : BlockLine mark unpaired cs line)
    (clear : ∀ place ∈ places state unpaired cs, place.Clear) (passed : List Char) :
    ∃ body rest unpaired', rest <:+ cs ∧
      breakOnto? (fence mark) passed (uncommented line cs) =
        some (body, uncommented (.reading unpaired') rest) ∧
      remaining (read state cs) = remaining (read .code rest) ∧
      ∀ place ∈ places .code unpaired' rest, place.Clear := by
  induction cs generalizing state unpaired line passed with
  | nil =>
    have here := clear _ List.mem_cons_self
    rcases inBlock with rfl | rfl
    · exact absurd rfl here.1
    · exact absurd rfl here.1.1
  | cons c cs ih =>
    by_cases closes : state = .block mark ∧ fence mark <+: c :: cs
    · obtain ⟨rfl, rest, joined⟩ := closes
      rw [← joined] at onLine clear ⊢
      obtain rfl := onLine.eq_reading quote
      obtain ⟨goes, fewer⟩ := read_fence (next_closer quote rest) rfl rfl unpaired
      refine ⟨passed.reverse, rest, _, List.suffix_append _ _, ?_, goes, fun place member =>
        clear place (fewer member)⟩
      rw [uncommented_fence quote]
      exact breakOnto?_append (List.cons_ne_nil mark [mark, mark]) passed _
    · obtain ⟨here, behind⟩ := List.forall_mem_cons.mp clear
      have absent : ¬ fence mark <+: c :: cs := by
        rcases inBlock with rfl | rfl
        · exact fun ahead => closes ⟨rfl, ahead⟩
        · exact here.2
      have within : Place.InBlock mark ⟨state, unpaired, c :: cs⟩ := by
        rcases inBlock with rfl | rfl
        · exact here
        · exact here.1
      -- The block goes on; the line reader may stop writing, but not on a line with the closer.
      obtain ⟨goes, goesOn⟩ := next_block inBlock absent
      have found := ih goesOn (onLine.step within) behind
      have same : remaining (read state (c :: cs)) = remaining (read (state.next c cs).1 cs) :=
        remaining_read_goes (by rw [goes]; rfl)
      cases reads : line.next c cs with
      | mk next stays =>
        rw [reads] at found
        cases stays with
        | true =>
          obtain ⟨body, rest, unpaired', suffix, broken, left, clear⟩ := found (c :: passed)
          have unfenced : ¬ fence mark <+: c :: uncommented next cs := by
            rw [← uncommented_written reads]
            exact fun ahead => absent (isPrefix_of_uncommented (n := 3) quote ahead)
          refine ⟨body, rest, unpaired', suffix.trans (List.suffix_cons c cs), ?_,
            same.trans left, clear⟩
          rw [uncommented_written reads, breakOnto?_cons unfenced, broken]
        | false =>
          obtain ⟨body, rest, unpaired', suffix, broken, left, clear⟩ := found passed
          refine ⟨body, rest, unpaired', suffix.trans (List.suffix_cons c cs), ?_,
            same.trans left, clear⟩
          rw [uncommented_dropped reads, broken]

/-! The whole script. -/

theorem docstrings_uncommented (inStep : state.onLine? unpaired = some line)
    (clear : ∀ place ∈ places state unpaired cs, place.Clear) (plain : '\r' ∉ cs) :
    docstrings.apply (uncommented line cs) = remaining (read state cs) := by
  induction length : cs.length using Nat.strongRecOn generalizing state unpaired line cs with
  | ind n ih =>
    cases cs with
    | nil => exact scan_nil _
    | cons c cs =>
      -- A block is left at once, so the induction is on the length.
      by_cases opens : state = .code ∧ tripleAhead (c :: cs) = true
      · obtain ⟨rfl, ahead⟩ := opens
        obtain ⟨mark, quote, inner, joined⟩ := tripleAhead_iff.mp ahead
        rw [← joined] at clear plain length ⊢
        cases inStep
        obtain ⟨goes, fewer⟩ := read_fence (next_opener quote inner) rfl rfl unpaired
        obtain ⟨body, rest, unpaired', suffix, broken, left, clear⟩ :=
          breakOnto?_block quote (.inl rfl) (.inl rfl)
            (fun place member => clear place (fewer member)) []
        rw [uncommented_fence quote, docstrings_of_block quote broken, goes, left]
        have shorter := suffix.length_le
        refine ih rest.length ?_ rfl clear (fun member => ?_) rfl
        · rw [List.length_append] at length
          simp only [fence, List.length_cons] at length
          omega
        · exact plain (List.mem_append_right _ (suffix.mem member))
      · obtain ⟨here, behind⟩ := List.forall_mem_cons.mp clear
        obtain ⟨inStep, same, unfenced⟩ := step_onLine inStep here
          (Ne.symm (List.ne_of_not_mem_cons plain))
          fun code => by simpa [code] using opens
        rw [List.length_cons] at length
        have tail := ih cs.length (by omega) inStep behind (List.not_mem_of_not_mem_cons plain) rfl
        cases reads : line.next c cs with
        | mk next stays =>
          rw [reads] at same tail
          cases stays with
          | true =>
            rw [uncommented_written reads, remaining_read_stays same.symm,
              docstrings_of_none (tripleAhead_uncommented (unfenced same.symm) reads), tail]
          | false => rw [uncommented_dropped reads, remaining_read_goes same.symm, tail]

theorem onLine_start (cs : List Char) : (start cs).onLine? none = some (.start cs) := by
  unfold start LineState.start
  split <;> rfl

theorem stripComments_eq (cs : List Char) :
    stripComments "py" cs = docstrings.apply (uncommented (.start cs) cs) := by
  rw [← unlines_stripHashLines]
  rfl

end

/-- A script that reads the same line by line as its language reads it, as far as it is kept. -/
def Legible (cs : List Char) : Prop := ∀ place ∈ places (start cs) none cs, place.Clear

instance (cs : List Char) : Decidable (Legible cs) :=
  inferInstanceAs (Decidable (∀ place ∈ places (start cs) none cs, place.Clear))

theorem stripComments_eq_remaining {cs : List Char} (legible : Legible cs) (plain : '\r' ∉ cs) :
    stripComments "py" cs = remaining (reading cs) :=
  (stripComments_eq cs).trans (docstrings_uncommented (onLine_start cs) legible plain)

/-- Of a legible script the code and the literals of one line stay, each character once and in its
place, whatever stands between two blocks. -/
theorem stripComments_keeps_code {cs : List Char} (legible : Legible cs) (plain : '\r' ∉ cs) :
    stripComments "py" cs = remaining (reading cs) ∧
      (reading cs).map Prod.snd = cs ∧
      ∀ before stretch after, reading cs = before ++ stretch ++ after →
        (∀ entry ∈ stretch, entry.1.stays = true) →
        stripComments "py" cs = remaining before ++ stretch.map Prod.snd ++ remaining after := by
  have same := stripComments_eq_remaining legible plain
  refine ⟨same, map_snd_read _ cs, ?_⟩
  intro before stretch after cut stays
  rw [same, cut, remaining_append, remaining_append, remaining_of_stays stays]

def twoFunctions : List Char :=
  unlines (["#! run", "'''It's issue #1,", "in two lines.'''", "def f(s=\"it's # f\"):  # f's own",
    "    \"\"\"First \\\" one.", "    # inside", "    \"\"\"", "    return 'a'", "",
    "def g():", "    \"\"\"Second.\"\"\"", "    return f('\\'')", ""].map String.toList)

theorem stripComments_keeps_code_twoFunctions :
    Legible twoFunctions ∧ '\r' ∉ twoFunctions ∧
      stripComments "py" twoFunctions =
        unlines (["#! run", "", "def f(s=\"it's # f\"):", "    ", "    return 'a'", "",
          "def g():", "    ", "    return f('\\'')", ""].map String.toList) ∧
      ∃ before stretch after, reading twoFunctions = before ++ stretch ++ after ∧
        stretch.map Prod.snd = "\n    return 'a'\n\ndef g():\n    ".toList ∧
        stripComments "py" twoFunctions =
          remaining before ++ stretch.map Prod.snd ++ remaining after := by
  have legible : Legible twoFunctions := by decide +kernel
  have plain : '\r' ∉ twoFunctions := by decide +kernel
  obtain ⟨same, _, stretches⟩ := stripComments_keeps_code legible plain
  have cut := cut_at (reading twoFunctions) 115 30
  exact ⟨legible, plain, same.trans (by decide +kernel), _, _, _, cut, by decide +kernel,
    stretches _ _ _ cut (by decide +kernel)⟩

def hashAtCloser : List Char :=
  unlines (["def f():", "    \"\"\"Close", "    issue #12.\"\"\"", "    return 1", "",
    "def g():", "    \"\"\"Second.\"\"\"", "    return 2", ""].map String.toList)

/-- The closer goes with what looks like a comment, the block runs on to the next opener, and the
code in between goes with it. -/
theorem stripComments_loses_code :
    remaining (reading hashAtCloser) =
        unlines (["def f():", "    ", "    return 1", "", "def g():", "    ", "    return 2",
          ""].map String.toList) ∧
      stripComments "py" hashAtCloser =
        unlines (["def f():", "    Second.\"\"\"", "    return 2", ""].map String.toList) ∧
      ¬ (remaining (reading hashAtCloser)).Sublist (stripComments "py" hashAtCloser) := by
  refine ⟨?_, ?_, ?_⟩ <;> decide +kernel

end PromptPack.Transform.Script
