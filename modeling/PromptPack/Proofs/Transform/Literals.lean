import Mathlib.Data.List.Forall2
import PromptPack.Proofs.Transform.Legible

/-! Literals of a script. Without blocks, the literals stay as they stand exactly if no place inside
one looks like a comment when marks are paired line by line; a backslash in front of a mark, or of a
line break, can make it look so. Blocks go, be they docstrings or values. Main statement:
`stripComments_keeps_literals`. -/

namespace PromptPack.Transform.Script

open Text

def State.inLiteral : State → Bool
  | .literal _ | .escaped _ => true
  | _ => false

def Untripled (cs : List Char) : Prop := ¬ fence '\'' <:+: cs ∧ ¬ fence '"' <:+: cs

def LiteralsWritten (state : State) (line : LineState) (cs : List Char) : Prop :=
  List.Forall₂ (fun entry written => entry.1 = .literal → written.1 = true) (read state cs)
    (readLines line cs)

section

variable {state : State} {line : LineState} {unpaired : Option Char} {c : Char} {cs : List Char}
  {before stretch after : List (Region × Char)}

theorem Untripled.tail (untripled : Untripled (c :: cs)) : Untripled cs :=
  ⟨fun inside => untripled.1 (inside.trans (List.suffix_cons c cs).isInfix),
    fun inside => untripled.2 (inside.trans (List.suffix_cons c cs).isInfix)⟩

theorem Untripled.unfenced (untripled : Untripled cs) : tripleAhead cs = false := by
  by_contra ahead
  obtain ⟨mark, quote, fenced⟩ := tripleAhead_iff.mp (by simpa using ahead)
  rcases isQuoteMark_iff.mp quote with rfl | rfl
  · exact untripled.1 fenced.isInfix
  · exact untripled.2 fenced.isInfix

theorem docstrings_untripled (untripled : Untripled cs) (line : LineState) :
    docstrings.apply (uncommented line cs) = uncommented line cs := by
  induction cs generalizing line with
  | nil => exact scan_nil _
  | cons c cs ih =>
    cases reads : line.next c cs with
    | mk next stays =>
      have tail := ih untripled.tail next
      cases stays with
      | true =>
        rw [uncommented_written reads,
          docstrings_of_none (tripleAhead_uncommented untripled.unfenced reads), tail]
      | false => rw [uncommented_dropped reads, tail]

/-! If no place in a literal looks like a comment, literals are written. -/

/-- In literals, and in code between them, the line reader reads with the marks that are open. -/
def Reads (state : State) (unpaired : Option Char) (line : LineState) : Prop :=
  (state = .comment ∨ state = .interpreter) ∨
    (state = .code ∨ state.inLiteral = true) ∧ line = .reading unpaired

theorem next_restOfLine (toBreak : state = .comment ∨ state = .interpreter) (plain : c ≠ '\r')
    (cs : List Char) :
    (state.next c cs).1 = (if c = '\n' then .code else state) ∧
      (state.next c cs).2 ≠ .literal := by
  rcases toBreak with rfl | rfl <;>
  · simp only [State.next, endsLine_eq plain, beq_iff_eq]
    split <;> simp

theorem Reads.step (reads : Reads state unpaired line) (unfenced : tripleAhead (c :: cs) = false)
    (plain : c ≠ '\r')
    (quiet : state.inLiteral = true → ¬ Place.LooksComment ⟨state, unpaired, c :: cs⟩) :
    Reads (state.next c cs).1 (pairOnLine unpaired c) (line.next c cs).1 ∧
      ((state.next c cs).2 = .literal → (line.next c cs).2 = true) := by
  have ends := endsLine_eq plain
  obtain toBreak | ⟨outside, rfl⟩ := reads
  · obtain ⟨goesOn, other⟩ := next_restOfLine toBreak plain cs
    refine ⟨?_, fun literal => absurd literal other⟩
    rw [goesOn]
    split
    · next last =>
      rw [last, next_lineBreak]
      exact .inr ⟨.inl rfl, rfl⟩
    · exact .inl toBreak
  · by_cases drops : state = .code ∧ hashAhead (c :: cs) = true
    · obtain ⟨rfl, ahead⟩ := drops
      have inside := ne_of_hashAhead ahead
      simp [State.next, State.inCode, ends, inside, ahead, Reads]
    · have goesOn : ¬ (unpaired = none ∧ hashAhead (c :: cs) = true) := by
        rcases outside with rfl | inside
        · exact fun looks => drops ⟨rfl, looks.2⟩
        · exact quiet inside
      rw [next_reading_stays goesOn]
      refine ⟨.inr ⟨?_, rfl⟩, fun _ => rfl⟩
      cases state with
      | code =>
        simp only [State.next, State.inCode, unfenced]
        split_ifs <;> simp_all [State.inLiteral]
      | literal mark =>
        simp only [State.next]
        split_ifs <;> simp [State.inLiteral]
      | escaped mark => simp [State.next, plain, State.inLiteral]
      | comment | interpreter | opening | block | blockEscaped | closing =>
        simp [State.inLiteral] at outside

theorem literalsWritten_of_quiet (reads : Reads state unpaired line) (untripled : Untripled cs)
    (plain : '\r' ∉ cs)
    (quiet : ∀ place ∈ places state unpaired cs, place.state.inLiteral = true →
      ¬ place.LooksComment) : LiteralsWritten state line cs := by
  induction cs generalizing state unpaired line with
  | nil => exact .nil
  | cons c cs ih =>
    obtain ⟨here, behind⟩ := List.forall_mem_cons.mp quiet
    obtain ⟨reads, written⟩ :=
      reads.step untripled.unfenced (Ne.symm (List.ne_of_not_mem_cons plain)) here
    exact .cons written (ih reads untripled.tail (List.not_mem_of_not_mem_cons plain) behind)

/-! If literals are written, no place in one looks like a comment. -/

/-- The line reader drops, or pairs the marks as they are paired at the place. -/
def Pairs (state : State) (unpaired : Option Char) (line : LineState) : Prop :=
  line = .reading unpaired ∨ line = .dropping ∨ state = .interpreter ∧ line = .keeping

theorem Pairs.step (pairs : Pairs state unpaired line) (plain : c ≠ '\r') :
    Pairs (state.next c cs).1 (pairOnLine unpaired c) (line.next c cs).1 := by
  by_cases ends : c = '\n'
  · rw [ends, next_lineBreak]
    exact .inl rfl
  · obtain rfl | rfl | ⟨rfl, rfl⟩ := pairs
    · by_cases looks : unpaired = none ∧ hashAhead (c :: cs) = true
      · obtain ⟨rfl, ahead⟩ := looks
        rw [next_reading_goes ahead]
        exact .inr (.inl rfl)
      · rw [next_reading_stays looks]
        exact .inl rfl
    · rw [next_dropping ends]
      exact .inr (.inl rfl)
    · simp [State.next, endsLine_eq plain, ends, LineState.next, Pairs]

theorem Pairs.not_written (pairs : Pairs state unpaired line) (plain : c ≠ '\r')
    (inside : state.inLiteral = true) (looks : Place.LooksComment ⟨state, unpaired, c :: cs⟩) :
    (state.next c cs).2 = .literal ∧ (line.next c cs).2 = false := by
  obtain ⟨paired, ahead⟩ := looks
  obtain rfl : unpaired = none := paired
  have sameLine := ne_of_hashAhead ahead
  constructor
  · cases state with
    | literal mark =>
      simp only [State.next, endsLine_eq plain]
      split_ifs <;> simp_all
    | escaped mark => rfl
    | code | comment | interpreter | opening | block | blockEscaped | closing => cases inside
  · obtain rfl | rfl | ⟨rfl, -⟩ := pairs
    · rw [next_reading_goes ahead]
    · rw [next_dropping sameLine]
    · cases inside

theorem quiet_of_literalsWritten (pairs : Pairs state unpaired line) (plain : '\r' ∉ cs)
    (written : LiteralsWritten state line cs) :
    ∀ place ∈ places state unpaired cs, place.state.inLiteral = true → ¬ place.LooksComment := by
  induction cs generalizing state unpaired line with
  | nil =>
    intro place member _ looks
    obtain rfl := List.mem_singleton.mp member
    exact Bool.false_ne_true looks.2
  | cons c cs ih =>
    obtain ⟨here, behind⟩ := List.forall₂_cons.mp written
    have first : c ≠ '\r' := Ne.symm (List.ne_of_not_mem_cons plain)
    refine List.forall_mem_cons.mpr ⟨fun inside looks => ?_,
      ih (pairs.step first) (List.not_mem_of_not_mem_cons plain) behind⟩
    obtain ⟨literal, dropped⟩ := pairs.not_written first inside looks
    cases dropped.symm.trans (here literal)

/-! Literals that are written stay as they stand. -/

theorem LiteralsWritten.starts_with (written : LiteralsWritten state line cs)
    (cut : read state cs = stretch ++ after) (literal : ∀ entry ∈ stretch, entry.1 = .literal) :
    ∃ back, back.Sublist (after.map Prod.snd) ∧
      uncommented line cs = stretch.map Prod.snd ++ back := by
  induction stretch generalizing state line cs with
  | nil =>
    refine ⟨uncommented line cs, ?_, rfl⟩
    rw [← List.nil_append after, ← cut, map_snd_read]
    exact uncommented_sublist line cs
  | cons entry stretch ih =>
    obtain ⟨first, others⟩ := List.forall_mem_cons.mp literal
    cases cs with
    | nil => cases cut
    | cons c cs =>
      obtain ⟨here, behind⟩ := List.forall₂_cons.mp written
      obtain ⟨rfl, tail⟩ := List.cons.inj cut
      obtain ⟨back, shorter, joined⟩ := ih behind tail others
      have stays : line.next c cs = ((line.next c cs).1, true) := Prod.ext rfl (here first)
      exact ⟨back, shorter, by rw [uncommented_written stays, joined]; rfl⟩

theorem LiteralsWritten.stay (written : LiteralsWritten state line cs)
    (cut : read state cs = before ++ stretch ++ after)
    (literal : ∀ entry ∈ stretch, entry.1 = .literal) :
    ∃ front back, front.Sublist (before.map Prod.snd) ∧ back.Sublist (after.map Prod.snd) ∧
      uncommented line cs = front ++ stretch.map Prod.snd ++ back := by
  induction before generalizing state line cs with
  | nil =>
    obtain ⟨back, shorter, joined⟩ := written.starts_with cut literal
    exact ⟨[], back, .slnil, shorter, joined⟩
  | cons entry before ih =>
    cases cs with
    | nil => cases cut
    | cons c cs =>
      obtain ⟨_, behind⟩ := List.forall₂_cons.mp written
      obtain ⟨rfl, tail⟩ := List.cons.inj cut
      obtain ⟨front, back, fewer, shorter, joined⟩ := ih behind tail
      cases reads : line.next c cs with
      | mk next stays =>
        rw [reads] at joined
        cases stays with
        | true =>
          exact ⟨c :: front, back, fewer.cons_cons c, shorter, by
            rw [uncommented_written reads, joined]; rfl⟩
        | false =>
          exact ⟨front, back, fewer.cons c, shorter, by rw [uncommented_dropped reads, joined]⟩

theorem reads_start (cs : List Char) : Reads (start cs) none (.start cs) := by
  unfold start LineState.start
  split
  · exact .inl (.inr rfl)
  · exact .inr ⟨.inl rfl, rfl⟩

theorem pairs_start (cs : List Char) : Pairs (start cs) none (.start cs) := by
  unfold start LineState.start
  split
  · exact .inr (.inr ⟨rfl, rfl⟩)
  · exact .inl rfl

end

def Quiet (cs : List Char) : Prop :=
  ∀ place ∈ places (start cs) none cs, place.state.inLiteral = true → ¬ place.LooksComment

instance (cs : List Char) : Decidable (Quiet cs) :=
  inferInstanceAs (Decidable (∀ place ∈ places (start cs) none cs,
    place.state.inLiteral = true → ¬ place.LooksComment))

/-- Without blocks, all characters of the literals are left if and only if no place in one looks
like a comment, and then each literal stays as it stands. In a legible script every literal of one
line stays as well, and every block goes, whatever it is used for. -/
theorem stripComments_keeps_literals {cs : List Char} (plain : '\r' ∉ cs) :
    (Untripled cs →
      stripComments "py" cs = uncommented (.start cs) cs ∧
      (LiteralsWritten (start cs) (.start cs) cs ↔ Quiet cs) ∧
      (Quiet cs → ∀ before stretch after, reading cs = before ++ stretch ++ after →
        (∀ entry ∈ stretch, entry.1 = .literal) →
        ∃ front back, front.Sublist (before.map Prod.snd) ∧ back.Sublist (after.map Prod.snd) ∧
          stripComments "py" cs = front ++ stretch.map Prod.snd ++ back)) ∧
      (Legible cs → ∀ before stretch after, reading cs = before ++ stretch ++ after →
        ((∀ entry ∈ stretch, entry.1 = .literal) →
          stripComments "py" cs = remaining before ++ stretch.map Prod.snd ++ remaining after) ∧
        ((∀ entry ∈ stretch, entry.1 = .block) →
          stripComments "py" cs = remaining before ++ remaining after)) := by
  constructor
  · intro untripled
    have left : stripComments "py" cs = uncommented (.start cs) cs :=
      (stripComments_eq cs).trans (docstrings_untripled untripled _)
    have written : Quiet cs → LiteralsWritten (start cs) (.start cs) cs :=
      literalsWritten_of_quiet (reads_start cs) untripled plain
    refine ⟨left, ⟨quiet_of_literalsWritten (pairs_start cs) plain, written⟩, ?_⟩
    intro quiet before stretch after cut literal
    rw [left]
    exact (written quiet).stay cut literal
  · intro legible before stretch after cut
    have left : stripComments "py" cs =
        remaining before ++ remaining stretch ++ remaining after := by
      rw [stripComments_eq_remaining legible plain, cut, remaining_append, remaining_append]
    constructor
    · intro literal
      have stays : ∀ entry ∈ stretch, entry.1.stays = true := fun entry member => by
        rw [literal entry member]; rfl
      rw [left, remaining_of_stays stays]
    · intro block
      have goes : ∀ entry ∈ stretch, entry.1.stays = false := fun entry member => by
        rw [block entry member]; rfl
      rw [left, remaining_of_goes goes, List.append_nil]

def quotedHashes : List Char :=
  unlines (["s = \"it's # a\" + 'say \"#b\"'  # it's c", "t = 'don\\'t' + \"\\\\\"", ""].map
    String.toList)

theorem stripComments_keeps_literals_quotedHashes :
    ('\r' ∉ quotedHashes ∧ Untripled quotedHashes ∧ Quiet quotedHashes ∧
      ∃ before stretch after front back, reading quotedHashes = before ++ stretch ++ after ∧
        stretch.map Prod.snd = "'say \"#b\"'".toList ∧
        stripComments "py" quotedHashes = front ++ stretch.map Prod.snd ++ back) ∧
      '\r' ∉ twoFunctions ∧ Legible twoFunctions ∧
      (∃ before stretch after, reading twoFunctions = before ++ stretch ++ after ∧
        stretch.map Prod.snd = "\"it's # f\"".toList ∧
        stripComments "py" twoFunctions =
          remaining before ++ stretch.map Prod.snd ++ remaining after) ∧
      ∃ before stretch after, reading twoFunctions = before ++ stretch ++ after ∧
        stretch.map Prod.snd = "\"\"\"Second.\"\"\"".toList ∧
        stripComments "py" twoFunctions = remaining before ++ remaining after := by
  have plain : '\r' ∉ quotedHashes := by decide +kernel
  have untripled : Untripled quotedHashes := by unfold Untripled; decide +kernel
  have quiet : Quiet quotedHashes := by decide +kernel
  have value := cut_at (reading quotedHashes) 17 10
  obtain ⟨front, back, _, _, stays⟩ := ((stripComments_keeps_literals plain).1 untripled).2.2
    quiet _ _ _ value (by decide +kernel)
  have plain' : '\r' ∉ twoFunctions := by decide +kernel
  have legible : Legible twoFunctions := by decide +kernel
  have argument := cut_at (reading twoFunctions) 50 10
  have docstring := cut_at (reading twoFunctions) 145 13
  have fenced := (stripComments_keeps_literals plain').2 legible
  exact ⟨⟨plain, untripled, quiet, _, _, _, front, back, value, by decide +kernel, stays⟩,
    plain', legible,
    ⟨_, _, _, argument, by decide +kernel, (fenced _ _ _ argument).1 (by decide +kernel)⟩,
    _, _, _, docstring, by decide +kernel, (fenced _ _ _ docstring).2 (by decide +kernel)⟩

def protectedMark : List Char := "x = \"say \\\"#1\\\"\"\n".toList

/-- A mark that is protected by a backslash pairs with the opening one, and the hash sign behind it
starts a comment; a block that is a value is taken for a docstring. -/
theorem stripComments_cuts_literals :
    (reading protectedMark).drop 4 =
        "\"say \\\"#1\\\"\"".toList.map (.literal, ·) ++ [(.code, '\n')] ∧
      stripComments "py" protectedMark = "x = \"say \\\"\n".toList ∧
      ¬ "\"say \\\"#1\\\"\"".toList <:+: stripComments "py" protectedMark ∧
      stripComments "py" "s = \"\"\"text\"\"\"\n".toList = "s = \n".toList := by
  decide +kernel

end PromptPack.Transform.Script
