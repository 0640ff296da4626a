import PromptPack.Budget.Split

/-! Where one cut falls. The search for a break passes over the places of a text once and keeps the
last one that it has seen; the cut takes what it keeps. Main statement: `endsAt_cut`. -/

namespace PromptPack.Budget

variable {mark cs : List Char} {low high window start stop other i k : Nat} {seen result : Option Nat}
  {isBreak : List Char → Bool}

/-- The last place from `low` on and below `high` at which the mark stands, if there is one. -/
inductive LastIn (mark cs : List Char) (low high : Nat) : Option Nat → Prop where
  | absent (nowhere : ∀ j, low ≤ j → j < high → ¬ mark <+: cs.drop j) : LastIn mark cs low high none
  | found (k : Nat) (low_le : low ≤ k) (lt_high : k < high) (stands : mark <+: cs.drop k)
      (last : ∀ j, k < j → j < high → ¬ mark <+: cs.drop j) : LastIn mark cs low high (some k)

theorem LastIn.unique (first : LastIn mark cs low high seen)
    (second : LastIn mark cs low high result) : seen = result := by
  cases first with
  | absent nowhere =>
    cases second with
    | absent _ => rfl
    | found k low_le lt_high stands _ => exact absurd stands (nowhere k low_le lt_high)
  | found k low_le lt_high stands last =>
    cases second with
    | absent nowhere => exact absurd stands (nowhere k low_le lt_high)
    | found j _ lt_high' stands' last' =>
      rcases Nat.lt_trichotomy k j with less | same | more
      · exact absurd stands' (last j less lt_high')
      · rw [same]
      · exact absurd stands (last' k more lt_high)

theorem LastIn.skip (before : LastIn mark cs low i seen) (missing : low ≤ i → ¬ mark <+: cs.drop i) :
    LastIn mark cs low (i + 1) seen := by
  cases before with
  | absent nowhere =>
    refine .absent fun j low_le below => ?_
    rcases Nat.lt_succ_iff_lt_or_eq.mp below with below | rfl
    · exact nowhere j low_le below
    · exact missing low_le
  | found k low_le below stands last =>
    refine .found k low_le (by omega) stands fun j more below => ?_
    rcases Nat.lt_succ_iff_lt_or_eq.mp below with below | rfl
    · exact last j more below
    · exact missing (by omega)

theorem LastIn.here (low_le : low ≤ i) (stands : mark <+: cs.drop i) :
    LastIn mark cs low (i + 1) (some i) :=
  .found i low_le (Nat.lt_succ_self i) stands fun _ _ _ => by omega

theorem LastIn.extend (before : LastIn mark cs low i seen) (nonempty : mark ≠ [])
    (ended : cs.drop i = []) (le : i ≤ high) : LastIn mark cs low high seen := by
  induction le with
  | refl => exact before
  | @step high le ih =>
    refine ih.skip fun _ stands => ?_
    rw [List.drop_eq_nil_of_le (Nat.le_trans (List.drop_eq_nil_iff.mp ended) le)] at stands
    exact nonempty (List.prefix_nil.mp stands)

theorem lastIn_lastBreak? (nonempty : mark ≠ [])
    (recognizes : ∀ cs, isBreak cs = true ↔ mark <+: cs) {text : List Char}
    (rest : text.drop i = cs) (before : LastIn mark text low i seen) (le : i ≤ high + 1) :
    LastIn mark text low (high + 1) (lastBreak? isBreak low high i seen cs) := by
  induction cs generalizing i seen with
  | nil => exact before.extend nonempty rest le
  | cons c cs ih =>
    unfold lastBreak?
    split
    · next passed =>
      obtain rfl : i = high + 1 := by omega
      exact before
    · next inside =>
      have next : text.drop (i + 1) = cs := by rw [← List.drop_drop, rest, List.drop_one, List.tail_cons]
      refine ih next ?_ (by omega)
      rw [← rest]
      split
      · next here =>
        obtain ⟨low_le, breaks⟩ := Bool.and_eq_true_iff.mp here
        exact .here (of_decide_eq_true low_le) ((recognizes _).mp breaks)
      · next missing =>
        refine before.skip fun low_le stands => missing ?_
        exact Bool.and_eq_true_iff.mpr ⟨decide_eq_true low_le, (recognizes _).mpr stands⟩

theorem LastIn.bounds (last : LastIn mark cs low high (some k)) : low ≤ k ∧ k < high := by
  cases last with
  | found _ low_le lt_high _ _ => exact ⟨low_le, lt_high⟩

theorem LastIn.stands (last : LastIn mark cs low high (some k)) : mark <+: cs.drop k := by
  cases last with
  | found _ _ _ stands _ => exact stands

theorem LastIn.length_le (last : LastIn mark cs low high (some k)) (nonempty : mark ≠ []) :
    k + mark.length ≤ cs.length := by
  have length := last.stands.length_le
  have some := List.length_pos_iff.mpr nonempty
  rw [List.length_drop] at length
  omega

def lineBreak : List Char := ['\n']

def blankLine : List Char := ['\n', '\n']

theorem isLineBreak_iff (cs : List Char) : isLineBreak cs = true ↔ lineBreak <+: cs := by
  unfold isLineBreak lineBreak
  split
  · next rest => exact iff_of_true rfl ⟨rest, rfl⟩
  · next other => exact iff_of_false Bool.false_ne_true fun ⟨rest, same⟩ => other rest same.symm

theorem isParagraphBreak_iff (cs : List Char) : isParagraphBreak cs = true ↔ blankLine <+: cs := by
  unfold isParagraphBreak blankLine
  split
  · next rest => exact iff_of_true rfl ⟨rest, rfl⟩
  · next other => exact iff_of_false Bool.false_ne_true fun ⟨rest, same⟩ => other rest same.symm

/-- Where the part of a text ends that begins at `start`: at the end of the text, if no more than a
window is left; else behind the last blank line that begins in the later part of the window, its end
included; else behind the last line break there; else where the window ends. -/
inductive EndsAt (window low : Nat) (cs : List Char) (start : Nat) : Nat → Prop where
  | rest (fits : cs.length ≤ start + window) : EndsAt window low cs start cs.length
  | paragraph {k : Nat} (more : start + window < cs.length)
      (paragraph : LastIn blankLine cs (start + low) (start + window + 1) (some k)) :
      EndsAt window low cs start (k + 2)
  | line {k : Nat} (more : start + window < cs.length)
      (noParagraph : LastIn blankLine cs (start + low) (start + window + 1) none)
      (line : LastIn lineBreak cs (start + low) (start + window + 1) (some k)) :
      EndsAt window low cs start (k + 1)
  | full (more : start + window < cs.length)
      (noParagraph : LastIn blankLine cs (start + low) (start + window + 1) none)
      (noLine : LastIn lineBreak cs (start + low) (start + window + 1) none) :
      EndsAt window low cs start (start + window)

theorem EndsAt.le_length (ends : EndsAt window low cs start stop) : stop ≤ cs.length := by
  cases ends with
  | rest => exact Nat.le_refl _
  | paragraph _ found => exact found.length_le (List.cons_ne_nil _ _)
  | line _ _ found => exact found.length_le (List.cons_ne_nil _ _)
  | full more => exact Nat.le_of_lt more

theorem EndsAt.bounds (ends : EndsAt window low cs start stop) (later : low < window) :
    stop ≤ start + window + 2 ∧ (stop < cs.length → start + low < stop) := by
  cases ends with
  | rest fits => exact ⟨by omega, fun more => absurd more (Nat.lt_irrefl _)⟩
  | paragraph _ found =>
    have := found.bounds
    omega
  | line _ _ found =>
    have := found.bounds
    omega
  | full more => omega

theorem EndsAt.unique (first : EndsAt window low cs start stop)
    (second : EndsAt window low cs start other) : stop = other := by
  cases first with
  | rest fits =>
    cases second with
    | rest => rfl
    | paragraph more | line more | full more => omega
  | paragraph more paragraph =>
    cases second with
    | rest fits => omega
    | paragraph _ paragraph' => rw [Option.some.inj (paragraph.unique paragraph')]
    | line _ noParagraph | full _ noParagraph => cases paragraph.unique noParagraph
  | line more noParagraph line =>
    cases second with
    | rest fits => omega
    | paragraph _ paragraph => cases paragraph.unique noParagraph
    | line _ _ line' => rw [Option.some.inj (line.unique line')]
    | full _ _ noLine => cases line.unique noLine
  | full more noParagraph noLine =>
    cases second with
    | rest fits => omega
    | paragraph _ paragraph => cases paragraph.unique noParagraph
    | line _ _ line => cases line.unique noLine
    | full => rfl

theorem LastIn.shift (s : Nat) (last : LastIn mark (cs.drop s) low high seen) :
    LastIn mark cs (s + low) (s + high) (seen.map (s + ·)) := by
  have place : ∀ j, s ≤ j → cs.drop j = (cs.drop s).drop (j - s) := fun j later => by
    rw [List.drop_drop, Nat.add_sub_cancel' later]
  cases last with
  | absent nowhere =>
    refine .absent fun j low_le below => ?_
    rw [place j (by omega)]
    exact nowhere (j - s) (by omega) (by omega)
  | found k low_le lt_high stands last =>
    rw [List.drop_drop] at stands
    refine .found (s + k) (by omega) (by omega) stands fun j more below => ?_
    rw [place j (by omega)]
    exact last (j - s) (by omega) (by omega)

theorem lastIn_search (nonempty : mark ≠ []) (recognizes : ∀ cs, isBreak cs = true ↔ mark <+: cs)
    (cs : List Char) :
    LastIn mark cs low (window + 1) (lastBreak? isBreak low window 0 none cs) :=
  lastIn_lastBreak? nonempty recognizes cs.drop_zero (.absent fun _ _ => nofun) (Nat.zero_le _)

theorem lastIn_paragraph (low window : Nat) (cs : List Char) :
    LastIn blankLine cs low (window + 1) (lastBreak? isParagraphBreak low window 0 none cs) :=
  lastIn_search (List.cons_ne_nil _ _) isParagraphBreak_iff cs

theorem lastIn_line (low window : Nat) (cs : List Char) :
    LastIn lineBreak cs low (window + 1) (lastBreak? isLineBreak low window 0 none cs) :=
  lastIn_search (List.cons_ne_nil _ _) isLineBreak_iff cs

theorem endsAt_cut (positive : 0 < window) (more : start + window < cs.length) :
    EndsAt window low cs start (start + cutLength window low (cs.drop start)) := by
  have paragraph := (lastIn_paragraph low window (cs.drop start)).shift start
  have line := (lastIn_line low window (cs.drop start)).shift start
  unfold cutLength
  split
  · next k found =>
    rw [found] at paragraph
    exact .paragraph more paragraph
  · next missing =>
    rw [missing] at paragraph
    split
    · next k found =>
      rw [found] at line
      exact .line more paragraph line
    · next missing =>
      rw [missing] at line
      rw [Nat.max_eq_right positive]
      exact .full more paragraph line

end PromptPack.Budget
