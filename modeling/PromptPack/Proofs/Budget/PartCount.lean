import PromptPack.Proofs.Budget.Ends

/-! How many parts a text makes. A text longer than a window is a single part exactly if it overruns
the window by no more than the break that ends it; without line breaks it makes as many parts as it
begins windows. Main statements: `several_splitByBudget_iff`, `length_splitByBudget_of_unbroken`. -/

namespace PromptPack.Budget

variable {window low : Nat} {cs : List Char} {content : String} {ceiling : Int}

/-- A text that ends with a break which starts in the later part of the window or at its end, the
last blank line there if there is one. -/
inductive ClosedByBreak (window low : Nat) (cs : List Char) : Prop where
  | paragraph (near : cs.length ≤ window + 2) (ends : blankLine <:+ cs)
  | line (near : cs.length ≤ window + 1) (ends : lineBreak <:+ cs)
      (noParagraph : ∀ j, low ≤ j → j ≤ window → ¬ blankLine <+: cs.drop j)

theorem suffix_of_stands {mark : List Char} {k : Nat} (stands : mark <+: cs.drop k)
    (ends : cs.length = k + mark.length) : mark <:+ cs := by
  have same : mark = cs.drop k := by
    apply stands.eq_of_length
    rw [List.length_drop]
    omega
  rw [same]
  exact List.drop_suffix k cs

theorem lastIn_of_suffix {mark : List Char} {high k : Nat} (nonempty : mark ≠ [])
    (ends : mark <:+ cs) (length : k + mark.length = cs.length) (low_le : low ≤ k)
    (lt_high : k < high) : LastIn mark cs low high (some k) := by
  have some := List.length_pos_iff.mpr nonempty
  obtain ⟨front, rfl⟩ := ends
  rw [List.length_append] at length
  obtain rfl : front.length = k := by omega
  refine .found _ low_le lt_high ?_ fun j more _ stands => ?_
  · rw [List.drop_left]
  · have := stands.length_le
    rw [List.length_drop, List.length_append] at this
    omega

theorem endsAt_length_iff (long : window < cs.length) (later : low < window) :
    EndsAt window low cs 0 cs.length ↔ ClosedByBreak window low cs := by
  constructor
  · intro ends
    generalize same : cs.length = stop at ends
    cases ends with
    | rest fits => omega
    | paragraph _ paragraph =>
      have := paragraph.bounds
      exact .paragraph (by omega) (suffix_of_stands paragraph.stands same)
    | line _ noParagraph line =>
      have := line.bounds
      refine .line (by omega) (suffix_of_stands line.stands same) ?_
      cases noParagraph with
      | absent nowhere => exact fun j low_le le_window => nowhere j (by omega) (by omega)
    | full => omega
  · intro closed
    cases closed with
    | paragraph near ends =>
      obtain ⟨k, length⟩ : ∃ k, k + 2 = cs.length := ⟨cs.length - 2, by omega⟩
      have last : LastIn blankLine cs (0 + low) (0 + window + 1) (some k) :=
        lastIn_of_suffix (List.cons_ne_nil _ _) ends length (by omega) (by omega)
      rw [← length]
      exact .paragraph (by omega) last
    | line near ends noParagraph =>
      obtain ⟨k, length⟩ : ∃ k, k + 1 = cs.length := ⟨cs.length - 1, by omega⟩
      have last : LastIn lineBreak cs (0 + low) (0 + window + 1) (some k) :=
        lastIn_of_suffix (List.cons_ne_nil _ _) ends length (by omega) (by omega)
      rw [← length]
      exact .line (by omega) (.absent fun j _ _ => noParagraph j (by omega) (by omega)) last

theorem cutLength_eq_length_iff (long : window < cs.length) (later : low < window) :
    cutLength window low cs = cs.length ↔ ClosedByBreak window low cs := by
  have cut : EndsAt window low cs 0 (0 + cutLength window low cs) :=
    endsAt_cut (by omega) (by omega)
  rw [Nat.zero_add] at cut
  rw [← endsAt_length_iff long later]
  exact ⟨fun whole => whole ▸ cut, cut.unique⟩

theorem splitOnto_eq_nil_iff : splitOnto window low [] cs = [] ↔ cs = [] := by
  constructor
  · intro nothing
    have joined : (splitOnto window low [] cs).flatten = cs := flatten_splitOnto
    rw [← joined, nothing, List.flatten_nil]
  · rintro rfl
    exact splitOnto_nil

theorem several_splitOnto_iff (long : window < cs.length) (later : low < window) :
    1 < (splitOnto window low [] cs).length ↔ ¬ ClosedByBreak window low cs := by
  have inside : cutLength window low cs ≤ cs.length := by
    have ends : EndsAt window low cs 0 (0 + cutLength window low cs) :=
      endsAt_cut (by omega) (by omega)
    have := ends.le_length
    omega
  rw [splitOnto_of_more long, List.length_cons, Nat.lt_add_left_iff_pos, List.length_pos_iff, Ne,
    splitOnto_eq_nil_iff, List.drop_eq_nil_iff, ← cutLength_eq_length_iff long later]
  omega

theorem several_splitByBudget_iff (positive : 1 ≤ ceiling) :
    1 < (splitByBudget content ceiling).length ↔
      windowOf ceiling < content.length ∧
        ¬ ClosedByBreak (windowOf ceiling) (minBreakOffset (windowOf ceiling)) content.toList := by
  by_cases long : windowOf ceiling < content.length
  · have some := windowOf_pos positive
    rw [splitByBudget_of_long positive long, List.length_map, splitChars,
      several_splitOnto_iff (by rwa [String.length_toList]) (minBreakOffset_lt some)]
    exact (and_iff_right long).symm
  · rw [splitByBudget_of_fits (.inr (Nat.le_of_not_lt long))]
    exact iff_of_false (Nat.lt_irrefl 1) fun several => long several.1

/-! Texts without line breaks. -/

theorem not_closedByBreak_of_unbroken (unbroken : '\n' ∉ cs) : ¬ ClosedByBreak window low cs := by
  intro closed
  cases closed with
  | paragraph _ ends => exact unbroken (ends.subset (by decide))
  | line _ ends _ => exact unbroken (ends.subset (by decide))

theorem LastIn.eq_none_of_unbroken {mark : List Char} {high : Nat} {seen : Option Nat}
    (unbroken : '\n' ∉ cs) (breaks : '\n' ∈ mark) (last : LastIn mark cs low high seen) :
    seen = none := by
  cases last with
  | absent => rfl
  | found k _ _ stands _ =>
    exact absurd (List.mem_of_mem_drop (stands.subset breaks)) unbroken

theorem cutLength_of_unbroken (positive : 0 < window) (unbroken : '\n' ∉ cs) :
    cutLength window low cs = window := by
  have noParagraph := (lastIn_paragraph low window cs).eq_none_of_unbroken unbroken (by decide)
  have noLine := (lastIn_line low window cs).eq_none_of_unbroken unbroken (by decide)
  rw [cutLength, noParagraph, noLine]
  exact Nat.max_eq_right positive

theorem length_splitOnto_of_unbroken (positive : 0 < window) (unbroken : '\n' ∉ cs) :
    (splitOnto window low [] cs).length = (cs.length + (window - 1)) / window := by
  -- What a cut leaves is shorter by a window, and has no line breaks either.
  induction length : cs.length using Nat.strongRecOn generalizing cs with
  | ind n ih =>
    rcases Nat.lt_or_ge window cs.length with more | fits
    · have rest : (splitOnto window low [] (cs.drop window)).length =
          (n - window + (window - 1)) / window :=
        ih (n - window) (by omega) (mt List.mem_of_mem_drop unbroken)
          (by rw [List.length_drop, length])
      rw [splitOnto_of_more more, cutLength_of_unbroken positive unbroken, List.length_cons, rest,
        ← Nat.add_div_right _ positive]
      congr 1
      omega
    · by_cases empty : cs = []
      · subst empty
        obtain rfl : 0 = n := length
        rw [splitOnto_nil, List.length_nil, Nat.zero_add, Nat.div_eq_of_lt (by omega)]
      · have some := List.length_pos_iff.mpr empty
        rw [splitOnto_of_fits empty fits, List.length_singleton]
        exact (Nat.div_eq_of_lt_le (by omega) (by omega)).symm

theorem length_splitByBudget_of_unbroken (positive : 1 ≤ ceiling)
    (long : windowOf ceiling < content.length) (unbroken : '\n' ∉ content.toList) :
    (splitByBudget content ceiling).length =
      (content.length + (windowOf ceiling - 1)) / windowOf ceiling := by
  rw [splitByBudget_of_long positive long, List.length_map, splitChars,
    length_splitOnto_of_unbroken (windowOf_pos positive) unbroken, String.length_toList]

end PromptPack.Budget
