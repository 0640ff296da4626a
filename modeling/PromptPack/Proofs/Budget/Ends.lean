import PromptPack.Proofs.Budget.Cut
import PromptPack.Proofs.Budget.Split
import PromptPack.Proofs.Numeric.Rounding

/-! Where the parts of a text end. Each part begins where the one before it ends, and ends where one
cut falls; a part is cut again nowhere. Main statements: `splitByBudget_ends`,
`splitByBudget_of_part`. -/

namespace PromptPack.Budget

variable {window low start stop : Nat} {mark cs part : List Char}
  {parts before after : List (List Char)} {seen : Option Nat}

/-! The offset of the later part of a window. -/

theorem breakShare_eq : breakShare = .finite false 0x16666666666666 (-54) := by decide +kernel

theorem exists_toRat?_breakShare : ∃ share : ℚ, breakShare.toRat? = some share ∧
    0 ≤ share ∧ share ≤ 9 / 25 := by
  refine ⟨0x16666666666666 * 2 ^ (-54 : Int), ?_, by positivity, by norm_num⟩
  rw [breakShare_eq, Binary64.toRat?, Binary64.scale_eq]
  norm_num

theorem minBreakOffset_lt (positive : 0 < window) : minBreakOffset window < window := by
  have coarse {q : ℚ} (sign : 0 ≤ q) : Binary64.roundingError q ≤ q / 8 + 1 / 8 := by
    unfold Binary64.roundingError Binary64.unitRoundoff Binary64.underflowError
    have finest : (2 : ℚ) ^ (Binary64.minExponent - 1) ≤ 2 ^ (-3 : Int) :=
      zpow_le_zpow_right₀ one_le_two (by decide)
    norm_num at finest ⊢
    linarith
  unfold minBreakOffset
  cases part : ((Binary64.ofInt window).mul breakShare).truncate? with
  | none => exact positive
  | some k =>
    obtain ⟨r, product, whole⟩ := Binary64.toNat_truncate?_le part
    obtain ⟨p, factor⟩ := Binary64.exists_toRat?_of_mul product
    obtain ⟨share, value, sign, small⟩ := exists_toRat?_breakShare
    have one : (1 : ℚ) ≤ window := by exact_mod_cast positive
    have size : |((window : Int) : ℚ)| = window := by
      rw [Int.cast_natCast, Nat.abs_cast]
    have first := (abs_le.mp (Binary64.ofInt_error factor)).2
    have second := (abs_le.mp (Binary64.mul_error factor value product)).2
    rw [size] at first
    have bound := coarse (Nat.cast_nonneg (α := ℚ) window)
    have bound' := coarse (abs_nonneg (p * share))
    have scaled : |p * share| ≤ |p| * (9 / 25) := by
      rw [abs_mul, abs_of_nonneg sign]
      exact mul_le_mul_of_nonneg_left small (abs_nonneg p)
    have below : (k.toNat : ℚ) < window := by linarith
    exact_mod_cast below

/-! The parts one after the other. -/

theorem splitOnto_eq_append (parts : List (List Char)) (cs : List Char) :
    splitOnto window low parts cs = parts.reverse ++ splitOnto window low [] cs := by
  induction length : cs.length using Nat.strongRecOn generalizing parts cs with
  | ind n ih =>
    rw [splitOnto, splitOnto.eq_1 window low []]
    split
    · split
      · simp
      · simp
    · next more =>
      have shorter : (cs.drop (cutLength window low cs)).length < n := by
        have positive := cutLength_pos window low cs
        have nonempty : cs ≠ [] := by
          rintro rfl
          exact more List.drop_nil
        have := List.length_pos_iff.mpr nonempty
        rw [List.length_drop]
        omega
      dsimp only
      rw [ih _ shorter _ _ rfl, ih _ shorter [_] _ rfl]
      simp

theorem splitOnto_nil : splitOnto window low [] [] = [] := by
  rw [splitOnto, dif_pos List.drop_nil]
  rfl

theorem splitOnto_of_fits (nonempty : cs ≠ []) (fits : cs.length ≤ window) :
    splitOnto window low [] cs = [cs] := by
  rw [splitOnto, dif_pos (List.drop_eq_nil_of_le fits), if_neg (mt List.isEmpty_iff.mp nonempty)]
  rfl

theorem splitOnto_of_more (more : window < cs.length) :
    splitOnto window low [] cs = cs.take (cutLength window low cs) ::
      splitOnto window low [] (cs.drop (cutLength window low cs)) := by
  have left : cs.drop window ≠ [] := fun nothing => by
    have := List.drop_eq_nil_iff.mp nothing
    omega
  rw [splitOnto, dif_neg left]
  dsimp only
  rw [splitOnto_eq_append]
  rfl

theorem splitOnto_drop (split : splitOnto window low [] cs = before ++ after) :
    splitOnto window low [] (cs.drop before.flatten.length) = after := by
  induction before generalizing cs with
  | nil => exact split
  | cons part before ih =>
    rw [List.flatten_cons, List.length_append, ← List.drop_drop]
    apply ih
    rcases Nat.lt_or_ge window cs.length with more | fits
    · rw [splitOnto_of_more more] at split
      obtain ⟨rfl, rest⟩ := List.cons.inj split
      refine .trans ?_ rest
      rw [List.length_take]
      rcases Nat.le_total (cutLength window low cs) cs.length with inside | beyond
      · rw [Nat.min_eq_left inside]
      · rw [Nat.min_eq_right beyond, List.drop_length, List.drop_eq_nil_of_le beyond]
    · by_cases empty : cs = []
      · rw [empty, splitOnto_nil] at split
        cases split
      · rw [splitOnto_of_fits empty fits] at split
        obtain ⟨rfl, rest⟩ := List.cons.inj split
        rw [List.drop_length, splitOnto_nil]
        exact rest

theorem endsAt_of_splitOnto (positive : 0 < window)
    (split : splitOnto window low [] (cs.drop start) = part :: parts) :
    EndsAt window low cs start (start + part.length) := by
  by_cases empty : cs.drop start = []
  · rw [empty, splitOnto_nil] at split
    cases split
  · have begun : start < cs.length := by
      rw [List.drop_eq_nil_iff] at empty
      omega
    rcases Nat.lt_or_ge window (cs.drop start).length with more | fits
    · rw [splitOnto_of_more more] at split
      obtain ⟨rfl, -⟩ := List.cons.inj split
      rw [List.length_drop] at more
      have ends : EndsAt window low cs start _ := endsAt_cut positive (by omega)
      have inside := ends.le_length
      rw [List.length_take, List.length_drop, Nat.min_eq_left (by omega)]
      exact ends
    · rw [splitOnto_of_fits empty fits] at split
      obtain ⟨rfl, -⟩ := List.cons.inj split
      rw [List.length_drop] at fits ⊢
      rw [Nat.add_sub_cancel' begun.le]
      exact .rest (by omega)

/-! The marks in a part are those of the text that it is taken from. -/

theorem stands_of_stands_part {j : Nat} (inside : part <+: cs.drop start) (stands : mark <+: part.drop j) :
    mark <+: cs.drop (start + j) := by
  rw [← List.drop_drop]
  exact stands.trans (inside.drop j)

theorem LastIn.within_none (high : Nat) (inside : part <+: cs.drop start)
    (last : LastIn mark cs (start + low) (start + high) none) : LastIn mark part low high none := by
  cases last with
  | absent nowhere =>
    exact .absent fun j low_le lt_high stands =>
      nowhere (start + j) (by omega) (by omega) (stands_of_stands_part inside stands)

theorem LastIn.within_some (high : Nat) {k : Nat} (inside : part <+: cs.drop start)
    (fits : k + mark.length ≤ part.length)
    (last : LastIn mark cs (start + low) (start + high) (some (start + k))) :
    LastIn mark part low high (some k) := by
  cases last with
  | found _ low_le lt_high stands last =>
    have stands : mark <+: part.drop k := by
      rw [← List.drop_drop] at stands
      apply List.prefix_of_prefix_length_le stands (inside.drop k)
      rw [List.length_drop]
      omega
    exact .found k (by omega) (by omega) stands fun j more below stands =>
      last (start + j) (by omega) (by omega) (stands_of_stands_part inside stands)

theorem EndsAt.within (inside : part <+: cs.drop start) (long : window < part.length)
    (ends : EndsAt window low cs start (start + part.length)) :
    EndsAt window low part 0 part.length := by
  have left := inside.length_le
  rw [List.length_drop] at left
  generalize same : start + part.length = stop at ends
  cases ends with
  | rest fits => omega
  | full => omega
  | @paragraph k more found =>
    obtain ⟨j, rfl⟩ := Nat.exists_eq_add_of_le (Nat.le_of_add_right_le found.bounds.1)
    obtain ending : part.length = j + 2 := by omega
    have found := found.within_some (window + 1) inside ending.ge
    rw [ending]
    exact .paragraph (by omega) (by rwa [Nat.zero_add, Nat.zero_add])
  | @line k more noParagraph found =>
    obtain ⟨j, rfl⟩ := Nat.exists_eq_add_of_le (Nat.le_of_add_right_le found.bounds.1)
    obtain ending : part.length = j + 1 := by omega
    have found := found.within_some (window + 1) inside ending.ge
    have noParagraph := noParagraph.within_none (window + 1) inside
    rw [ending]
    exact .line (by omega) (by rwa [Nat.zero_add, Nat.zero_add]) (by rwa [Nat.zero_add, Nat.zero_add])

theorem splitChars_ends (positive : 0 < window)
    (split : splitChars window cs = before ++ part :: after) :
    EndsAt window (minBreakOffset window) cs before.flatten.length
        (before.flatten.length + part.length) ∧
      part <+: cs.drop before.flatten.length ∧
      (after ≠ [] → before.flatten.length + part.length < cs.length) := by
  have joined : before.flatten ++ (part ++ after.flatten) = cs := by
    have whole : (splitChars window cs).flatten = cs := flatten_splitChars
    rw [← whole, split, List.flatten_append, List.flatten_cons]
  refine ⟨endsAt_of_splitOnto positive (splitOnto_drop split), ?_, fun more => ?_⟩
  · rw [← joined, List.drop_left]
    exact List.prefix_append _ _
  · obtain ⟨next, rest, rfl⟩ := List.exists_cons_of_ne_nil more
    have member : next ∈ splitChars window cs := by
      rw [split]
      simp
    have some := List.length_pos_iff.mpr (ne_nil_of_mem_splitChars member)
    rw [← joined, List.length_append, List.length_append, List.flatten_cons, List.length_append]
    omega

theorem splitChars_of_part (member : part ∈ splitChars window cs) (long : window < part.length)
    (positive : 0 < window) : splitChars window part = [part] := by
  obtain ⟨before, after, split⟩ := List.append_of_mem member
  obtain ⟨ends, inside, _⟩ := splitChars_ends positive split
  have whole : 0 + cutLength window (minBreakOffset window) part = part.length :=
    (endsAt_cut positive (by rwa [Nat.zero_add])).unique (ends.within inside long)
  rw [Nat.zero_add] at whole
  rw [splitChars, splitOnto_of_more long, whole, List.take_length, List.drop_length, splitOnto_nil]

/-! Texts and ceilings. -/

theorem exists_chars_of_map {chars : List (List Char)} {first rest : List String} {text : String}
    (split : chars.map String.ofList = first ++ text :: rest) :
    ∃ before after, chars = before ++ text.toList :: after ∧
      before.map String.ofList = first ∧ after.map String.ofList = rest := by
  obtain ⟨before, last, rfl, rfl, tail⟩ := List.map_eq_append_iff.mp split
  obtain ⟨part, after, rfl, rfl, rfl⟩ := List.map_eq_cons_iff.mp tail
  exact ⟨before, after, by rw [String.toList_ofList], rfl, rfl⟩

/-- A text that is longer than a window of four characters a token is cut into parts that join to
it. Each has characters, begins where those before it end, ends where one cut falls, and overruns
its window by a blank line at most; each but the last reaches into the later part of its window. -/
theorem splitByBudget_ends (content : String) {ceiling : Int} (positive : 1 ≤ ceiling)
    (long : 4 * ceiling < content.length) :
    String.join (splitByBudget content ceiling) = content ∧
      ∀ before part after, splitByBudget content ceiling = before ++ part :: after →
        part ≠ "" ∧
        EndsAt (windowOf ceiling) (minBreakOffset (windowOf ceiling)) content.toList
          (String.join before).length ((String.join before).length + part.length) ∧
        part.length ≤ windowOf ceiling + 2 ∧
        (after ≠ [] → minBreakOffset (windowOf ceiling) < part.length) := by
  have some := windowOf_pos positive
  have more : windowOf ceiling < content.length := by
    change ceiling.toNat * 4 < content.length
    omega
  refine ⟨join_splitByBudget content ceiling, fun first text rest split => ?_⟩
  rw [splitByBudget_of_long positive more] at split
  obtain ⟨before, after, chars, rfl, rfl⟩ := exists_chars_of_map split
  obtain ⟨ends, _, short⟩ := splitChars_ends some chars
  obtain ⟨bounded, later⟩ := ends.bounds (minBreakOffset_lt some)
  have start : (String.join (before.map String.ofList)).length = before.flatten.length := by
    rw [← String.length_toList, toList_join_map]
  have member : text.toList ∈ splitChars (windowOf ceiling) content.toList := by
    rw [chars]
    simp
  rw [start, ← String.length_toList]
  refine ⟨?_, ends, by omega, fun follows => ?_⟩
  · rintro rfl
    exact ne_nil_of_mem_splitChars member rfl
  · have reached := later (short (mt (congrArg (List.map String.ofList)) follows))
    omega

/-- A blank line within the later part, a blank line at the window's end, a line break, no break. -/
def breaksInWindows : String := "ab\n\ncd\n\nef\nghijk"

theorem splitByBudget_ends_breaksInWindows :
    splitByBudget breaksInWindows 1 = ["ab\n\n", "cd\n\n", "ef\n", "ghij", "k"] ∧
      EndsAt 4 1 breaksInWindows.toList 8 11 ∧ "ef\n".length ≤ 4 + 2 ∧ 1 < "ef\n".length := by
  have split : splitByBudget breaksInWindows 1 = ["ab\n\n", "cd\n\n", "ef\n", "ghij", "k"] := by
    decide +kernel
  have low : minBreakOffset 4 = 1 := by decide +kernel
  obtain ⟨_, parts⟩ := splitByBudget_ends breaksInWindows (by decide : (1 : Int) ≤ 1) (by decide +kernel)
  obtain ⟨_, ends, bounded, later⟩ := parts ["ab\n\n", "cd\n\n"] "ef\n" ["ghij", "k"] split
  rw [show windowOf 1 = 4 from rfl, low] at ends later
  exact ⟨split, ends, bounded, later (by decide)⟩

/-- A part is its own only part under the same ceiling: it is not cut again, nor elsewhere. -/
theorem splitByBudget_of_part {content part : String} {ceiling : Int}
    (member : part ∈ splitByBudget content ceiling) : splitByBudget part ceiling = [part] := by
  by_cases fits : ceiling ≤ 0 ∨ part.length ≤ windowOf ceiling
  · exact splitByBudget_of_fits fits
  · obtain ⟨positive, long⟩ : 0 < ceiling ∧ windowOf ceiling < part.length := by omega
    have some := windowOf_pos positive
    by_cases whole : content.length ≤ windowOf ceiling
    · rw [splitByBudget_of_fits (.inr whole), List.mem_singleton] at member
      rw [member] at long
      omega
    · rw [splitByBudget_of_long positive (by omega)] at member
      obtain ⟨chars, cut, rfl⟩ := List.mem_map.mp member
      rw [String.length_ofList] at long
      rw [splitByBudget_of_long positive (by rwa [String.length_ofList]), String.toList_ofList,
        splitChars_of_part cut long some]
      rfl

/-- The first two parts take a break along from behind their windows, so they are cut again, and to
the same length. -/
theorem splitByBudget_of_part_overruns :
    splitByBudget "abcd\n\nefgh\nijk" 1 = ["abcd\n\n", "efgh\n", "ijk"] ∧
      splitByBudget "abcd\n\n" 1 = ["abcd\n\n"] ∧ splitByBudget "efgh\n" 1 = ["efgh\n"] := by
  have split : splitByBudget "abcd\n\nefgh\nijk" 1 = ["abcd\n\n", "efgh\n", "ijk"] := by
    decide +kernel
  have first : "abcd\n\n" ∈ splitByBudget "abcd\n\nefgh\nijk" 1 := by simp [split]
  have second : "efgh\n" ∈ splitByBudget "abcd\n\nefgh\nijk" 1 := by simp [split]
  exact ⟨split, splitByBudget_of_part first, splitByBudget_of_part second⟩

end PromptPack.Budget
