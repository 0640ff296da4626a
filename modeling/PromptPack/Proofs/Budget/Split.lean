import PromptPack.Budget.Split

/-! The parts of a text. They join to the text, there is at least one, and where there are several
none is empty. -/

namespace PromptPack.Budget

variable {window low : Nat} {parts : List (List Char)} {cs : List Char}

theorem flatten_splitOnto :
    (splitOnto window low parts cs).flatten = parts.reverse.flatten ++ cs := by
  fun_induction splitOnto window low parts cs with
  | case1 parts cs h =>
    split
    · next empty => rw [List.isEmpty_iff.mp empty, List.append_nil]
    · rw [List.reverse_cons, List.flatten_append, List.flatten_singleton]
  | case2 parts cs h length ih =>
    rw [ih, List.reverse_cons, List.flatten_append, List.flatten_singleton, List.append_assoc,
      List.take_append_drop]

theorem ne_nil_of_mem_splitOnto {part : List Char} (h : part ∈ splitOnto window low parts cs) :
    part ∈ parts ∨ part ≠ [] := by
  fun_induction splitOnto window low parts cs with
  | case1 parts cs _ =>
    rw [List.mem_reverse] at h
    split at h
    · exact .inl h
    · next nonempty =>
      rcases List.mem_cons.mp h with rfl | h
      · exact .inr (mt List.isEmpty_iff.mpr nonempty)
      · exact .inl h
  | case2 parts cs more length ih =>
    rcases ih h with h | h
    · rcases List.mem_cons.mp h with rfl | h
      · -- A cut takes at least one character of a text that is not empty.
        refine .inr fun nothing => ?_
        have positive : 0 < length := cutLength_pos window low cs
        rcases List.take_eq_nil_iff.mp nothing with zero | rfl
        · omega
        · exact more List.drop_nil
      · exact .inl h
    · exact .inr h

theorem flatten_splitChars : (splitChars window cs).flatten = cs := flatten_splitOnto

theorem ne_nil_of_mem_splitChars {part : List Char} (h : part ∈ splitChars window cs) :
    part ≠ [] := by
  rcases ne_nil_of_mem_splitOnto h with h | h
  · cases h
  · exact h

abbrev windowOf (ceiling : Int) : Nat := ceiling.toNat * charsPerToken

theorem windowOf_pos {ceiling : Int} (positive : 0 < ceiling) : 0 < windowOf ceiling :=
  Nat.mul_pos (by omega) (by decide)

theorem splitByBudget_of_long {content : String} {ceiling : Int} (positive : 0 < ceiling)
    (long : windowOf ceiling < content.length) :
    splitByBudget content ceiling =
      (splitChars (windowOf ceiling) content.toList).map String.ofList := by
  rw [splitByBudget, if_neg (by omega)]
  exact if_neg (Nat.not_le_of_lt long)

theorem splitByBudget_of_fits {content : String} {ceiling : Int}
    (fits : ceiling ≤ 0 ∨ content.length ≤ windowOf ceiling) :
    splitByBudget content ceiling = [content] := by
  unfold splitByBudget
  split
  · rfl
  · next positive => exact if_pos (fits.resolve_left positive)

theorem splitByBudget_cases (content : String) (ceiling : Int) :
    splitByBudget content ceiling = [content] ∨
      ∃ window, window < content.length ∧
        splitByBudget content ceiling = (splitChars window content.toList).map String.ofList := by
  by_cases fits : ceiling ≤ 0 ∨ content.length ≤ windowOf ceiling
  · exact .inl (splitByBudget_of_fits fits)
  · obtain ⟨positive, long⟩ := not_or.mp fits
    have long := Nat.lt_of_not_le long
    exact .inr ⟨_, long, splitByBudget_of_long (Int.lt_of_not_ge positive) long⟩

theorem toList_join_map (chars : List (List Char)) :
    (String.join (chars.map String.ofList)).toList = chars.flatten := by
  rw [String.toList_join, List.flatMap_map]
  simp only [String.toList_ofList, List.flatMap_id']

theorem join_splitByBudget (content : String) (ceiling : Int) :
    String.join (splitByBudget content ceiling) = content := by
  rcases splitByBudget_cases content ceiling with whole | ⟨window, _, cut⟩
  · rw [whole, String.join_cons, String.join_nil, String.append_empty]
  · rw [← String.toList_inj, cut, toList_join_map, flatten_splitChars]

theorem splitByBudget_ne_nil (content : String) (ceiling : Int) :
    splitByBudget content ceiling ≠ [] := by
  intro nothing
  have joined := join_splitByBudget content ceiling
  rcases splitByBudget_cases content ceiling with whole | ⟨window, long, _⟩
  · cases whole.symm.trans nothing
  · rw [nothing, String.join_nil] at joined
    rw [← joined] at long
    exact absurd long (Nat.not_lt_zero window)

theorem ne_empty_of_mem_splitByBudget {content part : String} {ceiling : Int}
    (several : 1 < (splitByBudget content ceiling).length)
    (h : part ∈ splitByBudget content ceiling) : part ≠ "" := by
  rcases splitByBudget_cases content ceiling with whole | ⟨window, _, cut⟩
  · rw [whole] at several
    exact absurd several (Nat.lt_irrefl 1)
  · rw [cut] at h
    obtain ⟨chars, member, rfl⟩ := List.mem_map.mp h
    intro empty
    exact ne_nil_of_mem_splitChars member (String.ofList_eq_empty_iff.mp empty)

end PromptPack.Budget
