import PromptPack.Proofs.Budget.Cut
import PromptPack.Proofs.Budget.Parts

/-! How far a part reaches. A break may start where the window ends, and the part takes it along; so
a part can hold one or two line breaks more than its window, and never anything else. Main
statement: `parts_overrun_by_breaks`. -/

namespace PromptPack.Budget

variable {window low : Nat} {cs : List Char}

def WithinBreaks (window : Nat) (cs : List Char) : Prop :=
  cs.drop window = [] ∨ cs.drop window = ['\n'] ∨ cs.drop window = ['\n', '\n']

theorem withinBreaks_take {k : Nat} (bounded : k ≤ window) {mark rest : List Char}
    (short : mark = ['\n'] ∨ mark = ['\n', '\n']) (marked : cs.drop k = mark ++ rest) :
    WithinBreaks window (cs.take (k + mark.length)) := by
  have behind : (cs.take (k + mark.length)).drop window = mark.drop (window - k) := by
    obtain ⟨d, rfl⟩ := Nat.exists_eq_add_of_le bounded
    rw [← List.drop_drop, List.drop_take, marked, Nat.add_sub_cancel_left, List.take_left,
      Nat.add_sub_cancel_left]
  unfold WithinBreaks
  rw [behind]
  generalize window - k = d
  rcases short with rfl | rfl
  · rcases d with _ | d <;> simp
  · rcases d with _ | _ | d <;> simp

theorem withinBreaks_of_length_le (fits : cs.length ≤ window) : WithinBreaks window cs :=
  .inl (List.drop_eq_nil_of_le fits)

theorem withinBreaks_cut (positive : 0 < window) (low : Nat) (cs : List Char) :
    WithinBreaks window (cs.take (cutLength window low cs)) := by
  have paragraph := lastIn_paragraph low window cs
  have line := lastIn_line low window cs
  unfold cutLength
  split
  · next k last =>
    rw [last] at paragraph
    obtain ⟨rest, marked⟩ := paragraph.stands
    exact withinBreaks_take (Nat.le_of_lt_succ paragraph.bounds.2) (.inr rfl) marked.symm
  · split
    · next k last =>
      rw [last] at line
      obtain ⟨rest, marked⟩ := line.stands
      exact withinBreaks_take (Nat.le_of_lt_succ line.bounds.2) (.inl rfl) marked.symm
    · apply withinBreaks_of_length_le
      rw [List.length_take]
      omega

theorem withinBreaks_of_mem_splitOnto (positive : 0 < window) {parts : List (List Char)}
    {part : List Char} (h : part ∈ splitOnto window low parts cs) :
    part ∈ parts ∨ WithinBreaks window part := by
  fun_induction splitOnto window low parts cs with
  | case1 parts cs last =>
    rw [List.mem_reverse] at h
    split at h
    · exact .inl h
    · rcases List.mem_cons.mp h with rfl | h
      · exact .inr (.inl last)
      · exact .inl h
  | case2 parts cs more length ih =>
    rcases ih h with h | h
    · rcases List.mem_cons.mp h with rfl | h
      · exact .inr (withinBreaks_cut positive low cs)
      · exact .inl h
    · exact .inr h

theorem splitByBudget_of_several {content : String} {ceiling : Int}
    (several : 1 < (splitByBudget content ceiling).length) :
    splitByBudget content ceiling =
      (splitChars (windowOf ceiling) content.toList).map String.ofList := by
  by_cases fits : ceiling ≤ 0 ∨ content.length ≤ windowOf ceiling
  · rw [splitByBudget_of_fits fits] at several
    exact absurd several (Nat.lt_irrefl 1)
  · obtain ⟨positive, long⟩ := not_or.mp fits
    exact splitByBudget_of_long (Int.lt_of_not_ge positive) (Nat.lt_of_not_le long)

/-! Counts. -/

theorem estimateTokens_le_iff {content : String} {tokens : Nat} :
    estimateTokens content ≤ tokens ↔ content.length ≤ tokens * charsPerToken := by
  rw [estimateTokens_eq, charEstimate, charsPerToken]
  omega

def overhang (ceiling : Int) (part : PackFile) : List Char :=
  part.content.toList.drop (ceiling.toNat * charsPerToken)

section

variable {files : List PackFile} {ceiling : Int} {part : PackFile}

theorem tokenCount_of_mem_generated (made : part ∈ generated files ceiling) :
    part.tokenCount = none := by
  obtain ⟨file, _, _, member⟩ := exists_of_mem_generated made
  obtain ⟨_, _, rfl⟩ := List.mem_map.mp member
  rfl

theorem withinBreaks_of_mem_generated (made : part ∈ generated files ceiling) :
    WithinBreaks ((max 1 ceiling).toNat * charsPerToken) part.content.toList := by
  obtain ⟨file, _, several, member⟩ := exists_of_mem_generated made
  have listed := List.mem_map_of_mem (f := PackFile.content) member
  rw [map_content_partFiles, splitByBudget_of_several several] at listed
  obtain ⟨chars, cut, same⟩ := List.mem_map.mp listed
  have positive : 0 < (max 1 ceiling).toNat * charsPerToken := by
    unfold charsPerToken
    omega
  rw [← same, String.toList_ofList]
  exact (withinBreaks_of_mem_splitOnto positive cut).resolve_left List.not_mem_nil

theorem effectiveTokens_le_iff (uncounted : part.tokenCount = none) {limit : Int}
    (positive : 0 ≤ limit) :
    part.effectiveTokens ≤ limit ↔ part.content.length ≤ limit.toNat * charsPerToken := by
  rw [PackFile.effectiveTokens, uncounted, ← estimateTokens_le_iff]
  exact Int.le_toNat positive |>.symm

theorem length_overhang (ceiling : Int) (part : PackFile) :
    (overhang ceiling part).length = part.content.length - ceiling.toNat * charsPerToken := by
  rw [overhang, List.length_drop, String.length_toList]

theorem effectiveTokens_of_overhang (uncounted : part.tokenCount = none) {limit : Int}
    (positive : 0 ≤ limit)
    (within : WithinBreaks (limit.toNat * charsPerToken) part.content.toList) :
    overhang limit part = [] ∧ part.effectiveTokens ≤ limit ∨
      (overhang limit part = ['\n'] ∨ overhang limit part = ['\n', '\n']) ∧
        part.effectiveTokens = limit + 1 := by
  have length := length_overhang limit part
  have fits := effectiveTokens_le_iff uncounted positive
  rcases within with nothing | breaks
  · rw [show overhang limit part = [] from nothing, List.length_nil] at length
    exact .inl ⟨nothing, fits.mpr (by omega)⟩
  · have above := effectiveTokens_le_iff uncounted (show 0 ≤ limit + 1 by omega)
    have some : 0 < (overhang limit part).length ∧ (overhang limit part).length ≤ charsPerToken := by
      unfold overhang
      rcases breaks with one | two
      · rw [one]; decide
      · rw [two]; decide
    have next : (limit + 1).toNat * charsPerToken =
        limit.toNat * charsPerToken + charsPerToken := by
      rw [Int.toNat_add positive (by decide), Nat.add_mul]
      rfl
    have beyond := mt fits.mp (by omega)
    have near := above.mpr (by omega)
    exact .inr ⟨breaks, by omega⟩

end

/-- A part is above the budget exactly if it takes a line break or a blank line along from behind
its window, and then by one token. -/
theorem parts_overrun_by_breaks (files : List PackFile) (ceiling : Int) :
    (∀ b, balance files ceiling = .ok b → Arranged files b (blocks files ceiling)) ∧
    (∀ part ∈ generated files ceiling,
      overhang (max 1 ceiling) part = [] ∧ part.effectiveTokens ≤ max 1 ceiling ∨
        (overhang (max 1 ceiling) part = ['\n'] ∨ overhang (max 1 ceiling) part = ['\n', '\n']) ∧
          part.effectiveTokens = max 1 ceiling + 1) ∧
    findOversized (generated files ceiling) (max 1 ceiling) =
      ((generated files ceiling).filter (overhang (max 1 ceiling) · ≠ [])).map fun part =>
        ⟨part.path, max 1 ceiling + 1⟩ := by
  have positive : 0 ≤ max 1 ceiling := by omega
  have tokens : ∀ part ∈ generated files ceiling, _ := fun part made =>
    effectiveTokens_of_overhang (tokenCount_of_mem_generated made) positive
      (withinBreaks_of_mem_generated made)
  refine ⟨fun b => arranged_blocks, tokens, ?_⟩
  rw [findOversized_eq _ (by omega)]
  have reported : (generated files ceiling).filter (max 1 ceiling < ·.effectiveTokens) =
      (generated files ceiling).filter (overhang (max 1 ceiling) · ≠ []) := by
    apply List.filter_congr
    intro part made
    rw [decide_eq_decide]
    rcases tokens part made with ⟨nothing, fits⟩ | ⟨breaks, beyond⟩
    · exact iff_of_false (by omega) (not_not_intro nothing)
    · refine iff_of_true (by omega) ?_
      rcases breaks with one | two
      · rw [one]; exact List.cons_ne_nil _ _
      · rw [two]; exact List.cons_ne_nil _ _
  rw [reported]
  apply List.map_congr_left
  intro part listed
  obtain ⟨made, beyond⟩ := List.mem_filter.mp listed
  rcases tokens part made with ⟨nothing, _⟩ | ⟨_, count⟩
  · exact absurd nothing (of_decide_eq_true beyond)
  · rw [count]

def breaksAtWindowEnd : List PackFile := [⟨"a.md", "abcd\n\nefgh\nijk", none⟩]

theorem parts_overrun_by_breaks_atWindowEnd :
    ∃ b, balance breaksAtWindowEnd 1 = .ok b ∧
      Arranged breaksAtWindowEnd b (blocks breaksAtWindowEnd 1) ∧
      (generated breaksAtWindowEnd 1).map (overhang 1) = [['\n', '\n'], ['\n'], []] ∧
      (∀ part ∈ generated breaksAtWindowEnd 1, part.effectiveTokens ≤ 2) ∧
      findOversized (generated breaksAtWindowEnd 1) 1 =
        [⟨"a.part-1-of-3.md", 2⟩, ⟨"a.part-2-of-3.md", 2⟩] := by
  obtain ⟨arranged, tokens, reported⟩ := parts_overrun_by_breaks breaksAtWindowEnd 1
  have returns : (balance breaksAtWindowEnd 1).isOk = true := by decide +kernel
  cases balanced : balance breaksAtWindowEnd 1 with
  | error fault =>
    rw [balanced] at returns
    cases returns
  | ok b =>
    refine ⟨b, rfl, arranged b balanced, by decide +kernel, ?_, ?_⟩
    · intro part made
      rcases tokens part made with ⟨_, fits⟩ | ⟨_, beyond⟩ <;> omega
    · exact reported.trans (by decide +kernel)

theorem parts_exceed_ceiling :
    (balance breaksAtWindowEnd 1).map (·.files) = .ok (generated breaksAtWindowEnd 1) ∧
      (generated breaksAtWindowEnd 1).map (fun part => (part.content, part.effectiveTokens)) =
        [("abcd\n\n", 2), ("efgh\n", 2), ("ijk", 1)] ∧
      findOversized (generated breaksAtWindowEnd 1) (max 1 1) ≠ [] := by
  decide +kernel

end PromptPack.Budget
