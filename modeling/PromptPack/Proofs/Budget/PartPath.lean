import PromptPack.Proofs.Budget.PartNames
import PromptPack.Proofs.Numeric.IntegerText
import PromptPack.Source.SourceFile

/-! What a part's path keeps of the path it is made from: the directory, and the suffix that the
extension is read from, if there is one. Main statement: `partPath_spec`. -/

namespace PromptPack

namespace SourceFile

/-- The last dot of the file name and what follows it, unless only dots stand in front of it. -/
def suffixOf (path : String) : List Char :=
  match Text.splitAtLast? '.' (fileName path.toList) with
  | some (stem, suffix) => if stem.all (· == '.') then [] else suffix
  | none => []

theorem dropDots_of_notMem {cs : List Char} (plain : '.' ∉ cs) : dropDots cs = cs := by
  cases cs with
  | nil => rfl
  | cons c cs =>
    have other : c ≠ '.' := fun same => plain (same ▸ List.mem_cons_self)
    simp [dropDots, other]

theorem dropDots_append (stem : List Char) {rest : List Char} (last : '.' ∉ rest) :
    dropDots (stem ++ '.' :: rest) =
      if stem.all (· == '.') then rest else dropDots stem ++ '.' :: rest := by
  induction stem with
  | nil => exact dropDots_of_notMem last
  | cons c stem ih =>
    by_cases dot : c = '.'
    · subst dot
      exact ih
    · simp [dropDots, dot]

theorem extensionOf_eq (path : String) :
    extensionOf path = String.ofList (dropDots (suffixOf path)) := by
  unfold extensionOf suffixOf
  dsimp only
  cases found : Text.splitAtLast? '.' (fileName path.toList) with
  | none =>
    have plain := Text.splitAtLast?_eq_none found
    rw [dropDots_of_notMem plain, if_neg (by simpa using plain)]
    rfl
  | some parts =>
    obtain ⟨stem, suffix⟩ := parts
    obtain ⟨rest, rfl, last, joined⟩ := Text.splitAtLast?_eq_some found
    rw [joined, dropDots_append stem last]
    dsimp only
    split
    · rw [if_neg (by simpa using last)]
      rfl
    · rw [if_pos (by simp)]
      have here : dropDots ('.' :: rest) = rest := dropDots_of_notMem last
      -- The extension is read from the end of the name, up to the first dot met there.
      have before : (rest.reverse ++ '.' :: (dropDots stem).reverse).takeWhile (· != '.') =
          rest.reverse := by
        rw [List.takeWhile_append_of_pos, List.takeWhile_cons_of_neg, List.append_nil]
        · simp
        · intro c member
          have other : c ≠ '.' := by
            rintro rfl
            exact last (List.mem_reverse.mp member)
          simpa using other
      rw [here, List.reverse_append, List.reverse_cons, List.append_assoc, List.singleton_append,
        before, List.reverse_reverse]

end SourceFile

namespace Budget

open SourceFile (fileName suffixOf)

structure Located (path : String) (directory name : List Char) : Prop where
  joined : path.toList = directory ++ name
  plain : ∀ c ∈ name, isSeparator c = false
  closed : directory = [] ∨ ∃ front c, isSeparator c = true ∧ directory = front ++ [c]

theorem Located.splitDirectory {path : String} {directory name : List Char}
    (located : Located path directory name) : splitDirectory path.toList = (directory, name) := by
  have passes : ∀ c ∈ name.reverse, (!isSeparator c) = true := by
    intro c member
    rw [located.plain c (List.mem_reverse.mp member)]
    rfl
  rw [located.joined]
  unfold Budget.splitDirectory
  rw [List.reverse_append, List.dropWhile_append_of_pos passes, List.takeWhile_append_of_pos passes]
  rcases located.closed with rfl | ⟨front, c, separator, rfl⟩
  · simp
  · simp [separator]

theorem located_splitDirectory (path : String) :
    Located path (splitDirectory path.toList).1 (splitDirectory path.toList).2 where
  joined := (append_splitDirectory path.toList).symm
  plain := plain_of_splitDirectory path.toList
  closed := by
    unfold Budget.splitDirectory
    dsimp only
    have stops := List.head?_dropWhile_not (fun c => !isSeparator c) path.toList.reverse
    generalize path.toList.reverse.dropWhile (fun c => !isSeparator c) = kept at stops
    cases kept with
    | nil => exact .inl rfl
    | cons c front =>
      refine .inr ⟨front.reverse, c, ?_, List.reverse_cons⟩
      simpa using stops

theorem located_partPath {path : String} {directory name : List Char}
    (located : Located path directory name) (index count : Nat) :
    Located (partPath path index count) directory (partName name index count) where
  joined := by rw [toList_partPath, located.splitDirectory]
  plain := plain_partName located.plain index count
  closed := located.closed

theorem fileName_eq (path : List Char) : fileName path = (splitDirectory path).2 := rfl

theorem fileName_partPath (path : String) (index count : Nat) :
    fileName (partPath path index count).toList = partName (fileName path.toList) index count := by
  have located := located_partPath (located_splitDirectory path) index count
  rw [fileName_eq, fileName_eq, located.splitDirectory]

theorem suffixOf_partPath {path : String} (some : suffixOf path ≠ []) (index count : Nat) :
    suffixOf (partPath path index count) = suffixOf path := by
  unfold suffixOf at some ⊢
  rw [fileName_partPath]
  generalize fileName path.toList = name at some
  cases found : Text.splitAtLast? '.' name with
  | none => simp [found] at some
  | some parts =>
    obtain ⟨stem, suffix⟩ := parts
    obtain ⟨rest, rfl, last, joined⟩ := Text.splitAtLast?_eq_some found
    rw [found] at some
    have named : stem.all (· == '.') = false := by
      rw [← Bool.not_eq_true]
      intro dots
      simp [dots] at some
    -- A dot that comes first starts no extension, so the stem has to be more than nothing.
    have nonempty : stem ≠ [] := by
      rintro rfl
      cases named
    obtain ⟨c, stem, rfl⟩ := List.exists_cons_of_ne_nil nonempty
    have marked : partName name index count =
        (c :: stem ++ '.' :: markText index count) ++ '.' :: rest := by
      rw [partName, splitExtension, found]
    rw [marked, Text.splitAtLast?_append _ last]
    dsimp only
    rw [List.all_append, named]
    rfl

theorem writePartPath_part (path : String) {i n : Nat} (part : i < n)
    (few : n < 10 ^ IntegerText.maxDigits) :
    writePartPath path i n = .ok (partPath path i n) := by
  have index : IntegerText.isWritable (i + 1) = true := by
    rw [IntegerText.isWritable_iff]
    exact Nat.lt_of_le_of_lt (by omega) few
  have count : IntegerText.isWritable n = true := IntegerText.isWritable_iff.mpr few
  rw [writePartPath, index, count]
  rfl

/-- Different paths, numbers and counts make different names; a part lies in the directory of its
file, and has the extension of its file if the path has a suffix. -/
theorem partPath_spec (path other : String) (i j m n : Nat) :
    (partPath path i m = partPath other j n ↔ path = other ∧ i = j ∧ m = n) ∧
      (∀ directory name, Located path directory name →
        ∃ part, Located (partPath path i m) directory part) ∧
      (suffixOf path ≠ [] →
        (SourceFile.ofPath { path := partPath path i m }).extension =
          (SourceFile.ofPath { path }).extension) := by
  refine ⟨⟨partPath_inj, ?_⟩, ?_, ?_⟩
  · rintro ⟨rfl, rfl, rfl⟩
    rfl
  · intro directory name located
    exact ⟨_, located_partPath located i m⟩
  · intro some
    have kept := suffixOf_partPath some i m
    simp only [SourceFile.ofPath, SourceFile.extensionOf_eq, kept]

/-- Separators of both kinds, a leading dot, and a mark that the path has already. -/
def markedPath : String := "src\\lib/.b.part-1-of-2.rs"

theorem partPath_spec_markedPath :
    suffixOf markedPath ≠ [] ∧ Located markedPath "src\\lib/".toList ".b.part-1-of-2.rs".toList ∧
      partPath markedPath 1 12 = "src\\lib/.b.part-1-of-2.part-2-of-12.rs" ∧
      partPath markedPath 1 12 ≠ partPath "src\\lib/.b.rs" 0 2 ∧
      (∃ part, Located (partPath markedPath 1 12) "src\\lib/".toList part) ∧
      (SourceFile.ofPath { path := partPath markedPath 1 12 }).extension = "rs" := by
  obtain ⟨names, directories, extensions⟩ := partPath_spec markedPath "src\\lib/.b.rs" 1 0 12 2
  have some : suffixOf markedPath ≠ [] := by decide +kernel
  have parts : splitDirectory markedPath.toList =
      ("src\\lib/".toList, ".b.part-1-of-2.rs".toList) := by decide +kernel
  have located : Located markedPath "src\\lib/".toList ".b.part-1-of-2.rs".toList := by
    have located := located_splitDirectory markedPath
    rwa [parts] at located
  refine ⟨some, located, by decide +kernel, ?_, directories _ _ located, ?_⟩
  · intro same
    exact absurd (names.mp same).1 (by decide +kernel)
  · exact (extensions some).trans (by decide +kernel)

end Budget

end PromptPack
