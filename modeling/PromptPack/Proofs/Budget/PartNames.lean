import Mathlib.Data.List.DropRight
import Mathlib.Data.List.Nodup
import PromptPack.Proofs.Budget.Parts

/-! The names of parts. A part's name gives back the path, the number and the count that it was made
from, so no two parts share one; a part may only be named like a file that was left whole. Main
statements: `partPath_inj`, `paths_nodup_iff`. -/

namespace PromptPack

namespace Text

theorem append_cons_inj {c : Char} {front other back rest : List Char} (last : c ∉ back)
    (lastOther : c ∉ rest) (h : front ++ c :: back = other ++ c :: rest) :
    front = other ∧ back = rest := by
  rcases List.append_eq_append_iff.mp h with ⟨between, longer, here⟩ | ⟨between, longer, here⟩
  · rcases List.cons_eq_append_iff.mp here with ⟨rfl, same⟩ | ⟨_, rfl, rfl⟩
    · exact ⟨by simpa using longer.symm, (List.cons.inj same).2.symm⟩
    · exact absurd (by simp) last
  · rcases List.cons_eq_append_iff.mp here with ⟨rfl, same⟩ | ⟨_, rfl, rfl⟩
    · exact ⟨by simpa using longer, (List.cons.inj same).2⟩
    · exact absurd (by simp) lastOther

theorem takeWhile_dropWhile (p : Char → Bool) (cs : List Char) :
    (cs.dropWhile p).takeWhile p = [] := by
  induction cs with
  | nil => rfl
  | cons c cs ih => by_cases passed : p c <;> simp [passed, ih]

theorem splitAtLast?_eq_none {c : Char} {cs : List Char} (h : splitAtLast? c cs = none) :
    c ∉ cs := by
  unfold splitAtLast? at h
  dsimp only at h
  split at h
  · next nothing =>
    intro member
    have all := List.dropWhile_eq_nil_iff.mp nothing c (List.mem_reverse.mpr member)
    simp at all
  · cases h

theorem splitAtLast?_eq_some {c : Char} {cs front back : List Char}
    (h : splitAtLast? c cs = some (front, back)) :
    ∃ rest, back = c :: rest ∧ c ∉ rest ∧ cs = front ++ back := by
  unfold splitAtLast? at h
  dsimp only at h
  split at h
  · cases h
  · next d before found =>
    obtain ⟨rfl, rfl⟩ := Prod.mk.inj (Option.some.inj h)
    have here : d = c := by
      have head := List.head?_dropWhile_not (· != c) cs.reverse
      rw [found] at head
      simpa using head
    obtain rfl := here
    refine ⟨_, rfl, ?_, ?_⟩
    · intro member
      have passed := List.mem_takeWhile_imp (List.mem_reverse.mp member)
      simp at passed
    · have whole := List.takeWhile_append_dropWhile (p := (· != d)) (l := cs.reverse)
      rw [found] at whole
      have := congrArg List.reverse whole
      simpa using this.symm

theorem splitAtLast?_append (front : List Char) {c : Char} {rest : List Char}
    (last : c ∉ rest) : splitAtLast? c (front ++ c :: rest) = some (front, c :: rest) := by
  cases found : splitAtLast? c (front ++ c :: rest) with
  | none => exact absurd (by simp) (splitAtLast?_eq_none found)
  | some parts =>
    obtain ⟨other, back⟩ := parts
    obtain ⟨behind, rfl, lastOther, joined⟩ := splitAtLast?_eq_some found
    obtain ⟨rfl, rfl⟩ := append_cons_inj last lastOther joined
    rfl

end Text

namespace Budget

/-! Paths. -/

theorem splitDirectory_append (path : List Char) {name : List Char}
    (plain : ∀ c ∈ name, isSeparator c = false) :
    splitDirectory ((splitDirectory path).1 ++ name) = ((splitDirectory path).1, name) := by
  unfold splitDirectory
  dsimp only
  have passes : ∀ c ∈ name.reverse, (!isSeparator c) = true := by
    intro c member
    rw [plain c (List.mem_reverse.mp member)]
    rfl
  rw [List.reverse_append, List.reverse_reverse, List.dropWhile_append_of_pos passes,
    List.takeWhile_append_of_pos passes, List.dropWhile_idempotent, Text.takeWhile_dropWhile,
    List.append_nil, List.reverse_reverse]

theorem append_splitDirectory (path : List Char) :
    (splitDirectory path).1 ++ (splitDirectory path).2 = path := by
  unfold splitDirectory
  dsimp only
  rw [← List.reverse_append, List.takeWhile_append_dropWhile, List.reverse_reverse]

theorem plain_of_splitDirectory (path : List Char) :
    ∀ c ∈ (splitDirectory path).2, isSeparator c = false := by
  intro c member
  have passed := List.mem_takeWhile_imp (List.mem_reverse.mp member)
  simpa using passed

/-- A name and its extension. A dot that comes first starts no extension. -/
inductive NameParts (name : List Char) : List Char → List Char → Prop where
  | bare (single : '.' ∉ name.tail) : NameParts name name []
  | extended {stem rest : List Char} (some : stem ≠ []) (last : '.' ∉ rest)
      (joined : name = stem ++ '.' :: rest) : NameParts name stem ('.' :: rest)

theorem nameParts_splitExtension (name : List Char) :
    NameParts name (splitExtension name).1 (splitExtension name).2 := by
  unfold splitExtension
  cases found : Text.splitAtLast? '.' name with
  | none =>
    have absent := Text.splitAtLast?_eq_none found
    exact .bare (mt List.mem_of_mem_tail absent)
  | some parts =>
    obtain ⟨stem, extension⟩ := parts
    obtain ⟨rest, rfl, last, joined⟩ := Text.splitAtLast?_eq_some found
    cases stem with
    | nil =>
      rw [List.nil_append] at joined
      exact .bare (by rw [joined]; exact last)
    | cons c stem => exact .extended (List.cons_ne_nil c stem) last joined

def markText (index count : Nat) : List Char :=
  ("part-" ++ Nat.repr (index + 1) ++ "-of-" ++ Nat.repr count).toList

theorem partMark_eq (index count : Nat) : partMark index count = '.' :: markText index count := by
  have written : partMark index count =
      (".part-" ++ Nat.repr (index + 1) ++ "-of-" ++ Nat.repr count).toList := rfl
  rw [written]
  unfold markText
  simp

theorem markText_eq (index count : Nat) :
    markText index count =
      "part-".toList ++ Nat.toDigits 10 (index + 1) ++ "-of".toList ++
        '-' :: Nat.toDigits 10 count := by
  unfold markText
  simp [Nat.toList_repr]

theorem isDigit_of_mem_toDigits {n : Nat} {c : Char} (member : c ∈ Nat.toDigits 10 n) :
    c.isDigit = true := Nat.isDigit_of_mem_toDigits (by decide) (by decide) member

theorem toDigits_inj {m n : Nat} (same : Nat.toDigits 10 m = Nat.toDigits 10 n) : m = n := by
  rw [← Nat.ofDigitChars_ten_toDigits (n := m), same, Nat.ofDigitChars_ten_toDigits]

theorem markText_inj {i j m n : Nat} (same : markText i m = markText j n) : i = j ∧ m = n := by
  have plain : ∀ k, '-' ∉ Nat.toDigits 10 k := fun k member => by
    have digit := isDigit_of_mem_toDigits member
    revert digit
    decide
  rw [markText_eq, markText_eq] at same
  obtain ⟨front, count⟩ := Text.append_cons_inj (plain m) (plain n) same
  have index := toDigits_inj (List.append_cancel_left (List.append_cancel_right front))
  exact ⟨by omega, toDigits_inj count⟩

theorem plain_markText {index count : Nat} {c : Char} (member : c ∈ markText index count) :
    isSeparator c = false ∧ c ≠ '.' := by
  rw [markText_eq] at member
  have fixed : ∀ c ∈ "part-".toList ++ "-of".toList ++ ['-'], isSeparator c = false ∧ c ≠ '.' := by
    simp [isSeparator]
  have digits : ∀ n, c ∈ Nat.toDigits 10 n → isSeparator c = false ∧ c ≠ '.' := by
    intro n listed
    have digit := isDigit_of_mem_toDigits listed
    constructor
    · unfold isSeparator
      rw [Bool.or_eq_false_iff, beq_eq_false_iff_ne, beq_eq_false_iff_ne]
      constructor <;> (rintro rfl; revert digit; decide)
    · rintro rfl
      revert digit
      decide
  simp only [List.mem_append, List.mem_cons] at member fixed
  rcases member with (((member | member) | member) | rfl | member)
  · exact fixed c (.inl (.inl member))
  · exact digits _ member
  · exact fixed c (.inl (.inr member))
  · exact fixed '-' (.inr (.inl rfl))
  · exact digits _ member

theorem NameParts.append_eq {name stem extension : List Char}
    (parts : NameParts name stem extension) : stem ++ extension = name := by
  cases parts with
  | bare => exact List.append_nil name
  | extended _ _ joined => exact joined.symm

theorem ne_marked_of_bare {name stem mark : List Char} (single : '.' ∉ name.tail)
    (some : stem ≠ []) : name ≠ stem ++ '.' :: mark := by
  rintro rfl
  obtain ⟨c, stem, rfl⟩ := List.exists_cons_of_ne_nil some
  exact single (List.mem_append_right stem List.mem_cons_self)

section

variable {name other stem stem' extension extension' mark mark' : List Char}

theorem marked_inj (parts : NameParts name stem extension)
    (parts' : NameParts other stem' extension') (plain : '.' ∉ mark) (plain' : '.' ∉ mark')
    (same : stem ++ '.' :: mark ++ extension = stem' ++ '.' :: mark' ++ extension') :
    name = other ∧ mark = mark' := by
  cases parts with
  | bare single =>
    rw [List.append_nil] at same
    cases parts' with
    | bare single' =>
      rw [List.append_nil] at same
      exact Text.append_cons_inj plain plain' same
    | extended some' last' _ =>
      obtain ⟨marked, _⟩ := Text.append_cons_inj plain last' same
      exact absurd marked (ne_marked_of_bare single some')
  | extended some last joined =>
    cases parts' with
    | bare single' =>
      rw [List.append_nil] at same
      obtain ⟨marked, _⟩ := Text.append_cons_inj plain' last same.symm
      exact absurd marked (ne_marked_of_bare single' some)
    | extended _ last' joined' =>
      obtain ⟨front, rfl⟩ := Text.append_cons_inj last last' same
      obtain ⟨rfl, marks⟩ := Text.append_cons_inj plain plain' front
      exact ⟨joined.trans joined'.symm, marks⟩

end

def partName (name : List Char) (index count : Nat) : List Char :=
  (splitExtension name).1 ++ '.' :: markText index count ++ (splitExtension name).2

theorem toList_partPath (path : String) (index count : Nat) :
    (partPath path index count).toList =
      (splitDirectory path.toList).1 ++
        partName (splitDirectory path.toList).2 index count := by
  unfold partPath partName
  dsimp only
  rw [String.toList_ofList, partMark_eq]
  simp only [List.append_assoc]

theorem plain_partName {name : List Char} (plain : ∀ c ∈ name, isSeparator c = false)
    (index count : Nat) : ∀ c ∈ partName name index count, isSeparator c = false := by
  intro c member
  have whole := (nameParts_splitExtension name).append_eq
  unfold partName at member
  rcases List.mem_append.mp member with marked | listed
  · rcases List.mem_append.mp marked with listed | listed
    · exact plain c (whole ▸ List.mem_append_left _ listed)
    · rcases List.mem_cons.mp listed with rfl | listed
      · rfl
      · exact (plain_markText listed).1
  · exact plain c (whole ▸ List.mem_append_right _ listed)

theorem partPath_inj {path other : String} {i j m n : Nat}
    (same : partPath path i m = partPath other j n) : path = other ∧ i = j ∧ m = n := by
  have chars := congrArg (splitDirectory ∘ String.toList) same
  simp only [Function.comp_apply, toList_partPath] at chars
  rw [splitDirectory_append _ (plain_partName (plain_of_splitDirectory _) i m),
    splitDirectory_append _ (plain_partName (plain_of_splitDirectory _) j n)] at chars
  obtain ⟨directories, names⟩ := Prod.mk.inj chars
  have plain : ∀ index count, '.' ∉ markText index count := fun index count member =>
    (plain_markText member).2 rfl
  obtain ⟨name, marks⟩ := marked_inj (nameParts_splitExtension _) (nameParts_splitExtension _)
    (plain i m) (plain j n) names
  refine ⟨?_, markText_inj marks⟩
  rw [← String.toList_inj, ← append_splitDirectory path.toList, directories, name,
    append_splitDirectory]

/-! Blocks. -/

section

variable {files : List PackFile} {ceiling : Int} {oversized : List String}

theorem nodup_paths_partFiles (file : PackFile) (parts : List String) :
    ((partFiles file parts).map (·.path)).Nodup := by
  rw [map_path_partFiles]
  apply List.Nodup.map_on _ List.nodup_range
  intro i _ j _ same
  exact (partPath_inj same).2.1

theorem exists_path_partFiles {file part : PackFile} {parts : List String}
    (member : part ∈ partFiles file parts) :
    ∃ i : Nat, part.path = partPath file.path i parts.length := by
  have listed := List.mem_map_of_mem (f := PackFile.path) member
  rw [map_path_partFiles] at listed
  obtain ⟨i, _, same⟩ := List.mem_map.mp listed
  exact ⟨i, same.symm⟩

theorem disjoint_partFiles {file other : PackFile} (different : file.path ≠ other.path)
    (parts parts' : List String) :
    ((partFiles file parts).map (·.path)).Disjoint ((partFiles other parts').map (·.path)) := by
  rw [List.disjoint_left]
  intro path listed listed'
  obtain ⟨part, member, rfl⟩ := List.mem_map.mp listed
  obtain ⟨part', member', same⟩ := List.mem_map.mp listed'
  obtain ⟨i, named⟩ := exists_path_partFiles member
  obtain ⟨j, named'⟩ := exists_path_partFiles member'
  exact different (partPath_inj ((named.symm.trans same.symm).trans named')).1

theorem nodup_paths_generated (distinct : (files.map (·.path)).Nodup) :
    ((generated files ceiling).map (·.path)).Nodup := by
  unfold generated blocks
  rw [List.map_flatten, List.nodup_flatten]
  constructor
  · intro paths listed
    obtain ⟨parts, kept, rfl⟩ := List.mem_map.mp listed
    obtain ⟨stands, several⟩ := List.mem_filter.mp kept
    obtain ⟨file, _, rfl⟩ := List.mem_map.mp stands
    rw [(block_of_several (of_decide_eq_true several)).2]
    exact nodup_paths_partFiles file _
  · rw [List.pairwise_map, List.pairwise_filter, List.pairwise_map]
    refine (List.pairwise_map.mp distinct).imp ?_
    intro file other different several several'
    rw [(block_of_several (of_decide_eq_true several)).2,
      (block_of_several (of_decide_eq_true several')).2]
    exact disjoint_partFiles different _ _

theorem flatten_single_sublist (oversized : List String) (ceiling : Int) (files : List PackFile) :
    ((files.map (block oversized ceiling)).filter (¬ 1 < ·.length)).flatten.Sublist files := by
  induction files with
  | nil => exact .slnil
  | cons file files ih =>
    rw [List.map_cons, List.filter_cons]
    split
    · next single =>
      rw [block_of_not_several (of_decide_eq_true single), List.flatten_cons]
      exact ih.cons_cons file
    · exact ih.cons file

theorem perm_flatten_blocks :
    (generated files ceiling ++ leftWhole files ceiling).Perm (blocks files ceiling).flatten := by
  have parted := List.filter_append_perm (1 < ·.length) (blocks files ceiling)
  unfold generated leftWhole
  rw [← List.flatten_append]
  simpa only [decide_not] using parted.flatten

end

/-- Over distinct paths no two parts share a name, and the result has distinct paths exactly if no
file that was left whole is named like a part. -/
theorem paths_nodup_iff {files : List PackFile} (distinct : (files.map (·.path)).Nodup)
    (ceiling : Int) :
    (∀ b, balance files ceiling = .ok b → Arranged files b (blocks files ceiling)) ∧
    ((generated files ceiling).map (·.path)).Nodup ∧
    (((blocks files ceiling).flatten.map (·.path)).Nodup ↔
      ∀ file ∈ leftWhole files ceiling, ∀ part ∈ generated files ceiling,
        file.path ≠ part.path) := by
  have parts : ((generated files ceiling).map (·.path)).Nodup := nodup_paths_generated distinct
  have whole : ((leftWhole files ceiling).map (·.path)).Nodup :=
    distinct.sublist ((flatten_single_sublist _ _ files).map _)
  refine ⟨fun b => arranged_blocks, parts, ?_⟩
  rw [← (perm_flatten_blocks.map _).nodup_iff, List.map_append, List.nodup_append]
  constructor
  · rintro ⟨_, _, apart⟩ file left part made same
    exact apart _ (List.mem_map_of_mem made) _ (List.mem_map_of_mem left) same.symm
  · intro apart
    refine ⟨parts, whole, ?_⟩
    intro path listed other listed'
    obtain ⟨part, made, rfl⟩ := List.mem_map.mp listed
    obtain ⟨file, left, rfl⟩ := List.mem_map.mp listed'
    exact (apart file left part made).symm

/-- Two files of one name, a name that starts with a dot, and one that is marked already. -/
def lookalikes : List PackFile :=
  [⟨"src/a.ts", "abcdefgh", none⟩, ⟨"src\\a.ts", "abcdefgh", none⟩, ⟨".env", "abcdefgh", none⟩,
    ⟨"a.part-1-of-2.ts", "abcdefgh", none⟩, ⟨"b.part-1-of-2.ts", "b", none⟩]

theorem paths_nodup_iff_lookalikes :
    (lookalikes.map (·.path)).Nodup ∧
      ∃ b, balance lookalikes 1 = .ok b ∧
        b.files.map (·.path) =
          ["src/a.part-1-of-2.ts", "src/a.part-2-of-2.ts", "src\\a.part-1-of-2.ts",
            "src\\a.part-2-of-2.ts", ".env.part-1-of-2", ".env.part-2-of-2",
            "a.part-1-of-2.part-1-of-2.ts", "a.part-1-of-2.part-2-of-2.ts", "b.part-1-of-2.ts"] ∧
        (b.files.map (·.path)).Nodup := by
  have distinct : (lookalikes.map (·.path)).Nodup := by decide +kernel
  obtain ⟨arranged, _, nodup⟩ := paths_nodup_iff distinct 1
  have returns : (balance lookalikes 1).isOk = true := by decide +kernel
  cases balanced : balance lookalikes 1 with
  | error fault =>
    rw [balanced] at returns
    cases returns
  | ok b =>
    have paths := congrArg (List.map (·.path)) (arranged b balanced).files
    refine ⟨distinct, b, rfl, paths.trans ?_, ?_⟩
    · decide +kernel
    · rw [(arranged b balanced).files, nodup]
      decide +kernel

def namesake : List PackFile :=
  [⟨"a.ts", "abcdefgh", none⟩, ⟨"a.part-1-of-2.ts", "x", none⟩]

theorem paths_not_nodup :
    (namesake.map (·.path)).Nodup ∧
      (balance namesake 1).map (·.files.map (·.path)) =
        .ok ["a.part-1-of-2.ts", "a.part-2-of-2.ts", "a.part-1-of-2.ts"] ∧
      ¬ ["a.part-1-of-2.ts", "a.part-2-of-2.ts", "a.part-1-of-2.ts"].Nodup := by
  decide +kernel

end Budget

end PromptPack
