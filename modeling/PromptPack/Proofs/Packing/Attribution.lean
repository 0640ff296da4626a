import PromptPack.Packing.Attribution
import PromptPack.Proofs.Budget.Ceiling
import PromptPack.Proofs.Numeric.HalfUp
import PromptPack.Proofs.Table

/-! How the estimate of a pack is spread over its files. The files whose count is known keep it, the
others get one share each, and as the share is a nearest whole number the pack's sum misses its
estimate by at most half a token for each of them. Main statement: `tokensByFile_attributes`. -/

namespace PromptPack.Packing

variable {known table : Table String Int} {pack : PackEstimate} {each : Int}
  {packs : List PackEstimate}

def knownTotal (known : Table String Int) (pack : PackEstimate) : Int :=
  total (pack.filePaths.filterMap known.get?)

def unknownPaths (known : Table String Int) (pack : PackEstimate) : List String :=
  pack.filePaths.filter fun path => !known.has path

def attributedTotal (table : Table String Int) (pack : PackEstimate) : Int :=
  total (pack.filePaths.map fun path => (table.get? path).getD 0)

/-- One share for each file of a pack whose count is not known. -/
structure Attributes (known table : Table String Int) (pack : PackEstimate) (each : Int) :
    Prop where
  counts : ∀ path ∈ pack.filePaths, table.get? path = some ((known.get? path).getD each)
  nonneg : 0 ≤ each
  conserved : unknownPaths known pack ≠ [] → knownTotal known pack ≤ pack.estimatedTokens →
    2 * |attributedTotal table pack - pack.estimatedTokens| ≤ (unknownPaths known pack).length
  exhausted : unknownPaths known pack ≠ [] → pack.estimatedTokens < knownTotal known pack → each = 0

/-! One pack. -/

theorem exists_share {remaining : Int} (nonneg : 0 ≤ remaining) (small : remaining < 2 ^ 50)
    {files : Nat} (some : 0 < files) :
    ∃ each, share remaining files = .ok each ∧ 0 ≤ each ∧
      2 * |files * each - remaining| ≤ files := by
  obtain ⟨n, rfl⟩ := Int.eq_ofNat_of_zero_le nonneg
  obtain ⟨x, each, divided, rounded, positive, near⟩ :=
    Binary64.exists_halfUp_quotient (by exact_mod_cast small) some
  refine ⟨each, ?_, positive, near⟩
  rw [share, divided]
  exact Budget.integerPart_eq_ok.mpr rounded

def rows (known : Table String Int) (each : Int) (pack : PackEstimate) : Table String Int :=
  (pack.filePaths.filterMap fun path => (known.get? path).map fun n => (path, n)) ++
    (unknownPaths known pack).map fun path => (path, each)

theorem keys_rows_perm (known : Table String Int) (each : Int) (pack : PackEstimate) :
    (rows known each pack).keys.Perm pack.filePaths := by
  have found : (pack.filePaths.filterMap fun path => (known.get? path).map fun n => (path, n)).map
      Prod.fst = pack.filePaths.filter fun path => known.has path := by
    rw [List.map_filterMap, ← List.filterMap_eq_filter]
    apply List.filterMap_congr
    intro path _
    cases value : known.get? path <;> simp [Option.guard, Table.has, value]
  have others : ((unknownPaths known pack).map fun path => (path, each)).map Prod.fst =
      pack.filePaths.filter fun path => !known.has path := by
    rw [List.map_map]
    exact List.map_id _
  rw [rows, Table.keys, List.map_append, found, others]
  exact List.filter_append_perm _ _

theorem mem_rows {path : String} (member : path ∈ pack.filePaths) :
    (path, (known.get? path).getD each) ∈ rows known each pack := by
  rw [rows, List.mem_append]
  cases found : known.get? path with
  | some n =>
    left
    exact List.mem_filterMap.mpr ⟨path, member, by rw [found]; rfl⟩
  | none =>
    right
    refine List.mem_map.mpr ⟨path, List.mem_filter.mpr ⟨member, ?_⟩, rfl⟩
    rw [Table.has, found]
    rfl

theorem total_known (known : Table String Int) (pack : PackEstimate) :
    total ((pack.filePaths.filterMap fun path => (known.get? path).map fun n => (path, n)).map
      (·.2)) = knownTotal known pack := by
  rw [knownTotal, List.map_filterMap]
  congr 1
  apply List.filterMap_congr
  intro path _
  cases known.get? path <;> rfl

theorem attributePack_of_share
    (shared : unknownPaths known pack ≠ [] → share
      (max 0 (pack.estimatedTokens - knownTotal known pack)) (unknownPaths known pack).length =
        .ok each) (table : Table String Int) :
    attributePack known table pack = .ok (table.setEach (rows known each pack)) := by
  unfold attributePack rows
  dsimp only
  rw [total_known, ← unknownPaths]
  by_cases none : unknownPaths known pack = []
  · rw [none, if_pos List.isEmpty_nil, List.map_nil, List.append_nil]
    rfl
  · rw [if_neg (by simpa using none), shared none, Table.setEach_append]
    rfl

theorem attributedTotal_eq (counts : ∀ path ∈ pack.filePaths,
    table.get? path = some ((known.get? path).getD each)) :
    attributedTotal table pack =
      knownTotal known pack + (unknownPaths known pack).length * each := by
  unfold attributedTotal knownTotal unknownPaths
  generalize pack.filePaths = paths at counts
  induction paths with
  | nil => simp
  | cons path paths ih =>
    obtain ⟨here, there⟩ := List.forall_mem_cons.mp counts
    rw [List.map_cons, total_cons, ih there, here, List.filterMap_cons, List.filter_cons, Table.has]
    cases known.get? path with
    | some n => simp [Int.add_assoc]
    | none =>
      simp
      ring

theorem knownTotal_nonneg (counts : ∀ path n, known.get? path = some n → 0 ≤ n)
    (pack : PackEstimate) : 0 ≤ knownTotal known pack := by
  unfold knownTotal
  generalize pack.filePaths = paths
  induction paths with
  | nil => exact Int.le_refl 0
  | cons path paths ih =>
    rw [List.filterMap_cons]
    cases found : known.get? path with
    | none => exact ih
    | some n =>
      have here := counts path n found
      rw [total_cons]
      omega

theorem exists_attributePack (known : Table String Int) (pack : PackEstimate)
    (counts : ∀ path n, known.get? path = some n → 0 ≤ n)
    (estimate : pack.estimatedTokens < 2 ^ 50) :
    ∃ each,
      (∀ table, attributePack known table pack = .ok (table.setEach (rows known each pack))) ∧
      ∀ table : Table String Int,
        (∀ path ∈ pack.filePaths, table.get? path = some ((known.get? path).getD each)) →
          Attributes known table pack each := by
  by_cases none : unknownPaths known pack = []
  · exact ⟨0, attributePack_of_share (absurd none), fun table counts =>
      ⟨counts, Int.le_refl 0, absurd none, absurd none⟩⟩
  · have some := List.length_pos_iff.mpr none
    have positive := knownTotal_nonneg counts pack
    have bound : max 0 (pack.estimatedTokens - knownTotal known pack) < 2 ^ 50 := by omega
    obtain ⟨each, shared, nonneg, near⟩ := exists_share (le_max_left 0 _) bound some
    refine ⟨each, attributePack_of_share fun _ => shared, fun table counts =>
      ⟨counts, nonneg, fun _ within => ?_, fun _ past => ?_⟩⟩
    · rw [max_eq_right (by omega)] at near
      rw [attributedTotal_eq counts]
      have same : knownTotal known pack + (unknownPaths known pack).length * each -
          pack.estimatedTokens = (unknownPaths known pack).length * each -
            (pack.estimatedTokens - knownTotal known pack) := by ring
      rwa [same]
    · -- A share of one would bring the pack past half a token for each of its files.
      rw [max_eq_left (by omega), sub_zero, abs_of_nonneg (by positivity)] at near
      have less : (unknownPaths known pack).length * (2 * each) ≤
          (unknownPaths known pack).length * 1 := by linarith
      have := Int.le_of_mul_le_mul_left less (by omega)
      omega

/-! All packs. -/

theorem foldlM_attributePack {each : PackEstimate → Int}
    (made : ∀ pack ∈ packs, ∀ table,
      attributePack known table pack = .ok (table.setEach (rows known (each pack) pack)))
    (table : Table String Int) :
    packs.foldlM (attributePack known) table =
      .ok (table.setEach (packs.flatMap fun pack => rows known (each pack) pack)) := by
  induction packs generalizing table with
  | nil => rfl
  | cons pack packs ih =>
    obtain ⟨here, there⟩ := List.forall_mem_cons.mp made
    rw [List.foldlM_cons, here, List.flatMap_cons, Table.setEach_append]
    exact ih there _

theorem keys_flatMap_rows_perm (known : Table String Int) (each : PackEstimate → Int)
    (packs : List PackEstimate) :
    (Table.keys (packs.flatMap fun pack => rows known (each pack) pack)).Perm
      (packs.flatMap (·.filePaths)) := by
  rw [Table.keys, List.map_flatMap]
  exact List.Perm.flatMap_left packs fun pack _ => keys_rows_perm known (each pack) pack

/-- Over packs that share no file the table counts each file once and no other, and it attributes to
each pack its known counts and an even share of what they leave of its estimate. -/
theorem tokensByFile_attributes (known : Table String Int) (packs : List PackEstimate)
    (distinct : (packs.flatMap (·.filePaths)).Nodup)
    (estimates : ∀ pack ∈ packs, pack.estimatedTokens < 2 ^ 50)
    (counts : ∀ path n, known.get? path = some n → 0 ≤ n) :
    ∃ table, tokensByFile known packs = .ok table ∧
      table.keys.Perm (packs.flatMap (·.filePaths)) ∧
      ∀ pack ∈ packs, ∃ each, Attributes known table pack each := by
  have shares : ∀ pack, ∃ each, pack ∈ packs →
      (∀ table, attributePack known table pack = .ok (table.setEach (rows known each pack))) ∧
      ∀ table : Table String Int,
        (∀ path ∈ pack.filePaths, table.get? path = some ((known.get? path).getD each)) →
          Attributes known table pack each := by
    intro pack
    by_cases member : pack ∈ packs
    · obtain ⟨each, share⟩ := exists_attributePack known pack counts (estimates pack member)
      exact ⟨each, fun _ => share⟩
    · exact ⟨0, fun listed => absurd listed member⟩
  choose each shares using shares
  have listed := keys_flatMap_rows_perm known each packs
  have unique := listed.nodup_iff.mpr distinct
  have made := foldlM_attributePack (fun pack member => (shares pack member).1) []
  rw [Table.setEach_eq_append unique fun _ _ => List.not_mem_nil, List.nil_append] at made
  refine ⟨_, made, listed, fun pack member => ⟨each pack, (shares pack member).2 _ ?_⟩⟩
  intro path file
  exact Table.get?_of_mem unique (List.mem_flatMap.mpr ⟨pack, member, mem_rows file⟩)

/-- A share that is rounded up, one that is rounded down, and a pack whose known count is past its
estimate. -/
def sharedPacks : List PackEstimate :=
  [⟨101, ["a.ts", "b.ts", "c.ts"]⟩, ⟨10, ["d.ts", "e.ts", "f.ts"]⟩, ⟨7, ["g.ts", "h.ts"]⟩]

def sharedCounts : Table String Int := [("a.ts", 40), ("g.ts", 9), ("unused.ts", 3)]

theorem tokensByFile_attributes_sharedPacks :
    (sharedPacks.flatMap (·.filePaths)).Nodup ∧
      (∀ pack ∈ sharedPacks, pack.estimatedTokens < 2 ^ 50) ∧
      (∀ path n, sharedCounts.get? path = some n → 0 ≤ n) ∧
      ∃ table, tokensByFile sharedCounts sharedPacks = .ok table ∧
        table = [("a.ts", 40), ("b.ts", 31), ("c.ts", 31), ("d.ts", 3), ("e.ts", 3), ("f.ts", 3),
          ("g.ts", 9), ("h.ts", 0)] ∧
        table.keys.Perm (sharedPacks.flatMap (·.filePaths)) ∧
        2 * |attributedTotal table ⟨101, ["a.ts", "b.ts", "c.ts"]⟩ - 101| ≤ 2 := by
  have distinct : (sharedPacks.flatMap (·.filePaths)).Nodup := by decide +kernel
  have estimates : ∀ pack ∈ sharedPacks, pack.estimatedTokens < 2 ^ 50 := by decide +kernel
  have counts : ∀ path n, sharedCounts.get? path = some n → 0 ≤ n := by
    intro path n found
    have entry := Table.mem_of_get? found
    have all : ∀ entry ∈ sharedCounts, 0 ≤ entry.2 := by decide
    exact all _ entry
  obtain ⟨table, made, listed, packed⟩ :=
    tokensByFile_attributes sharedCounts sharedPacks distinct estimates counts
  have value : tokensByFile sharedCounts sharedPacks = .ok [("a.ts", 40), ("b.ts", 31),
      ("c.ts", 31), ("d.ts", 3), ("e.ts", 3), ("f.ts", 3), ("g.ts", 9), ("h.ts", 0)] := by
    decide +kernel
  obtain ⟨each, attributes⟩ := packed ⟨101, ["a.ts", "b.ts", "c.ts"]⟩ List.mem_cons_self
  refine ⟨distinct, estimates, counts, table, made, ?_, listed, ?_⟩
  · exact Except.ok.inj (made.symm.trans value)
  · exact attributes.conserved (by decide +kernel) (by decide +kernel)

end PromptPack.Packing
