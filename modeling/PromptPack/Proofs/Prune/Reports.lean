import PromptPack.Proofs.Prune.Removal
import PromptPack.Proofs.Prune.Selection

/-! What pruning makes of a selection. It rewrites the texts of the eligible files for which symbols
are reported, each by itself, and nothing else; such a file gets an entry even if it had none. Main
statement: `pruneSelection_outcome`. -/

namespace PromptPack.Prune

structure Reports (selected : List SourceFile) (contents : Table String String)
    (entryPoint : Value) (oracle : Option Oracle) (file : SourceFile) (symbols : List String) :
    Prop where
  truthy : entryPoint.truthy = true
  member : file ∈ selected
  eligible : file.isEligible = true
  answer : ∃ o found, oracle = some o ∧
    o (callFor entryPoint contents (selected.filter (·.isEligible))) = .ok found ∧
      found.unreachableFor file.path = symbols
  nonempty : symbols ≠ []

section

variable {found : Reachability} {contents : Table String String} {file : SourceFile}
  {files : List SourceFile} {path : String}

theorem value_stripUnreachable_of_long {content : String} (long : maxStripSize < content.length)
    (symbols : List String) (family : LanguageFamily) :
    (stripUnreachable content symbols family).value = content := by
  rw [value_stripUnreachable, if_pos long]

theorem get?_pruneFile (found : Reachability) (contents : Table String String) (file : SourceFile)
    (path : String) :
    (pruneFile found contents file).value.get? path =
      if path = file.path ∧ found.unreachableFor path ≠ [] then
        some (stripUnreachable ((contents.get? path).getD "") (found.unreachableFor path)
          file.family).value
      else contents.get? path := by
  by_cases other : path = file.path
  · subst other
    unfold pruneFile
    dsimp only
    by_cases silent : found.unreachableFor file.path = []
    · rw [silent, if_pos List.isEmpty_nil, if_neg (by simp)]
      rfl
    · have given : ¬ (found.unreachableFor file.path).isEmpty = true := by simpa using silent
      rw [if_neg given, if_pos (And.intro rfl silent)]
      split
      · next long =>
        -- A text that is missing is not too long, so there is one, and it stays.
        rw [value_stripUnreachable_of_long long]
        cases present : contents.get? file.path with
        | none => simp [present, maxStripSize] at long
        | some text => rfl
      · rw [Traced.value_bind, Traced.value_pure, Table.get?_set, if_pos rfl]
  · rw [if_neg fun both => other both.1]
    unfold pruneFile
    dsimp only
    split
    · rfl
    · split
      · rfl
      · rw [Traced.value_bind, Traced.value_pure, Table.get?_set, if_neg other]

theorem get?_pruneFiles_of_notMem (absent : path ∉ files.map (·.path)) :
    (files.foldlM (pruneFile found) contents).value.get? path = contents.get? path := by
  induction files generalizing contents with
  | nil => rfl
  | cons file files ih =>
    obtain ⟨other, absent⟩ := not_or.mp (mt List.mem_cons.mpr absent)
    rw [List.foldlM_cons, Traced.value_bind, ih absent, get?_pruneFile,
      if_neg fun both => other both.1]

theorem get?_pruneFiles_of_silent (silent : found.unreachableFor path = []) :
    (files.foldlM (pruneFile found) contents).value.get? path = contents.get? path := by
  induction files generalizing contents with
  | nil => rfl
  | cons file files ih =>
    rw [List.foldlM_cons, Traced.value_bind, ih, get?_pruneFile, if_neg fun both => both.2 silent]

/-- Each file is gone through once, so its text is stripped once. -/
theorem get?_pruneFiles_of_reported (distinct : (files.map (·.path)).Nodup) (member : file ∈ files)
    (reported : found.unreachableFor file.path ≠ []) :
    (files.foldlM (pruneFile found) contents).value.get? file.path =
      some (stripUnreachable ((contents.get? file.path).getD "")
        (found.unreachableFor file.path) file.family).value := by
  induction files generalizing contents with
  | nil => simp at member
  | cons first files ih =>
    obtain ⟨absent, distinct⟩ := List.nodup_cons.mp distinct
    rw [List.foldlM_cons, Traced.value_bind]
    rcases List.mem_cons.mp member with rfl | member
    · rw [get?_pruneFiles_of_notMem absent, get?_pruneFile, if_pos ⟨rfl, reported⟩]
    · have other : file.path ≠ first.path := by
        intro same
        exact absent (List.mem_map.mpr ⟨file, member, same⟩)
      rw [ih distinct member, get?_pruneFile, if_neg fun both => other both.1]

theorem has_pruneFiles_iff :
    (files.foldlM (pruneFile found) contents).value.has path = true ↔
      contents.has path = true ∨
        (∃ file ∈ files, file.path = path) ∧ found.unreachableFor path ≠ [] := by
  induction files generalizing contents with
  | nil => simp
  | cons first files ih =>
    have one : (pruneFile found contents first).value.has path = true ↔
        contents.has path = true ∨ first.path = path ∧ found.unreachableFor path ≠ [] := by
      rw [Table.has, Table.has, get?_pruneFile]
      split
      · next both => simp [both.1.symm, both.2]
      · next apart =>
        have not : ¬ (first.path = path ∧ found.unreachableFor path ≠ []) :=
          fun both => apart ⟨both.1.symm, both.2⟩
        simp [not]
    rw [List.foldlM_cons, Traced.value_bind, ih, one, List.exists_mem_cons_iff, or_and_right,
      or_assoc]

end

/-! The whole selection. -/

section

variable {selected : List SourceFile} {contents : Table String String} {entryPoint : Value}
  {oracle : Option Oracle} {path : String}

theorem pruneSelection_cases (selected : List SourceFile) (contents : Table String String)
    (entryPoint : Value) (oracle : Option Oracle) :
    ((pruneSelection selected contents entryPoint oracle).value.contents = contents ∧
        ∀ file symbols, ¬ Reports selected contents entryPoint oracle file symbols) ∨
      ∃ found, (pruneSelection selected contents entryPoint oracle).value.contents =
          ((selected.filter (·.isEligible)).foldlM (pruneFile found) contents).value ∧
        ∀ file symbols, Reports selected contents entryPoint oracle file symbols ↔
          file ∈ selected.filter (·.isEligible) ∧ found.unreachableFor file.path = symbols ∧
            symbols ≠ [] := by
  unfold pruneSelection
  dsimp only
  cases oracle with
  | none => exact .inl ⟨rfl, fun _ _ reports => nomatch reports.answer⟩
  | some o =>
    dsimp only
    split
    · next unasked =>
      refine .inl ⟨rfl, fun file symbols reports => ?_⟩
      have listed : file ∈ selected.filter (·.isEligible) :=
        List.mem_filter.mpr ⟨reports.member, reports.eligible⟩
      rw [reports.truthy, Bool.not_true, Bool.false_or, List.isEmpty_iff] at unasked
      rw [unasked] at listed
      cases listed
    · next asked =>
      have truthy : entryPoint.truthy = true := by
        simp only [Bool.or_eq_true, Bool.not_eq_true', not_or, Bool.not_eq_false] at asked
        exact asked.1
      split
      · next reason failed =>
        refine .inl ⟨rfl, fun file symbols reports => ?_⟩
        obtain ⟨_, found, same, answer, _⟩ := reports.answer
        cases same
        cases failed.symm.trans answer
      · next found answer =>
        refine .inr ⟨found, rfl, fun file symbols => ⟨fun reports => ?_, ?_⟩⟩
        · obtain ⟨_, other, given, again, same⟩ := reports.answer
          cases given
          obtain rfl := Except.ok.inj (answer.symm.trans again)
          exact ⟨List.mem_filter.mpr ⟨reports.member, reports.eligible⟩, same, reports.nonempty⟩
        · rintro ⟨listed, same, nonempty⟩
          obtain ⟨member, eligible⟩ := List.mem_filter.mp listed
          exact ⟨truthy, member, eligible, ⟨o, found, rfl, answer, same⟩, nonempty⟩

theorem has_pruneSelection_iff :
    (pruneSelection selected contents entryPoint oracle).value.contents.has path = true ↔
      contents.has path = true ∨
        ∃ file symbols, Reports selected contents entryPoint oracle file symbols ∧
          file.path = path := by
  rcases pruneSelection_cases selected contents entryPoint oracle with
    ⟨same, none⟩ | ⟨found, same, reports⟩
  · rw [same]
    simp [none]
  · rw [same, has_pruneFiles_iff]
    apply or_congr_right
    constructor
    · rintro ⟨⟨file, listed, rfl⟩, nonempty⟩
      exact ⟨file, _, (reports file _).mpr ⟨listed, rfl, nonempty⟩, rfl⟩
    · rintro ⟨file, symbols, report, rfl⟩
      obtain ⟨listed, rfl, nonempty⟩ := (reports file symbols).mp report
      exact ⟨⟨file, listed, rfl⟩, nonempty⟩

theorem get?_pruneSelection_of_reports (distinct : (selected.map (·.path)).Nodup)
    {file : SourceFile} {symbols : List String}
    (report : Reports selected contents entryPoint oracle file symbols) :
    (pruneSelection selected contents entryPoint oracle).value.contents.get? file.path =
      some (stripUnreachable ((contents.get? file.path).getD "") symbols file.family).value := by
  rcases pruneSelection_cases selected contents entryPoint oracle with
    ⟨_, none⟩ | ⟨found, same, reports⟩
  · exact absurd report (none file symbols)
  · obtain ⟨listed, rfl, nonempty⟩ := (reports file symbols).mp report
    rw [same]
    exact get?_pruneFiles_of_reported (distinct.sublist (List.filter_sublist.map _)) listed nonempty

theorem get?_pruneSelection_of_not_reports
    (silent : ∀ file symbols, Reports selected contents entryPoint oracle file symbols →
      file.path ≠ path) :
    (pruneSelection selected contents entryPoint oracle).value.contents.get? path =
      contents.get? path := by
  rcases pruneSelection_cases selected contents entryPoint oracle with
    ⟨same, _⟩ | ⟨found, same, reports⟩
  · rw [same]
  · rw [same]
    by_cases listed : path ∈ (selected.filter (·.isEligible)).map (·.path)
    · obtain ⟨file, member, rfl⟩ := List.mem_map.mp listed
      by_cases nothing : found.unreachableFor file.path = []
      · exact get?_pruneFiles_of_silent nothing
      · exact absurd rfl (silent file _ ((reports file _).mpr ⟨member, rfl, nothing⟩))
    · exact get?_pruneFiles_of_notMem listed

theorem call_pruneSelection {call : OracleCall}
    (asked : call ∈ (pruneSelection selected contents entryPoint oracle).value.call) :
    call = callFor entryPoint contents (selected.filter (·.isEligible)) := by
  unfold pruneSelection at asked
  dsimp only at asked
  cases oracle with
  | none => cases asked
  | some o =>
    dsimp only at asked
    split at asked
    · cases asked
    · split at asked <;> exact (Option.some.inj asked).symm

/-- Of an oracle only the answer to the one question counts. -/
theorem pruneSelection_of_same_answer {first second : Oracle}
    (same : first (callFor entryPoint contents (selected.filter (·.isEligible))) =
      second (callFor entryPoint contents (selected.filter (·.isEligible)))) :
    pruneSelection selected contents entryPoint (some first) =
      pruneSelection selected contents entryPoint (some second) := by
  unfold pruneSelection
  dsimp only
  rw [same]

end

/-- Pruning puts one question at most, about the eligible files, and goes by its answer alone. A
text is stripped of the symbols that are reported for its file; every other text stays. -/
theorem pruneSelection_outcome (selected : List SourceFile) (contents : Table String String)
    (entryPoint : Value) (oracle : Option Oracle) (distinct : (selected.map (·.path)).Nodup) :
    let question : OracleCall := ⟨entryPoint, (selected.filter (·.isEligible)).map fun file =>
      (file.path, (contents.get? file.path).getD "")⟩
    let pruned := (pruneSelection selected contents entryPoint oracle).value
    (pruned.call.isSome = true ↔ entryPoint.truthy = true ∧ oracle.isSome = true ∧
      ∃ file ∈ selected, file.isEligible = true) ∧
    (∀ call ∈ pruned.call, call = question) ∧
    (∀ first second : Oracle, first question = second question →
      pruneSelection selected contents entryPoint (some first) =
        pruneSelection selected contents entryPoint (some second)) ∧
    ∀ path text, contents.get? path = some text →
      (∀ file symbols, Reports selected contents entryPoint oracle file symbols →
        file.path = path →
          pruned.contents.get? path = some (stripUnreachable text symbols file.family).value) ∧
      ((∀ file symbols, Reports selected contents entryPoint oracle file symbols →
        file.path ≠ path) → pruned.contents.get? path = some text) := by
  intro question pruned
  refine ⟨isSome_call_pruneSelection selected contents entryPoint oracle,
    fun _ asked => call_pruneSelection asked, fun _ _ same => pruneSelection_of_same_answer same, ?_⟩
  intro path text given
  constructor
  · rintro file symbols report rfl
    have stripped := get?_pruneSelection_of_reports distinct report
    rw [given, Option.getD_some] at stripped
    exact stripped
  · intro silent
    exact (get?_pruneSelection_of_not_reports silent).trans given

def mixedSelection : List SourceFile :=
  [{ path := "lib", extension := "py", isDir := true }, .ofPath { path := "a.py" },
    .ofPath { path := "notes.md" }, .ofPath { path := "b.rs" }]

def mixedTexts : Table String String :=
  [("notes.md", "def old():\n"), ("z.py", "def old():\n"), ("lib", "def old():\n"),
    ("a.py", "def old():\n    pass\n\ndef used():\n    pass\n")]

def reportsAll : Oracle := fun _ =>
  .ok { unreachable := mixedTexts.map fun entry => (entry.1, some ["old"]) }

theorem pruneSelection_outcome_mixedSelection :
    let pruned := (pruneSelection mixedSelection mixedTexts (.text "a.py") (some reportsAll)).value
    (mixedSelection.map (·.path)).Nodup ∧ pruned.call.isSome = true ∧
      (∀ call ∈ pruned.call, call.files.map (·.1) = ["a.py", "b.rs"]) ∧
      pruned.contents.get? "a.py" = some "\ndef used():\n    pass\n" ∧
      pruned.contents.get? "notes.md" = some "def old():\n" := by
  intro pruned
  have distinct : (mixedSelection.map (·.path)).Nodup := by decide
  obtain ⟨asked, question, _, texts⟩ :=
    pruneSelection_outcome mixedSelection mixedTexts (.text "a.py") (some reportsAll) distinct
  have answer : reportsAll (callFor (.text "a.py") mixedTexts
      (mixedSelection.filter (·.isEligible))) = .ok { unreachable := mixedTexts.map fun entry =>
        (entry.1, some ["old"]) } := rfl
  have report : Reports mixedSelection mixedTexts (.text "a.py") (some reportsAll)
      (.ofPath { path := "a.py" }) ["old"] :=
    ⟨by decide, by decide +kernel, by decide +kernel, ⟨_, _, rfl, answer, by decide +kernel⟩,
      by decide⟩
  refine ⟨distinct, asked.mpr ⟨by decide, rfl, by decide +kernel⟩, ?_, ?_, ?_⟩
  · intro call listed
    rw [question call listed]
    decide +kernel
  · rw [(texts "a.py" _ rfl).1 _ _ report rfl]
    decide +kernel
  · refine (texts "notes.md" _ rfl).2 ?_
    have others : ∀ file ∈ mixedSelection, file.isEligible = true → file.path ≠ "notes.md" := by
      decide +kernel
    exact fun file _ report => others file report.member report.eligible

end PromptPack.Prune
