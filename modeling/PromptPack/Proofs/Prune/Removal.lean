import PromptPack.Proofs.Text.Pattern
import PromptPack.Proofs.Trace
import PromptPack.Prune.Strip

/-! When removing a symbol changes a text. A removal shortens the text or leaves it alone, and it
leaves it alone exactly if no line declares the name. Each symbol is judged in the text that the
earlier ones left, so it is that text, and not the original one, that decides whether a symbol in
the list makes a difference. -/

namespace PromptPack.Prune

open Text
open Text.Pattern (word)

def EndsLine (front : List Char) : Prop := front = [] ∨ ∃ line, front = line ++ ['\n']

/-- The header can be read at the start of a line, or behind the decorators there. -/
def HasHeader (family : LanguageFamily) (header : Pattern) (cs : List Char) : Prop :=
  ∃ front rest, cs = front ++ rest ∧ EndsLine front ∧
    header.matchesAt ⟨front.getLast?, headerStart family rest⟩ = true

def Declares (family : LanguageFamily) (name cs : List Char) : Prop :=
  ∃ header ∈ headers family name, HasHeader family header cs

theorem minLength_header {family : LanguageFamily} {name : List Char} {header : Pattern}
    (h : header ∈ headers family name) : 0 < header.minLength := by
  have phrase_pos : 0 < (phrase ["class"]).minLength ∧ 0 < (phrase ["def"]).minLength ∧
      0 < (phrase ["fn"]).minLength ∧ 0 < (phrase ["func"]).minLength := by decide +kernel
  obtain ⟨classPos, defPos, fnPos, funcPos⟩ := phrase_pos
  have second {p q : Pattern} {ps : List Pattern} : q ∈ p :: q :: ps :=
    List.mem_cons_of_mem p List.mem_cons_self
  cases family with
  | typescript =>
    simp only [headers, List.mem_cons, List.not_mem_nil, or_false] at h
    rcases h with rfl | rfl | rfl
    · have wordPos : 0 < (word "function").minLength := by decide +kernel
      exact Pattern.minLength_sequence_pos second wordPos
    · have blanksPos : 0 < blanks.minLength := by decide
      exact Pattern.minLength_sequence_pos second blanksPos
    · exact Pattern.minLength_sequence_pos second classPos
  | python =>
    simp only [headers, List.mem_cons, List.not_mem_nil, or_false] at h
    rcases h with rfl | rfl
    · exact Pattern.minLength_sequence_pos second defPos
    · exact Pattern.minLength_sequence_pos List.mem_cons_self classPos
  | rust =>
    obtain rfl := List.mem_singleton.mp h
    exact Pattern.minLength_sequence_pos second fnPos
  | go =>
    obtain rfl := List.mem_singleton.mp h
    exact Pattern.minLength_sequence_pos List.mem_cons_self funcPos
  | unsupported => cases h

section

variable {family : LanguageFamily} {header : Pattern} {before : Option Char} {cs rest : List Char}

theorem length_headerStart (family : LanguageFamily) (cs : List Char) :
    (headerStart family cs).length ≤ cs.length := by
  unfold headerStart
  split
  · exact length_dropDecorators cs
  · exact Nat.le_refl _

theorem afterDeclaration?_eq_none_iff :
    afterDeclaration? family header before cs = none ↔
      ¬ header.matchesAt ⟨before, headerStart family cs⟩ = true := by
  rw [afterDeclaration?, Option.map_eq_none_iff, Pattern.end?_eq_none_iff]

theorem length_afterDeclaration?_lt (takes : 0 < header.minLength)
    (h : afterDeclaration? family header before cs = some rest) : rest.length < cs.length := by
  obtain ⟨place, found, rfl⟩ := Option.map_eq_some_iff.mp h
  have taken := Pattern.length_of_end? found
  have left := length_fromSibling (boundary family) place.rest
  have start := length_headerStart family cs
  dsimp only at taken
  omega

theorem length_scan_le {step : ScanStep} (shrinks : ∀ c cs,
    (step c cs).1.length + (step c cs).2.val.length ≤ cs.length + 1) (cs : List Char) :
    (scan step cs).length ≤ cs.length := by
  induction h : cs.length using Nat.strongRecOn generalizing cs with
  | ind n ih =>
    cases cs with
    | nil => simp
    | cons c cs =>
      have fits := shrinks c cs
      have bound := (step c cs).2.property
      rw [List.length_cons] at h
      have rest := ih _ (by omega) (step c cs).2.val rfl
      rw [scan_cons, List.length_append]
      omega

theorem removalStep_of_some (h : afterDeclaration? family header (some '\n') cs = some rest) :
    (removalStep family header '\n' cs).1 = ['\n'] ∧
      (removalStep family header '\n' cs).2.val = rest := by
  unfold removalStep
  rw [if_pos rfl]
  split
  · next found =>
    obtain rfl := Option.some.inj (h.symm.trans found)
    exact ⟨rfl, rfl⟩
  · next nothing => cases h.symm.trans nothing

theorem removalStep_of_none {c : Char}
    (h : c = '\n' → afterDeclaration? family header (some '\n') cs = none) :
    removalStep family header c cs = copy c cs := by
  unfold removalStep
  split
  · next isBreak =>
    split
    · next found => cases (h isBreak).symm.trans found
    · rfl
  · rfl

theorem length_removalStep (family : LanguageFamily) (header : Pattern) (c : Char)
    (cs : List Char) :
    (removalStep family header c cs).1.length + (removalStep family header c cs).2.val.length ≤
      cs.length + 1 := by
  unfold removalStep copy
  split
  · split
    · next rest found =>
      have shorter := length_afterDeclaration? found
      simp only [List.length_singleton]
      omega
    · simp only [List.length_singleton]
      omega
  · simp only [List.length_singleton]
    omega

theorem scan_removalStep_cons (family : LanguageFamily) (header : Pattern) (c : Char)
    (cs : List Char) :
    ((c = '\n' → afterDeclaration? family header (some '\n') cs = none) ∧
        scan (removalStep family header) (c :: cs) = c :: scan (removalStep family header) cs) ∨
      c = '\n' ∧ ∃ left, afterDeclaration? family header (some '\n') cs = some left ∧
        scan (removalStep family header) (c :: cs) =
          '\n' :: scan (removalStep family header) left := by
  rw [scan_cons]
  by_cases stays : c = '\n' → afterDeclaration? family header (some '\n') cs = none
  · refine .inl ⟨stays, ?_⟩
    rw [removalStep_of_none stays]
    rfl
  · obtain ⟨rfl, some⟩ := Classical.not_imp.mp stays
    obtain ⟨left, found⟩ := Option.ne_none_iff_exists'.mp some
    obtain ⟨written, behind⟩ := removalStep_of_some found
    refine .inr ⟨rfl, left, found, ?_⟩
    rw [written, behind]
    rfl

theorem scan_removalStep_append {kept : List Char}
    (nowhere : ∀ front rest, kept = front ++ '\n' :: rest →
      afterDeclaration? family header (some '\n') (rest ++ cs) = none) :
    scan (removalStep family header) (kept ++ cs) =
      kept ++ scan (removalStep family header) cs := by
  induction kept with
  | nil => rfl
  | cons c kept ih =>
    have later := ih fun front rest split => nowhere (c :: front) rest (split ▸ rfl)
    rcases scan_removalStep_cons family header c (kept ++ cs) with
      ⟨_, same⟩ | ⟨rfl, left, found, _⟩
    · rw [List.cons_append, same, later, List.cons_append]
    · cases (nowhere [] kept rfl).symm.trans found

theorem length_scan_lineBreak_lt (takes : 0 < header.minLength)
    (found : afterDeclaration? family header (some '\n') cs = some rest) :
    (scan (removalStep family header) ('\n' :: cs)).length < ('\n' :: cs).length := by
  rcases scan_removalStep_cons family header '\n' cs with ⟨stays, _⟩ | ⟨_, left, here, same⟩
  · cases (stays rfl).symm.trans found
  · have shorter := length_afterDeclaration?_lt takes here
    have scanned := length_scan_le (length_removalStep family header) left
    rw [same, List.length_cons, List.length_cons]
    omega

theorem length_scan_removalStep_lt (takes : 0 < header.minLength) {front left : List Char}
    (found : afterDeclaration? family header (some '\n') rest = some left) :
    (scan (removalStep family header) (front ++ '\n' :: rest)).length <
      (front ++ '\n' :: rest).length := by
  -- A declaration before this one would be taken out instead, and shortens the text as well.
  induction front with
  | nil => exact length_scan_lineBreak_lt takes found
  | cons c front ih =>
    rcases scan_removalStep_cons family header c (front ++ '\n' :: rest) with
      ⟨_, same⟩ | ⟨rfl, left, earlier, _⟩
    · rw [List.cons_append, same]
      exact Nat.succ_lt_succ ih
    · exact length_scan_lineBreak_lt takes earlier

theorem hasHeader_iff : HasHeader family header cs ↔
    header.matchesAt ⟨none, headerStart family cs⟩ = true ∨
      ∃ front rest, cs = front ++ '\n' :: rest ∧
        header.matchesAt ⟨some '\n', headerStart family rest⟩ = true := by
  constructor
  · rintro ⟨front, rest, rfl, rfl | ⟨line, rfl⟩, found⟩
    · exact .inl found
    · rw [List.getLast?_concat] at found
      exact .inr ⟨line, rest, List.append_assoc _ _ _, found⟩
  · rintro (found | ⟨line, rest, rfl, found⟩)
    · exact ⟨[], cs, rfl, .inl rfl, found⟩
    · refine ⟨line ++ ['\n'], rest, ?_, .inr ⟨line, rfl⟩, ?_⟩
      · rw [List.append_assoc, List.singleton_append]
      · rw [List.getLast?_concat]
        exact found

theorem length_removeDeclarations_le (header : Pattern) (cs : List Char) :
    (removeDeclarations family cs header).length ≤ cs.length := by
  unfold removeDeclarations
  split
  · next rest found =>
    have scanned := length_scan_le (length_removalStep family header) rest
    exact Nat.le_trans scanned (length_afterDeclaration? found)
  · exact length_scan_le (length_removalStep family header) cs

theorem removeDeclarations_of_not_hasHeader (h : ¬ HasHeader family header cs) :
    removeDeclarations family cs header = cs := by
  obtain ⟨first, later⟩ := not_or.mp (mt hasHeader_iff.mpr h)
  unfold removeDeclarations
  rw [afterDeclaration?_eq_none_iff.mpr first]
  have nowhere : ∀ front rest, cs = front ++ '\n' :: rest →
      afterDeclaration? family header (some '\n') (rest ++ []) = none := by
    intro front rest split
    rw [List.append_nil]
    exact afterDeclaration?_eq_none_iff.mpr fun there => later ⟨front, rest, split, there⟩
  have copied := scan_removalStep_append nowhere
  rw [List.append_nil, scan_nil, List.append_nil] at copied
  exact copied

theorem length_removeDeclarations_lt (takes : 0 < header.minLength)
    (h : HasHeader family header cs) :
    (removeDeclarations family cs header).length < cs.length := by
  unfold removeDeclarations
  split
  · next rest found =>
    exact Nat.lt_of_le_of_lt (length_scan_le (length_removalStep family header) rest)
      (length_afterDeclaration?_lt takes found)
  · next nothing =>
    rcases hasHeader_iff.mp h with there | ⟨front, rest, rfl, there⟩
    · exact absurd there (afterDeclaration?_eq_none_iff.mp nothing)
    · cases found : afterDeclaration? family header (some '\n') rest with
      | none => exact absurd there (afterDeclaration?_eq_none_iff.mp found)
      | some left => exact length_scan_removalStep_lt takes found

end

variable {family : LanguageFamily} {name cs : List Char}

theorem length_removeAll_le (patterns : List Pattern) (cs : List Char) :
    (patterns.foldl (removeDeclarations family) cs).length ≤ cs.length := by
  induction patterns generalizing cs with
  | nil => exact Nat.le_refl _
  | cons header patterns ih =>
    exact Nat.le_trans (ih _) (length_removeDeclarations_le header cs)

theorem removeAll_of_not_declares (h : ¬ Declares family name cs) :
    (headers family name).foldl (removeDeclarations family) cs = cs := by
  have nowhere : ∀ header ∈ headers family name, ¬ HasHeader family header cs :=
    fun header member there => h ⟨header, member, there⟩
  generalize headers family name = patterns at nowhere
  induction patterns with
  | nil => rfl
  | cons header patterns ih =>
    obtain ⟨first, others⟩ := List.forall_mem_cons.mp nowhere
    rw [List.foldl_cons, removeDeclarations_of_not_hasHeader first]
    exact ih others

theorem length_removeAll_lt (h : Declares family name cs) :
    ((headers family name).foldl (removeDeclarations family) cs).length < cs.length := by
  obtain ⟨header, member, there⟩ := h
  have take : ∀ header ∈ headers family name, 0 < header.minLength := fun _ => minLength_header
  generalize headers family name = patterns at member take
  induction patterns with
  | nil => cases member
  | cons first patterns ih =>
    obtain ⟨takes, take⟩ := List.forall_mem_cons.mp take
    rw [List.foldl_cons]
    by_cases here : HasHeader family first cs
    · exact Nat.lt_of_le_of_lt (length_removeAll_le patterns _)
        (length_removeDeclarations_lt takes here)
    · rw [removeDeclarations_of_not_hasHeader here]
      rcases List.mem_cons.mp member with rfl | member
      · exact absurd there here
      · exact ih member take

/-- A symbol changes a text exactly if it is judged removable there and the text declares it. -/
theorem stripSymbol_eq_self_iff {symbol : String} :
    stripSymbol family cs symbol = cs ↔
      symbol = "" ∨ isProtected family symbol.toList cs = true ∨
        ¬ Declares family symbol.toList cs := by
  have empty : symbol.toList.isEmpty = true ↔ symbol = "" := by simp
  unfold stripSymbol
  dsimp only
  split
  · next kept =>
    rw [Bool.or_eq_true, empty] at kept
    simp only [true_iff]
    exact kept.imp_right .inl
  · next removed =>
    rw [Bool.or_eq_true, empty, not_or] at removed
    constructor
    · intro same
      refine .inr (.inr fun declares => ?_)
      have shorter := length_removeAll_lt declares
      rw [same] at shorter
      exact Nat.lt_irrefl _ shorter
    · rintro (isEmpty | isProtected | nowhere)
      · exact absurd isEmpty removed.1
      · exact absurd isProtected removed.2
      · exact removeAll_of_not_declares nowhere

theorem stripSymbol_of_removed {symbol : String} (nonempty : symbol ≠ "")
    (unprotected : isProtected family symbol.toList cs = false) :
    stripSymbol family cs symbol =
      (headers family symbol.toList).foldl (removeDeclarations family) cs := by
  unfold stripSymbol
  dsimp only
  rw [unprotected, Bool.or_false, if_neg (by simpa using nonempty)]

theorem not_declares_unsupported : ¬ Declares .unsupported name cs := by
  rintro ⟨header, member, _⟩
  cases member

theorem stripSymbols_unsupported (symbols : List String) (cs : List Char) :
    stripSymbols .unsupported symbols cs = cs := by
  induction symbols generalizing cs with
  | nil => rfl
  | cons symbol symbols ih =>
    have same : stripSymbol .unsupported cs symbol = cs :=
      stripSymbol_eq_self_iff.mpr (.inr (.inr not_declares_unsupported))
    rw [stripSymbols, List.foldl_cons, same]
    exact ih cs

theorem value_stripUnreachable (content : String) (symbols : List String)
    (family : LanguageFamily) :
    (stripUnreachable content symbols family).value =
      if maxStripSize < content.length then content
      else String.ofList (stripSymbols family symbols content.toList) := by
  have same : String.ofList content.toList = content := String.ofList_toList
  unfold stripUnreachable
  split
  · next skipped =>
    have kept : String.ofList (stripSymbols family symbols content.toList) = content := by
      rw [Bool.or_eq_true, List.isEmpty_iff, decide_eq_true_eq] at skipped
      rcases skipped with rfl | rfl
      · exact same
      · rw [stripSymbols_unsupported, same]
    rw [kept, ite_self]
    rfl
  · split <;> rfl

/-- Naming a symbol after others makes no difference, whatever follows, exactly if what the others
left protects it or does not declare it. -/
theorem strip_ignores_iff (content symbol : String) (earlier : List String)
    (family : LanguageFamily) :
    (∀ later, (stripUnreachable content (earlier ++ [symbol] ++ later) family).value =
        (stripUnreachable content (earlier ++ later) family).value) ↔
      maxStripSize < content.length ∨ symbol = "" ∨
        isProtected family symbol.toList (stripSymbols family earlier content.toList) = true ∨
        ¬ Declares family symbol.toList (stripSymbols family earlier content.toList) := by
  by_cases long : maxStripSize < content.length
  · simp [value_stripUnreachable, long]
  · have split : ∀ later, stripSymbols family (earlier ++ [symbol] ++ later) content.toList =
        stripSymbols family later
          (stripSymbol family (stripSymbols family earlier content.toList) symbol) := by
      intro later
      simp only [stripSymbols, List.foldl_append, List.foldl_cons, List.foldl_nil]
    simp only [value_stripUnreachable, long, false_or, ← stripSymbol_eq_self_iff]
    constructor
    · intro same
      -- With nothing behind it the symbol shows whatever it changes.
      have nothing := String.ofList_injective (same [])
      rw [split, List.append_nil] at nothing
      exact nothing
    · intro same later
      rw [split, same]
      simp only [stripSymbols, List.foldl_append]

/-- Removing one function takes the export list along, and with it the protection of another. -/
theorem strip_forgets_protection :
    let content := "def x():\n    pass\n\n__all__ = [\"s\"]\n\ndef s():\n    pass\n"
    isProtected .python "s".toList content.toList = true ∧
      (stripUnreachable content ["x", "s"] .python).value ≠
        (stripUnreachable content ["x"] .python).value := by
  decide +kernel

end PromptPack.Prune
