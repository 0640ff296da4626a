import Mathlib.Logic.Relation
import PromptPack.Proofs.Prune.Name
import PromptPack.Proofs.Prune.Removal

/-! Which lines removing symbols takes out. Every deletion starts at the start of a line with the
header of a removed symbol, or with the decorators above it, and ends at the first line break before
a sibling. Main statement: `strip_cuts_regions`. -/

namespace PromptPack.Prune

open Text

inductive Decorators : List Char → Prop
  | nil : Decorators []
  | line {text more : List Char} : '\n' ∉ text → Decorators more →
      Decorators ('@' :: text ++ '\n' :: more)

/-- The text of a declaration: decorators, header and the rest. -/
structure Block where
  decorators : List Char
  head : List Char
  body : List Char

def Block.text (block : Block) : List Char := block.decorators ++ (block.head ++ block.body)

/-- The block declares the name. Only one family has decorators. -/
structure Block.DeclaresName (block : Block) (family : LanguageFamily) (name : List Char)
    (before : Option Char) (back : List Char) : Prop where
  decorated : Decorators block.decorators
  onlyPython : block.decorators = [] ∨ family = .python
  header : ReadsHeader family name before block.head (block.body ++ back)

/-- A declaration from the start of a line to the first line break before a sibling. -/
structure Region (family : LanguageFamily) (name front : List Char) (block : Block)
    (back : List Char) : Prop where
  lineStart : EndsLine front
  declares : block.DeclaresName family name front.getLast? back
  unindented : ∃ c more, block.head = c :: more ∧ isBlank c = false
  ended : back = [] ∨ ∃ rest, back = '\n' :: rest ∧ startsSibling (boundary family) rest = true
  first : ∀ inner rest, block.body = inner ++ '\n' :: rest →
    startsSibling (boundary family) (rest ++ back) = false

def Cuts (family : LanguageFamily) (name before after : List Char) : Prop :=
  ∃ front block back, Region family name front block back ∧
    before = front ++ (block.text ++ back) ∧ after = front ++ back

/-- What the symbols make of a text, one after the other. Each is judged in the text that it meets,
and cuts all of its declarations out. -/
inductive Strips (family : LanguageFamily) : List String → List Char → List Char → Prop
  | done {cs : List Char} : Strips family [] cs cs
  | keep {symbol : String} {symbols : List String} {cs result : List Char} :
      symbol = "" ∨ isProtected family symbol.toList cs = true →
      Strips family symbols cs result → Strips family (symbol :: symbols) cs result
  | cut {symbol : String} {symbols : List String} {cs left result : List Char} :
      symbol ≠ "" → isProtected family symbol.toList cs = false →
      Relation.ReflTransGen (Cuts family symbol.toList) cs left →
      (left = cs → ¬ Declares family symbol.toList cs) →
      Strips family symbols left result → Strips family (symbol :: symbols) cs result

section

variable {family : LanguageFamily} {name cs rest : List Char} {header : Pattern}
  {before : Option Char}

theorem decorators_of_dropDecorators (cs : List Char) :
    ∃ decorators, cs = decorators ++ dropDecorators cs ∧ Decorators decorators := by
  fun_induction dropDecorators cs with
  | case1 text c more h ih =>
    obtain ⟨decorators, split, decorated⟩ := ih
    have isBreak : c = '\n' := by
      have stop := List.head?_dropWhile_not (· != '\n') text
      rw [h] at stop
      simpa using stop
    have outside : '\n' ∉ text.takeWhile (· != '\n') := by
      intro member
      have all := List.all_eq_true.mp List.all_takeWhile _ member
      exact absurd all (by decide)
    refine ⟨'@' :: text.takeWhile (· != '\n') ++ '\n' :: decorators, ?_, .line outside decorated⟩
    calc '@' :: text = '@' :: (text.takeWhile (· != '\n') ++ c :: more) := by
          rw [← h, List.takeWhile_append_dropWhile]
      _ = _ := by simp only [isBreak, List.cons_append, List.append_assoc, ← split]
  | case2 text h => exact ⟨[], rfl, .nil⟩
  | case3 cs h => exact ⟨[], rfl, .nil⟩

theorem dropDecorators_lineBreak {text : List Char} (outside : '\n' ∉ text) (cs : List Char) :
    dropDecorators ('@' :: text ++ '\n' :: cs) = dropDecorators cs := by
  have left : (text ++ '\n' :: cs).dropWhile (· != '\n') = '\n' :: cs := by
    rw [List.dropWhile_append_of_pos fun c member =>
      bne_iff_ne.mpr (ne_of_mem_of_not_mem member outside)]
    rfl
  rw [List.cons_append]
  conv => lhs; unfold dropDecorators
  split
  · next text found =>
    obtain ⟨_, rfl⟩ := List.cons.inj found
    split
    · next rest found =>
      obtain ⟨_, rfl⟩ := List.cons.inj (found.symm.trans left)
      rfl
    · next found => cases left.symm.trans found
  · next other => exact absurd rfl (other _)

theorem decorators_of_headerStart (family : LanguageFamily) (cs : List Char) :
    ∃ decorators, cs = decorators ++ headerStart family cs ∧ Decorators decorators ∧
      (decorators = [] ∨ family = .python) := by
  unfold headerStart
  split
  · next isPython =>
    obtain ⟨decorators, split, decorated⟩ := decorators_of_dropDecorators cs
    exact ⟨decorators, split, decorated, .inr isPython⟩
  · exact ⟨[], rfl, .nil, .inl rfl⟩

theorem body_of_fromSibling (sibling : Pattern) (cs : List Char) :
    ∃ body, cs = body ++ fromSibling sibling cs ∧
      (fromSibling sibling cs = [] ∨
        ∃ rest, fromSibling sibling cs = '\n' :: rest ∧ startsSibling sibling rest = true) ∧
      ∀ inner rest, body = inner ++ '\n' :: rest →
        startsSibling sibling (rest ++ fromSibling sibling cs) = false := by
  induction cs with
  | nil => exact ⟨[], rfl, .inl rfl, fun inner rest split => by simp at split⟩
  | cons c cs ih =>
    unfold fromSibling
    split
    · next here =>
      rw [Bool.and_eq_true, decide_eq_true_eq] at here
      obtain ⟨rfl, sibling⟩ := here
      exact ⟨[], rfl, .inr ⟨cs, rfl, sibling⟩, fun inner rest split => by simp at split⟩
    · next notHere =>
      obtain ⟨body, split, ended, first⟩ := ih
      refine ⟨c :: body, congrArg (c :: ·) split, ended, ?_⟩
      intro inner rest place
      rcases List.cons_eq_append_iff.mp place with ⟨rfl, same⟩ | ⟨inner, rfl, same⟩
      · obtain ⟨rfl, rfl⟩ := List.cons.inj same
        rw [← split]
        simpa using notHere
      · exact first inner rest same

theorem Block.text_append (block : Block) (cs : List Char) :
    block.text ++ cs = block.decorators ++ (block.head ++ (block.body ++ cs)) := by
  simp only [Block.text, List.append_assoc]

theorem block_of_afterDeclaration? (member : header ∈ headers family name)
    (h : afterDeclaration? family header before cs = some rest) :
    ∃ block : Block, cs = block.text ++ rest ∧ block.DeclaresName family name before rest ∧
      (rest = [] ∨ ∃ more, rest = '\n' :: more ∧ startsSibling (boundary family) more = true) ∧
      ∀ inner more, block.body = inner ++ '\n' :: more →
        startsSibling (boundary family) (more ++ rest) = false := by
  obtain ⟨place, found, rfl⟩ := Option.map_eq_some_iff.mp h
  obtain ⟨decorators, split, decorated, onlyPython⟩ := decorators_of_headerStart family cs
  obtain ⟨head, start, reads⟩ := Pattern.reads_of_end? found
  obtain ⟨body, behind, ended, first⟩ := body_of_fromSibling (boundary family) place.rest
  rw [behind] at start reads
  refine ⟨⟨decorators, head, body⟩, ?_, ⟨decorated, onlyPython, header, member, reads⟩, ended, first⟩
  rw [Block.text_append]
  exact split.trans (congrArg _ start)

theorem cuts_of_afterDeclaration? {front : List Char} (lineStart : EndsLine front)
    (member : header ∈ headers family name)
    (h : afterDeclaration? family header front.getLast? cs = some rest) :
    Cuts family name (front ++ cs) (front ++ rest) := by
  obtain ⟨block, rfl, declares, ended, first⟩ := block_of_afterDeclaration? member h
  have unindented : ∃ c more, block.head = c :: more ∧ isBlank c = false := by
    obtain ⟨c, more, isHead, isWord⟩ := declares.header.exists_cons
    refine ⟨c, more, isHead, eq_false_of_ne_true fun blank => ?_⟩
    exact Bool.false_ne_true ((isWord_of_isBlank blank).symm.trans isWord)
  exact ⟨front, block, rest, ⟨lineStart, declares, unindented, ended, first⟩, rfl, rfl⟩

/-- One pass is a sequence of deletions, whatever has been written before. -/
theorem scan_cuts (member : header ∈ headers family name) (written cs : List Char) :
    Relation.ReflTransGen (Cuts family name) (written ++ cs)
      (written ++ scan (removalStep family header) cs) := by
  induction h : cs.length using Nat.strongRecOn generalizing written cs with
  | ind n ih =>
    cases cs with
    | nil =>
      rw [scan_nil]
    | cons c cs =>
      rw [List.length_cons] at h
      rcases scan_removalStep_cons family header c cs with ⟨_, same⟩ | ⟨rfl, left, found, same⟩
      · have later := ih cs.length (by omega) (written ++ [c]) cs rfl
        rw [same]
        simpa using later
      · have shorter := length_afterDeclaration? found
        have cut : Cuts family name ((written ++ ['\n']) ++ cs) ((written ++ ['\n']) ++ left) := by
          refine cuts_of_afterDeclaration? (.inr ⟨written, rfl⟩) member ?_
          rw [List.getLast?_concat]
          exact found
        have later := ih left.length (by omega) (written ++ ['\n']) left rfl
        rw [same]
        simpa using Relation.ReflTransGen.head cut later

theorem removeDeclarations_cuts (member : header ∈ headers family name) (cs : List Char) :
    Relation.ReflTransGen (Cuts family name) cs (removeDeclarations family cs header) := by
  unfold removeDeclarations
  split
  · next rest found =>
    have cut : Cuts family name ([] ++ cs) ([] ++ rest) :=
      cuts_of_afterDeclaration? (.inl rfl) member found
    exact .head cut (scan_cuts member [] rest)
  · exact scan_cuts member [] cs

theorem removeAll_cuts (cs : List Char) : Relation.ReflTransGen (Cuts family name) cs
    ((headers family name).foldl (removeDeclarations family) cs) := by
  have passes : ∀ header ∈ headers family name, ∀ cs, Relation.ReflTransGen (Cuts family name) cs
      (removeDeclarations family cs header) := fun _ member => removeDeclarations_cuts member
  generalize headers family name = patterns at passes
  induction patterns generalizing cs with
  | nil => exact .refl
  | cons header patterns ih =>
    obtain ⟨first, others⟩ := List.forall_mem_cons.mp passes
    exact (first cs).trans (ih _ others)

theorem sublist_of_cuts {result : List Char}
    (h : Relation.ReflTransGen (Cuts family name) cs result) : result.Sublist cs := by
  induction h with
  | refl => exact .refl _
  | tail _ cut ih =>
    obtain ⟨front, block, back, _, rfl, rfl⟩ := cut
    exact .trans (List.Sublist.append (.refl front) (List.sublist_append_right _ _)) ih

theorem stripSymbols_cuts (symbols : List String) (cs : List Char) :
    Strips family symbols cs (stripSymbols family symbols cs) := by
  induction symbols generalizing cs with
  | nil => exact .done
  | cons symbol symbols ih =>
    have later := ih (stripSymbol family cs symbol)
    by_cases kept : symbol = "" ∨ isProtected family symbol.toList cs = true
    · have same : stripSymbol family cs symbol = cs :=
        stripSymbol_eq_self_iff.mpr (kept.imp_right .inl)
      rw [same] at later
      refine .keep kept ?_
      rwa [stripSymbols, List.foldl_cons, same]
    · obtain ⟨nonempty, unprotected⟩ := not_or.mp kept
      refine .cut nonempty (eq_false_of_ne_true unprotected) ?_ ?_ later
      · rw [stripSymbol_of_removed nonempty (eq_false_of_ne_true unprotected)]
        exact removeAll_cuts cs
      · intro same
        rcases stripSymbol_eq_self_iff.mp same with isEmpty | isProtected | nowhere
        · exact absurd isEmpty nonempty
        · exact absurd isProtected unprotected
        · exact nowhere

/-- Removing symbols deletes nothing but declarations of theirs, each from the start of a line to
the first line break before a sibling. -/
theorem strip_cuts_regions (content : String) (symbols : List String) (family : LanguageFamily)
    (fits : content.length ≤ maxStripSize) :
    Strips family symbols content.toList (stripUnreachable content symbols family).value.toList := by
  rw [value_stripUnreachable, if_neg (Nat.not_lt.mpr fits), String.toList_ofList]
  exact stripSymbols_cuts symbols content.toList

theorem strip_cuts_regions_decorated :
    "@cached\ndef s():\n    pass\n\ndef t():\n    pass\n".length ≤ maxStripSize ∧
      Strips .python ["s"] "@cached\ndef s():\n    pass\n\ndef t():\n    pass\n".toList
        "\ndef t():\n    pass\n".toList := by
  have fits : "@cached\ndef s():\n    pass\n\ndef t():\n    pass\n".length ≤ maxStripSize := by
    decide +kernel
  have left : (stripUnreachable "@cached\ndef s():\n    pass\n\ndef t():\n    pass\n" ["s"]
      .python).value = "\ndef t():\n    pass\n" := by decide +kernel
  have cuts := strip_cuts_regions _ ["s"] .python fits
  rw [left] at cuts
  exact ⟨fits, cuts⟩

end

end PromptPack.Prune
