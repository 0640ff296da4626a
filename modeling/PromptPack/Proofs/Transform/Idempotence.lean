import Mathlib.Data.List.DropRight
import PromptPack.Proofs.Transform.HashLines
import PromptPack.Proofs.Transform.Rereading

/-! Comments are taken out once and for all. What is left of a scanned text is read as before, and
what is left of a line has no hash sign outside quotes. Main statement: `stripComments_idempotent`. -/

namespace PromptPack.Transform

open Text

section

variable {unpaired : Option Char} {line code start : List Char} {rules : CommentSyntax}

/-! Lines. -/

theorem codeBefore?_of_prefix (found : codeBefore? unpaired line = some code)
    (ahead : start <+: code) : codeBefore? unpaired start = none := by
  induction line generalizing unpaired code start with
  | nil => cases found
  | cons c line ih =>
    rw [codeBefore?] at found
    split at found
    · cases found
      rw [List.prefix_nil.mp ahead]
      rfl
    · next goesOn =>
      obtain ⟨rest, behind, rfl⟩ := Option.map_eq_some_iff.mp found
      cases start with
      | nil => rfl
      | cons first start =>
        obtain ⟨rfl, shorter⟩ := List.cons_prefix_cons.mp ahead
        rw [codeBefore?, if_neg goesOn, ih behind shorter]
        rfl

theorem stripHashLine_stripHashLine (line : List Char) :
    stripHashLine (stripHashLine line) = stripHashLine line := by
  rw [stripHashLine_eq_match line]
  cases found : codeBefore? none line with
  | none => rw [stripHashLine_eq_match, found]
  | some code =>
    have ahead : trimEnd code <+: code := List.rdropWhile_prefix isBlank code
    rw [stripHashLine_eq_match, codeBefore?_of_prefix found ahead]

theorem stripHashLines_stripHashLines (parts : List (List Char)) :
    stripHashLines (stripHashLines parts) = stripHashLines parts := by
  cases parts with
  | nil => rfl
  | cons first rest =>
    simp only [stripHashLines, List.map_map]
    congr 1
    · split_ifs <;> simp_all [stripHashLine_stripHashLine]
    · exact List.map_congr_left fun line _ => stripHashLine_stripHashLine line

theorem length_stripHashLines (parts : List (List Char)) :
    (stripHashLines parts).length = parts.length := by
  cases parts <;> simp [stripHashLines]

theorem inline_stripHashLines {parts : List (List Char)} (inline : ∀ line ∈ parts, '\n' ∉ line) :
    ∀ line ∈ stripHashLines parts, '\n' ∉ line := by
  have stripped : ∀ line, '\n' ∉ line → '\n' ∉ stripHashLine line := fun line sameLine => by
    rw [stripHashLine_eq sameLine]
    exact fun member => sameLine ((uncommented_sublist _ line).subset member)
  cases parts with
  | nil => exact inline
  | cons first rest =>
    obtain ⟨sameLine, inline⟩ := List.forall_mem_cons.mp inline
    refine List.forall_mem_cons.mpr ⟨?_, ?_⟩
    · split
      · exact sameLine
      · exact stripped first sameLine
    · intro line member
      obtain ⟨other, listed, rfl⟩ := List.mem_map.mp member
      exact stripped other (inline other listed)

theorem lines_unlines_stripHashLines (cs : List Char) :
    lines (unlines (stripHashLines (lines cs))) = stripHashLines (lines cs) := by
  refine lines_unlines (fun none => ?_) (inline_stripHashLines (notMem_of_mem_lines cs))
  have length := length_stripHashLines (lines cs)
  rw [none] at length
  exact splitOn_ne_nil '\n' cs (List.length_eq_zero_iff.mp length.symm)

/-! Scanned texts. -/

theorem kept_lex (rules : CommentSyntax) (state : LexState) (cs : List Char) :
    kept (lex rules state cs) = (outside (walk rules state cs)).map (·.2.2) := by
  rw [← map_snd_walk, kept, outside, List.filter_map, List.map_map]
  rfl

theorem outside_outside (entries : List (LexState × Part × Char)) :
    outside (outside entries) = outside entries := by
  simp [outside]

theorem walk_stripScanned {extension : String} (found : CommentSyntax.ofExtension? extension = some rules)
    (other : rules ≠ .sql) (cs : List Char) :
    walk rules .code (stripScanned rules cs) = outside (walk rules .code cs) := by
  have short := CommentSyntax.short_of_known found
  have left : stripScanned rules cs = kept (lex rules .code cs) :=
    scan_eq_kept (CommentSyntax.wellFormed_of_known found) cs
  have apart : ¬ Clash rules (lex rules .code cs) :=
    not_clash short (CommentSyntax.oneMark_of_known found other)
  rw [left]
  exact walk_kept short apart

theorem stripScanned_stripScanned {extension : String}
    (found : CommentSyntax.ofExtension? extension = some rules) (other : rules ≠ .sql)
    (cs : List Char) : stripScanned rules (stripScanned rules cs) = stripScanned rules cs := by
  have left : ∀ cs, stripScanned rules cs = (outside (walk rules .code cs)).map (·.2.2) :=
    fun cs => (scan_eq_kept (CommentSyntax.wellFormed_of_known found) cs).trans (kept_lex _ _ _)
  rw [left (stripScanned rules cs), walk_stripScanned found other, outside_outside, ← left]

end

theorem ofExtension?_of_hash {extension : String} (hash : extension ∈ hashExtensions) :
    CommentSyntax.ofExtension? extension = none := by
  have all : ∀ extension ∈ hashExtensions, CommentSyntax.ofExtension? extension = none := by
    decide +kernel
  exact all extension hash

theorem stripComments_of_hash {extension : String} (hash : extension ∈ hashExtensions)
    (py : extension ≠ "py") (cs : List Char) :
    stripComments extension cs = unlines (stripHashLines (lines cs)) := by
  rw [stripComments, ofExtension?_of_hash hash]
  dsimp only
  rw [if_pos (by simpa using hash), stripHash]
  exact if_neg py

theorem ne_sql_of_ofExtension? {extension : String} {rules : CommentSyntax}
    (found : CommentSyntax.ofExtension? extension = some rules) (sql : extension ≠ "sql") :
    rules ≠ .sql := by
  rintro rfl
  unfold CommentSyntax.ofExtension? at found
  split_ifs at found <;> exact absurd found (by decide)

/-- Taking comments out of what is left of a text changes nothing. A scanned text is read again as
it was, each literal from its opening mark to its end, and line by line no line is lost. -/
theorem stripComments_idempotent {extension : String} (sql : extension ≠ "sql")
    (py : extension ≠ "py") (cs : List Char) :
    stripComments extension (stripComments extension cs) = stripComments extension cs ∧
      (∀ rules, CommentSyntax.ofExtension? extension = some rules →
        walk rules .code (stripComments extension cs) = outside (walk rules .code cs)) ∧
      (extension ∈ hashExtensions →
        (lines (stripComments extension cs)).length = (lines cs).length) := by
  cases found : CommentSyntax.ofExtension? extension with
  | some rules =>
    have other := ne_sql_of_ofExtension? found sql
    have scanned : ∀ cs, stripComments extension cs = stripScanned rules cs := fun cs => by
      rw [stripComments, found]
    refine ⟨?_, ?_, ?_⟩
    · rw [scanned, scanned, stripScanned_stripScanned found other]
    · rintro _ ⟨⟩
      rw [scanned]
      exact walk_stripScanned found other cs
    · intro hash
      rw [ofExtension?_of_hash hash] at found
      cases found
  | none =>
    by_cases hash : extension ∈ hashExtensions
    · have stripped := stripComments_of_hash hash py
      refine ⟨?_, by simp, fun _ => ?_⟩
      · rw [stripped, stripped, lines_unlines_stripHashLines, stripHashLines_stripHashLines]
      · rw [stripped, lines_unlines_stripHashLines, length_stripHashLines]
    · have same : ∀ cs, stripComments extension cs = cs := fun cs => by
        rw [stripComments, found]
        exact if_neg (by simpa using hash)
      exact ⟨by rw [same, same], by simp, fun known => absurd known hash⟩

def closeMarks : List Char := "a -/-[[b]--[[ \" ]]-c 'd--[['--[[]]'e\n'-- f".toList

def quotedHash : List Char := "#!/bin/sh # x\ns='#' # 'y\n\n  # z\nt=\"'#\" #\"".toList

theorem stripComments_idempotent_closeMarks :
    ("lua" ≠ "sql" ∧ "lua" ≠ "py" ∧
      stripComments "lua" closeMarks = "a -/-[[b]-c 'd--[[''e\n'-- f".toList ∧
      stripComments "lua" (stripComments "lua" closeMarks) = stripComments "lua" closeMarks ∧
      walk .lua .code (stripComments "lua" closeMarks) = outside (walk .lua .code closeMarks)) ∧
    "sh" ≠ "sql" ∧ "sh" ≠ "py" ∧
      stripComments "sh" quotedHash = "#!/bin/sh # x\ns='#'\n\n\nt=\"'#\"".toList ∧
      stripComments "sh" (stripComments "sh" quotedHash) = stripComments "sh" quotedHash ∧
      (lines (stripComments "sh" quotedHash)).length = (lines quotedHash).length := by
  have lua : "lua" ≠ "sql" ∧ "lua" ≠ "py" := by decide
  have sh : "sh" ≠ "sql" ∧ "sh" ≠ "py" := by decide
  obtain ⟨again, same, -⟩ := stripComments_idempotent lua.1 lua.2 closeMarks
  obtain ⟨twice, -, count⟩ := stripComments_idempotent sh.1 sh.2 quotedHash
  exact ⟨⟨lua.1, lua.2, by decide +kernel, again, same .lua (by decide +kernel)⟩,
    sh.1, sh.2, by decide +kernel, twice, count (by decide)⟩

end PromptPack.Transform
