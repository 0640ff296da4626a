import Mathlib.Tactic.SplitIfs
import PromptPack.Transform.Comments

/-! Comments, read one character at a time. The scan jumps behind a comment or a literal at once;
the lexer takes each character by itself, looks ahead at most as far as an opener or a closer
reaches, and says what the character belongs to. What is read outside comments is what the scan
writes. Main statement: `stripScanned_eq_kept`. -/

namespace PromptPack

/-- Openers and closers have characters, and a line comment opens within its line. -/
structure CommentSyntax.WellFormed (rules : CommentSyntax) : Prop where
  lineOpener : rules.lineOpener ≠ []
  sameLine : '\n' ∉ rules.lineOpener
  blockOpener : rules.blockOpener ≠ []
  blockCloser : rules.blockCloser ≠ []

def CommentSyntax.known : List CommentSyntax := [script, go, rust, braces, sql, lua]

theorem CommentSyntax.mem_known {extension : String} {rules : CommentSyntax}
    (found : ofExtension? extension = some rules) : rules ∈ known := by
  unfold ofExtension? at found
  split_ifs at found <;> simp_all [known]

theorem CommentSyntax.wellFormed_of_known {extension : String} {rules : CommentSyntax}
    (known : ofExtension? extension = some rules) : rules.WellFormed := by
  have all : ∀ rules ∈ CommentSyntax.known, rules.lineOpener ≠ [] ∧
      '\n' ∉ rules.lineOpener ∧ rules.blockOpener ≠ [] ∧ rules.blockCloser ≠ [] := by decide
  obtain ⟨lineOpener, sameLine, blockOpener, blockCloser⟩ := all rules (mem_known known)
  exact ⟨lineOpener, sameLine, blockOpener, blockCloser⟩

namespace Transform

open Text

inductive Part where
  | code | comment | literal
deriving DecidableEq, Repr

inductive LexState where
  | code
  | lineComment
  /-- In a block comment of whose opener some characters are still to be read. -/
  | blockComment (opening : Nat)
  | closing (left : Nat)
  | literal (rule : LiteralRule)
  | escaped (rule : LiteralRule)

namespace LexState

/-- A character in code. The opener of a block comment wins over that of a line comment. -/
def inCode (rules : CommentSyntax) (c : Char) (cs : List Char) : LexState × Part :=
  if rules.blockOpener <+: c :: cs then
    (.blockComment (rules.blockOpener.length - 1), .comment)
  else if rules.lineOpener <+: c :: cs then (.lineComment, .comment)
  else
    match literalAt? rules c with
    | some rule => (.literal rule, .literal)
    | none => (.code, .code)

/-- The state behind a character, and what the character belongs to. The line break that ends a
comment, or a literal that must not go on, is read as code. -/
def next (rules : CommentSyntax) : LexState → Char → List Char → LexState × Part
  | .code, c, cs => inCode rules c cs
  | .lineComment, c, cs => if c = '\n' then inCode rules c cs else (.lineComment, .comment)
  | .blockComment (n + 1), _, _ => (.blockComment n, .comment)
  | .blockComment 0, c, cs =>
    if rules.blockCloser <+: c :: cs then (.closing (rules.blockCloser.length - 1), .comment)
    else (.blockComment 0, .comment)
  | .closing (n + 1), _, _ => (.closing n, .comment)
  | .closing 0, c, cs => inCode rules c cs
  | .literal rule, c, cs =>
    if c = '\\' ∧ rule.escapes then (.escaped rule, .literal)
    else if c = rule.mark then (.code, .literal)
    else if c = '\n' ∧ !rule.spansLines then inCode rules c cs
    else (.literal rule, .literal)
  | .escaped rule, _, _ => (.literal rule, .literal)

end LexState

def lex (rules : CommentSyntax) : LexState → List Char → List (Part × Char)
  | _, [] => []
  | state, c :: cs => ((state.next rules c cs).2, c) :: lex rules (state.next rules c cs).1 cs

def kept (reading : List (Part × Char)) : List Char :=
  (reading.filter fun entry => entry.1 ≠ .comment).map Prod.snd

theorem kept_append (first second : List (Part × Char)) :
    kept (first ++ second) = kept first ++ kept second := by
  simp [kept]

theorem kept_of_no_comment {reading : List (Part × Char)}
    (outside : ∀ entry ∈ reading, entry.1 ≠ .comment) : kept reading = reading.map Prod.snd := by
  unfold kept
  rw [List.filter_eq_self.mpr fun entry member => decide_eq_true (outside entry member)]

theorem kept_of_comments {reading : List (Part × Char)}
    (comments : ∀ entry ∈ reading, entry.1 = .comment) : kept reading = [] := by
  unfold kept
  rw [List.filter_eq_nil_iff.mpr fun entry member => by simp [comments entry member], List.map_nil]

theorem kept_cons_of_other {entry : Part × Char} (other : entry.1 ≠ .comment)
    (reading : List (Part × Char)) : kept (entry :: reading) = entry.2 :: kept reading := by
  simp [kept, other]

theorem map_snd_lex (rules : CommentSyntax) (state : LexState) (cs : List Char) :
    (lex rules state cs).map Prod.snd = cs := by
  induction cs generalizing state with
  | nil => rfl
  | cons c cs ih => rw [lex, List.map_cons, ih]

section

variable {rules : CommentSyntax} {state after : LexState} {c : Char} {cs : List Char}

theorem kept_lex_comment (read : state.next rules c cs = (after, .comment)) :
    kept (lex rules state (c :: cs)) = kept (lex rules after cs) := by
  simp [lex, read, kept]

theorem kept_lex_other {part : Part} (read : state.next rules c cs = (after, part))
    (other : part ≠ .comment) :
    kept (lex rules state (c :: cs)) = c :: kept (lex rules after cs) := by
  simp [lex, read, kept, other]

theorem lex_congr {other : LexState} (same : state.next rules c cs = other.next rules c cs) :
    lex rules state (c :: cs) = lex rules other (c :: cs) := by
  rw [lex, lex, same]

theorem lex_closing_zero : lex rules (.closing 0) cs = lex rules .code cs := by
  cases cs with
  | nil => rfl
  | cons c cs => exact lex_congr rfl

/-! Block comments. -/

theorem kept_lex_opening (opening : List Char) :
    kept (lex rules (.blockComment opening.length) (opening ++ cs)) =
      kept (lex rules (.blockComment 0) cs) := by
  induction opening with
  | nil => rfl
  | cons c opening ih =>
    rw [List.cons_append, List.length_cons, kept_lex_comment rfl]
    exact ih

theorem kept_lex_closing (left : List Char) :
    kept (lex rules (.closing left.length) (left ++ cs)) = kept (lex rules .code cs) := by
  induction left with
  | nil => rw [List.length_nil, List.nil_append, lex_closing_zero]
  | cons c left ih =>
    rw [List.cons_append, List.length_cons, kept_lex_comment rfl]
    exact ih

/-- What is kept of an open block comment is what is kept behind its closer, if there is one. -/
theorem kept_lex_blockComment (closer : rules.blockCloser ≠ []) (passed cs : List Char) :
    kept (lex rules (.blockComment 0) cs) =
      (breakOnto? rules.blockCloser passed cs).elim [] fun found =>
        kept (lex rules .code found.2) := by
  induction cs generalizing passed with
  | nil =>
    rw [breakOnto?, if_neg (by simpa using closer)]
    rfl
  | cons c cs ih =>
    unfold breakOnto?
    cases found : after? rules.blockCloser (c :: cs) with
    | none =>
      have read : LexState.next rules (.blockComment 0) c cs = (.blockComment 0, .comment) :=
        if_neg (not_isPrefix_of_after? found)
      rw [kept_lex_comment read]
      exact ih (c :: passed)
    | some rest =>
      have read : LexState.next rules (.blockComment 0) c cs =
          (.closing (rules.blockCloser.length - 1), .comment) :=
        if_pos (isPrefix_of_after? found)
      rw [kept_lex_comment read]
      have joined := after?_eq_some.mp found
      cases text : rules.blockCloser with
      | nil => exact absurd text closer
      | cons first left =>
        rw [text] at joined
        obtain ⟨rfl, rfl⟩ := List.cons.inj joined
        exact kept_lex_closing left

/-! Line comments and literals. -/

theorem kept_lex_lineComment (cs : List Char) :
    kept (lex rules .lineComment cs) = kept (lex rules .code (cs.dropWhile (· != '\n'))) := by
  induction cs with
  | nil => rfl
  | cons c cs ih =>
    by_cases ends : c = '\n'
    · have read : LexState.next rules .lineComment c cs = LexState.next rules .code c cs :=
        if_pos ends
      rw [List.dropWhile_cons_of_neg (by simp [ends]), lex_congr read]
    · have read : LexState.next rules .lineComment c cs = (.lineComment, .comment) := if_neg ends
      rw [List.dropWhile_cons_of_pos (by simpa using ends), kept_lex_comment read, ih]

theorem le_literalLength (rule : LiteralRule) (n : Nat) (cs : List Char) :
    n ≤ literalLength rule n cs := by
  fun_induction literalLength rule n cs <;> omega

theorem next_literal (rule : LiteralRule) (c : Char) (cs : List Char) :
    LexState.next rules (.literal rule) c cs =
      if c = '\\' ∧ rule.escapes then (.escaped rule, .literal)
      else if c = rule.mark then (.code, .literal)
      else if c = '\n' ∧ !rule.spansLines then LexState.inCode rules c cs
      else (.literal rule, .literal) := rfl

theorem kept_lex_literal (rule : LiteralRule) (n : Nat) (cs : List Char) :
    kept (lex rules (.literal rule) cs) =
      cs.take (literalLength rule n cs - n) ++
        kept (lex rules .code (cs.drop (literalLength rule n cs - n))) := by
  fun_induction literalLength rule n cs with
  | case1 n => simp [lex, kept]
  | case2 n c escape =>
    have read : LexState.next rules (.literal rule) c [] = (.escaped rule, .literal) :=
      if_pos (by simpa using escape)
    rw [kept_lex_other read (by decide)]
    simp [lex, kept]
  | case3 n c escape other rest ih =>
    have read : LexState.next rules (.literal rule) c (other :: rest) = (.escaped rule, .literal) :=
      if_pos (by simpa using escape)
    have protected_ : LexState.next rules (.escaped rule) other rest = (.literal rule, .literal) :=
      rfl
    have further := le_literalLength rule (n + 2) rest
    have length : literalLength rule (n + 2) rest - n =
        literalLength rule (n + 2) rest - (n + 2) + 1 + 1 := by omega
    rw [kept_lex_other read (by decide), kept_lex_other protected_ (by decide), ih, length,
      List.take_succ_cons, List.take_succ_cons, List.drop_succ_cons, List.drop_succ_cons]
    rfl
  | case4 n cs plain =>
    have read : LexState.next rules (.literal rule) rule.mark cs = (.code, .literal) := by
      rw [next_literal, if_neg (by simpa using plain), if_pos rfl]
    rw [kept_lex_other read (by decide), Nat.add_sub_cancel_left]
    rfl
  | case5 n c cs plain inside ends =>
    have read : LexState.next rules (.literal rule) c cs = LexState.next rules .code c cs := by
      rw [next_literal, if_neg (by simpa using plain), if_neg inside, if_pos (by simpa using ends)]
      rfl
    rw [lex_congr read, Nat.sub_self]
    rfl
  | case6 n c cs plain inside goes ih =>
    have read : LexState.next rules (.literal rule) c cs = (.literal rule, .literal) := by
      rw [next_literal, if_neg (by simpa using plain), if_neg inside, if_neg (by simpa using goes)]
    have further := le_literalLength rule (n + 1) cs
    have length : literalLength rule (n + 1) cs - n =
        literalLength rule (n + 1) cs - (n + 1) + 1 := by omega
    rw [kept_lex_other read (by decide), ih, length, List.take_succ_cons, List.drop_succ_cons]
    rfl

/-! The scan. -/

theorem exists_cons_of_after? {key inner : List Char} (nonempty : key ≠ [])
    (found : after? key (c :: cs) = some inner) : ∃ tail, key = c :: tail ∧ cs = tail ++ inner := by
  have joined := after?_eq_some.mp found
  cases key with
  | nil => exact absurd rfl nonempty
  | cons first tail =>
    obtain ⟨rfl, rfl⟩ := List.cons.inj joined
    exact ⟨tail, rfl, rfl⟩

def afterBlock (rules : CommentSyntax) (inner : List Char) : List Char :=
  ((breakOn? rules.blockCloser inner).map (·.2)).getD []

theorem length_afterBlock_le (rules : CommentSyntax) (inner : List Char) :
    (afterBlock rules inner).length ≤ inner.length := by
  unfold afterBlock
  cases found : breakOn? rules.blockCloser inner with
  | none => exact Nat.zero_le _
  | some parts => exact length_of_breakOn? found

theorem kept_lex_afterBlock (closer : rules.blockCloser ≠ []) (inner : List Char) :
    kept (lex rules (.blockComment 0) inner) = kept (lex rules .code (afterBlock rules inner)) := by
  rw [kept_lex_blockComment closer [] inner, afterBlock, breakOn?]
  cases breakOnto? rules.blockCloser [] inner <;> rfl

/-- The scan goes on behind a comment where the lexer is back in code. -/
theorem kept_lex_afterComment (wellFormed : rules.WellFormed) {rest : List Char}
    (found : afterComment? rules (c :: cs) = some rest) :
    rest.length ≤ cs.length ∧ kept (lex rules .code (c :: cs)) = kept (lex rules .code rest) := by
  unfold afterComment? at found
  split at found
  · next inner opened =>
    obtain rfl : afterBlock rules inner = rest := Option.some.inj found
    obtain ⟨tail, opener, rfl⟩ := exists_cons_of_after? wellFormed.blockOpener opened
    have read : LexState.next rules .code c (tail ++ inner) =
        (.blockComment tail.length, .comment) := by
      rw [LexState.next, LexState.inCode, if_pos (isPrefix_of_after? opened), opener]
      rfl
    have shorter := length_afterBlock_le rules inner
    rw [kept_lex_comment read, kept_lex_opening, kept_lex_afterBlock wellFormed.blockCloser]
    exact ⟨by rw [List.length_append]; omega, rfl⟩
  · next unopened =>
    obtain ⟨inner, opened, rfl⟩ := Option.map_eq_some_iff.mp found
    obtain ⟨tail, opener, rfl⟩ := exists_cons_of_after? wellFormed.lineOpener opened
    have read : LexState.next rules .code c (tail ++ inner) = (.lineComment, .comment) := by
      rw [LexState.next, LexState.inCode, if_neg (not_isPrefix_of_after? unopened),
        if_pos (isPrefix_of_after? opened)]
    have sameLine : ∀ other ∈ tail, (other != '\n') = true := by
      intro other member
      rw [bne_iff_ne]
      rintro rfl
      exact wellFormed.sameLine (opener ▸ List.mem_cons_of_mem c member)
    have shorter := (List.dropWhile_suffix (· != '\n') (l := inner)).length_le
    rw [kept_lex_comment read, kept_lex_lineComment, List.dropWhile_append_of_pos sameLine]
    exact ⟨by rw [List.length_append]; omega, rfl⟩

theorem next_code_of_afterComment? (outside : afterComment? rules (c :: cs) = none) :
    LexState.next rules .code c cs =
      match literalAt? rules c with
      | some rule => (.literal rule, .literal)
      | none => (.code, .code) := by
  unfold afterComment? at outside
  split at outside
  · cases outside
  · next unopened =>
    rw [Option.map_eq_none_iff] at outside
    rw [LexState.next, LexState.inCode, if_neg (not_isPrefix_of_after? unopened),
      if_neg (not_isPrefix_of_after? outside)]

theorem commentStep_of_comment {rest : List Char}
    (found : afterComment? rules (c :: cs) = some rest) (shorter : rest.length ≤ cs.length) :
    commentStep rules c cs = ([], ⟨rest, shorter⟩) := by
  rw [commentStep, found]
  exact dif_pos shorter

theorem commentStep_of_literal {rule : LiteralRule}
    (outside : afterComment? rules (c :: cs) = none) (found : literalAt? rules c = some rule) :
    commentStep rules c cs =
      (c :: cs.take (literalLength rule 1 cs - 1),
        ⟨cs.drop (literalLength rule 1 cs - 1), (List.drop_sublist _ cs).length_le⟩) := by
  rw [commentStep, outside]
  dsimp only
  rw [found]

theorem commentStep_of_code (outside : afterComment? rules (c :: cs) = none)
    (found : literalAt? rules c = none) : commentStep rules c cs = copy c cs := by
  rw [commentStep, outside]
  dsimp only
  rw [found]

theorem scan_eq_kept (wellFormed : rules.WellFormed) (cs : List Char) :
    scan (commentStep rules) cs = kept (lex rules .code cs) := by
  induction length : cs.length using Nat.strongRecOn generalizing cs with
  | ind n ih =>
    cases cs with
    | nil => rw [scan_nil]; rfl
    | cons c cs =>
      rw [List.length_cons] at length
      rw [scan_cons]
      cases found : afterComment? rules (c :: cs) with
      | some rest =>
        obtain ⟨shorter, same⟩ := kept_lex_afterComment wellFormed found
        rw [commentStep_of_comment found shorter, List.nil_append, same]
        exact ih rest.length (by omega) rest rfl
      | none =>
        have read := next_code_of_afterComment? found
        cases rule? : literalAt? rules c with
        | some rule =>
          rw [rule?] at read
          have shorter : (cs.drop (literalLength rule 1 cs - 1)).length < n := by
            rw [List.length_drop]
            omega
          rw [commentStep_of_literal found rule?, kept_lex_other read (by decide),
            kept_lex_literal rule 1 cs, List.cons_append, ih _ shorter _ rfl]
        | none =>
          rw [rule?] at read
          rw [commentStep_of_code found rule?, kept_lex_other read (by decide)]
          exact congrArg (c :: ·) (ih cs.length (by omega) cs rfl)

end

/-- The scan writes what the lexer reads outside comments, each character once and in its place: a
stretch without a comment in it, a literal for one, is written as it stands. -/
theorem stripScanned_eq_kept {extension : String} {rules : CommentSyntax}
    (known : CommentSyntax.ofExtension? extension = some rules) (cs : List Char) :
    stripScanned rules cs = kept (lex rules .code cs) ∧
      (lex rules .code cs).map Prod.snd = cs ∧
      ∀ before stretch after, lex rules .code cs = before ++ stretch ++ after →
        (∀ entry ∈ stretch, entry.1 ≠ .comment) →
        stripScanned rules cs = kept before ++ stretch.map Prod.snd ++ kept after := by
  have same : stripScanned rules cs = kept (lex rules .code cs) :=
    scan_eq_kept (CommentSyntax.wellFormed_of_known known) cs
  refine ⟨same, map_snd_lex rules .code cs, ?_⟩
  intro before stretch after cut outside
  rw [same, cut, kept_append, kept_append, kept_of_no_comment outside]

/-- A quoted opener is no opener, and `--[[` opens a block though `--` would open a line comment. -/
def mixedComments : List Char := "s = '--[[' --[[ x\n-- y ]]t -- z".toList

theorem stripScanned_eq_kept_mixedComments :
    CommentSyntax.ofExtension? "lua" = some .lua ∧
      stripScanned .lua mixedComments = "s = '--[[' t ".toList ∧
      ∃ before stretch after, lex .lua .code mixedComments = before ++ stretch ++ after ∧
        stretch = "'--[['".toList.map (Part.literal, ·) ∧
        stripScanned .lua mixedComments = kept before ++ stretch.map Prod.snd ++ kept after := by
  have known : CommentSyntax.ofExtension? "lua" = some .lua := by decide +kernel
  obtain ⟨same, _, stretches⟩ := stripScanned_eq_kept known mixedComments
  have reading : kept (lex .lua .code mixedComments) = "s = '--[[' t ".toList := by decide +kernel
  have cut : lex .lua .code mixedComments =
      (lex .lua .code mixedComments).take 4 ++ "'--[['".toList.map (Part.literal, ·) ++
        (lex .lua .code mixedComments).drop 10 := by decide +kernel
  exact ⟨known, same.trans reading, _, _, _, cut, rfl, stretches _ _ _ cut (by decide +kernel)⟩

end Transform

end PromptPack
