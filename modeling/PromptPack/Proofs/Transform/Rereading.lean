import Mathlib.Data.List.Infix
import PromptPack.Proofs.Transform.Lexer

/-! Reading again what is left when comments are taken out. Two characters decide whether a comment
opens, so what is left is read as it was before, unless two of its characters open a comment together
and nothing but a comment kept them apart. Main statement: `comments_join`. -/

namespace PromptPack

namespace CommentSyntax

variable {rules : CommentSyntax} {c : Char} {cs : List Char}

def Opens (rules : CommentSyntax) (cs : List Char) : Prop :=
  rules.blockOpener <+: cs ∨ rules.lineOpener <+: cs

instance (rules : CommentSyntax) (cs : List Char) : Decidable (rules.Opens cs) :=
  inferInstanceAs (Decidable (rules.blockOpener <+: cs ∨ rules.lineOpener <+: cs))

/-- An opener has two characters, or starts with one that has, and stays within its line. -/
structure Short (rules : CommentSyntax) : Prop where
  lineOpener : rules.lineOpener.length = 2
  blockOpener : rules.blockOpener.length = 2 ∨ rules.lineOpener <+: rules.blockOpener
  sameLine : '\n' ∉ rules.lineOpener ++ rules.blockOpener

theorem short_of_known {extension : String} (found : ofExtension? extension = some rules) :
    rules.Short := by
  have all : ∀ rules ∈ known, rules.lineOpener.length = 2 ∧
      (rules.blockOpener.length = 2 ∨ rules.lineOpener <+: rules.blockOpener) ∧
      '\n' ∉ rules.lineOpener ++ rules.blockOpener := by decide
  obtain ⟨lineOpener, blockOpener, sameLine⟩ := all rules (mem_known found)
  exact ⟨lineOpener, blockOpener, sameLine⟩

theorem Short.opens_take (short : rules.Short) : rules.Opens (cs.take 2) ↔ rules.Opens cs := by
  constructor
  · exact Or.imp (·.trans (List.take_prefix 2 cs)) (·.trans (List.take_prefix 2 cs))
  · have line : rules.lineOpener <+: cs → rules.Opens (cs.take 2) := fun ahead =>
      .inr (List.prefix_take_iff.mpr ⟨ahead, short.lineOpener.le⟩)
    rintro (ahead | ahead)
    · obtain two | start := short.blockOpener
      · exact .inl (List.prefix_take_iff.mpr ⟨ahead, two.le⟩)
      · exact line (start.trans ahead)
    · exact line ahead

theorem Short.opens_cons (short : rules.Short) :
    rules.Opens (c :: cs) ↔ ∃ other rest, cs = other :: rest ∧ rules.Opens [c, other] := by
  rw [← short.opens_take]
  rcases cs with _ | ⟨other, rest⟩
  · have two : ∀ opener, opener.length = 2 → ¬ opener <+: [c] := fun opener two ahead => by
      simpa [two] using ahead.length_le
    have line := two _ short.lineOpener
    have block : ¬ rules.blockOpener <+: [c] := fun ahead =>
      short.blockOpener.elim (two _ · ahead) fun start => line (start.trans ahead)
    simpa [Opens] using And.intro block line
  · simp

theorem Short.not_opens_lineBreak (short : rules.Short) : ¬ rules.Opens ('\n' :: cs) := by
  intro opens
  have head : ∀ opener, opener <+: '\n' :: cs → '\n' ∉ opener → opener = [] := by
    intro opener ahead inline
    cases opener with
    | nil => rfl
    | cons first rest =>
      obtain rfl := (List.cons_prefix_cons.mp ahead).1
      exact absurd List.mem_cons_self inline
  obtain ⟨line, block⟩ := not_or.mp (mt List.mem_append.mpr short.sameLine)
  have some : rules.lineOpener ≠ [] := by
    intro none
    simpa [none] using short.lineOpener
  obtain ahead | ahead := opens
  · have none := head _ ahead block
    simpa [none, some] using short.blockOpener
  · exact some (head _ ahead line)

/-- One mark starts every comment, and twice it opens one. -/
def OneMark (rules : CommentSyntax) : Prop :=
  ∃ mark, rules.lineOpener = [mark, mark] ∧ rules.blockOpener.head? = some mark

theorem oneMark_of_known {extension : String} (found : ofExtension? extension = some rules)
    (other : rules ≠ sql) : rules.OneMark := by
  have all : ∀ rules ∈ known, rules ≠ sql →
      rules.lineOpener = List.replicate 2 (rules.lineOpener.headD ' ') ∧
        rules.blockOpener.head? = some (rules.lineOpener.headD ' ') := by decide
  exact ⟨_, all rules (mem_known found) other⟩

theorem OneMark.opens_cons (oneMark : rules.OneMark) {ds : List Char}
    (opens : rules.Opens (c :: ds)) (behind : rules.Opens cs) : rules.Opens (c :: cs) := by
  obtain ⟨mark, line, block⟩ := oneMark
  have first : ∀ text, rules.Opens text → text.head? = some mark := by
    rintro text (⟨rest, rfl⟩ | ⟨rest, rfl⟩)
    · rw [List.head?_append, block, Option.some_or]
    · rw [line]; rfl
  obtain ⟨rest, rfl⟩ := List.head?_eq_some_iff.mp (first cs behind)
  obtain rfl : c = mark := Option.some.inj (first (c :: ds) opens)
  exact .inr ⟨rest, by rw [line]; rfl⟩

end CommentSyntax

namespace Transform

open Text

namespace LexState

def plain (rules : CommentSyntax) (c : Char) : LexState × Part :=
  match literalAt? rules c with
  | some rule => (.literal rule, .literal)
  | none => (.code, .code)

/-- The state in which a text goes on when its comments are taken out. -/
def resumed : LexState → LexState
  | .lineComment | .blockComment _ | .closing _ => .code
  | state => state

end LexState

def walk (rules : CommentSyntax) : LexState → List Char → List (LexState × Part × Char)
  | _, [] => []
  | state, c :: cs =>
    ((state.next rules c cs).1, (state.next rules c cs).2, c) ::
      walk rules (state.next rules c cs).1 cs

deriving instance DecidableEq for LexState

def outside (entries : List (LexState × Part × Char)) : List (LexState × Part × Char) :=
  entries.filter fun entry => entry.2.1 ≠ .comment

/-- Two characters that open a comment together, with nothing but a comment between them. -/
def Clash (rules : CommentSyntax) (entries : List (Part × Char)) : Prop :=
  ∃ before a gap b after, entries = before ++ a :: (gap ++ b :: after) ∧ a.1 = .code ∧
    b.1 ≠ .comment ∧ gap ≠ [] ∧ (∀ entry ∈ gap, entry.1 = .comment) ∧ rules.Opens [a.2, b.2]

section

variable {rules : CommentSyntax} {state after : LexState} {part : Part} {c : Char} {cs : List Char}

theorem map_snd_walk (rules : CommentSyntax) (state : LexState) (cs : List Char) :
    (walk rules state cs).map Prod.snd = lex rules state cs := by
  induction cs generalizing state with
  | nil => rfl
  | cons c cs ih => rw [walk, List.map_cons, ih, lex]

/-! One character. -/

theorem inCode_of_opens (opens : rules.Opens (c :: cs)) :
    ∃ after, LexState.inCode rules c cs = (after, .comment) ∧ after.resumed = .code := by
  by_cases block : rules.blockOpener <+: c :: cs
  · exact ⟨_, if_pos block, rfl⟩
  · exact ⟨_, (if_neg block).trans (if_pos (opens.resolve_left block)), rfl⟩

theorem inCode_of_not_opens (quiet : ¬ rules.Opens (c :: cs)) :
    LexState.inCode rules c cs = LexState.plain rules c := by
  obtain ⟨block, line⟩ := not_or.mp quiet
  exact (if_neg block).trans (if_neg line)

theorem plain_ne_comment (rules : CommentSyntax) (c : Char) :
    (LexState.plain rules c).2 ≠ .comment := by
  unfold LexState.plain
  split <;> exact nofun

theorem inCode_eq_comment (read : LexState.inCode rules c cs = (after, .comment)) :
    rules.Opens (c :: cs) ∧ after.resumed = .code := by
  have opens : rules.Opens (c :: cs) := by
    by_contra quiet
    rw [inCode_of_not_opens quiet] at read
    exact plain_ne_comment rules c (congrArg Prod.snd read)
  obtain ⟨_, again, resumed⟩ := inCode_of_opens opens
  obtain rfl := congrArg Prod.fst (again.symm.trans read)
  exact ⟨opens, resumed⟩

theorem inCode_eq_other (read : LexState.inCode rules c cs = (after, part))
    (other : part ≠ .comment) : ¬ rules.Opens (c :: cs) ∧ LexState.plain rules c = (after, part) := by
  have quiet : ¬ rules.Opens (c :: cs) := fun opens => by
    obtain ⟨_, comment, -⟩ := inCode_of_opens opens
    exact other (congrArg Prod.snd (read.symm.trans comment))
  exact ⟨quiet, (inCode_of_not_opens quiet).symm.trans read⟩

/-- A character stands inside a comment, or inside a literal whatever follows, or is read as code:
also the line break that ends a literal is. -/
theorem next_cases (read : state.next rules c cs = (after, part)) :
    (part = .comment ∧ state.resumed = .code ∧ after.resumed = .code) ∨
    (part = .literal ∧ after.resumed = after ∧
      ∀ rest, state.resumed.next rules c rest = (after, part)) ∨
    (LexState.inCode rules c cs = (after, part) ∧ (state.resumed = .code ∨ c = '\n') ∧
      ∀ rest, state.resumed.next rules c rest = LexState.inCode rules c rest) := by
  cases state with
  | code => exact .inr (.inr ⟨read, .inl rfl, fun _ => rfl⟩)
  | lineComment =>
    simp only [LexState.next] at read
    split at read
    · exact .inr (.inr ⟨read, .inl rfl, fun _ => rfl⟩)
    · cases read
      exact .inl ⟨rfl, rfl, rfl⟩
  | blockComment opening =>
    cases opening with
    | zero =>
      simp only [LexState.next] at read
      split at read <;> cases read <;> exact .inl ⟨rfl, rfl, rfl⟩
    | succ opening =>
      cases read
      exact .inl ⟨rfl, rfl, rfl⟩
  | closing left =>
    cases left with
    | zero => exact .inr (.inr ⟨read, .inl rfl, fun _ => rfl⟩)
    | succ left =>
      cases read
      exact .inl ⟨rfl, rfl, rfl⟩
  | literal rule =>
    rw [next_literal] at read
    simp only [LexState.resumed, next_literal]
    split_ifs at read ⊢ with _ _ ends
    · cases read
      exact .inr (.inl ⟨rfl, rfl, fun _ => rfl⟩)
    · cases read
      exact .inr (.inl ⟨rfl, rfl, fun _ => rfl⟩)
    · exact .inr (.inr ⟨read, .inr ends.1, fun _ => rfl⟩)
    · cases read
      exact .inr (.inl ⟨rfl, rfl, fun _ => rfl⟩)
  | escaped rule =>
    cases read
    exact .inr (.inl ⟨rfl, rfl, fun _ => rfl⟩)

theorem resumed_of_comment (short : rules.Short) (read : state.next rules c cs = (after, .comment)) :
    state.resumed = .code ∧ after.resumed = .code := by
  obtain ⟨-, resumed⟩ | ⟨literal, -⟩ | ⟨code, before, -⟩ := next_cases read
  · exact resumed
  · cases literal
  · obtain ⟨opens, resumed⟩ := inCode_eq_comment code
    refine ⟨before.resolve_right ?_, resumed⟩
    rintro rfl
    exact short.not_opens_lineBreak opens

theorem resumed_of_other (read : state.next rules c cs = (after, part)) (other : part ≠ .comment) :
    after.resumed = after := by
  obtain ⟨-, resumed, -⟩ | ⟨code, -⟩ := (next_cases read).resolve_left (other ·.1)
  · exact resumed
  · obtain ⟨-, plain⟩ := inCode_eq_other code other
    unfold LexState.plain at plain
    split at plain <;> cases plain <;> rfl

/-! What is left. -/

theorem exists_of_kept {entries : List (Part × Char)} {rest : List Char}
    (left : kept entries = c :: rest) :
    ∃ gap entry behind, entries = gap ++ entry :: behind ∧ (∀ other ∈ gap, other.1 = .comment) ∧
      entry.1 ≠ .comment ∧ entry.2 = c := by
  obtain ⟨entry, others, found, rfl, -⟩ := List.map_eq_cons_iff.mp left
  obtain ⟨gap, behind, rfl, comments, stays, -⟩ := List.filter_eq_cons_iff.mp found
  exact ⟨gap, entry, behind, rfl, by simpa using comments, by simpa using stays, rfl⟩

theorem not_clash_nil : ¬ Clash rules [] := by
  rintro ⟨before, a, gap, b, after, cut, -⟩
  cases before <;> cases cut

theorem clash_cons {entry : Part × Char} {entries : List (Part × Char)} :
    Clash rules (entry :: entries) ↔
      (entry.1 = .code ∧ ∃ gap b after, entries = gap ++ b :: after ∧ b.1 ≠ .comment ∧ gap ≠ [] ∧
        (∀ other ∈ gap, other.1 = .comment) ∧ rules.Opens [entry.2, b.2]) ∨
      Clash rules entries := by
  constructor
  · rintro ⟨_ | ⟨first, before⟩, a, gap, b, after, cut, code, kept⟩
    · obtain ⟨rfl, rfl⟩ := List.cons.inj cut
      exact .inl ⟨code, gap, b, after, rfl, kept⟩
    · obtain ⟨rfl, rfl⟩ := List.cons.inj cut
      exact .inr ⟨before, a, gap, b, after, rfl, code, kept⟩
  · rintro (⟨code, gap, b, after, rfl, kept⟩ | ⟨before, a, gap, b, after, rfl, kept⟩)
    · exact ⟨[], entry, gap, b, after, rfl, code, kept⟩
    · exact ⟨entry :: before, a, gap, b, after, rfl, kept⟩

/-- A character that a comment follows at once opens no literal. -/
theorem opens_behind (short : rules.Short) {first : Part × Char} {others : List (Part × Char)}
    (plain : LexState.plain rules c = (after, part)) (cut : lex rules after cs = first :: others)
    (comment : first.1 = .comment) : part = .code ∧ rules.Opens cs := by
  cases cs with
  | nil => cases cut
  | cons d cs =>
    obtain ⟨rfl, -⟩ := List.cons.inj cut
    unfold LexState.plain at plain
    split at plain
    · cases plain
      cases (resumed_of_comment short (Prod.ext rfl comment)).1
    · cases plain
      exact ⟨rfl, (inCode_eq_comment (Prod.ext rfl comment)).1⟩

theorem not_opens_kept (short : rules.Short) (read : LexState.inCode rules c cs = (after, part))
    (other : part ≠ .comment) (apart : ¬ Clash rules ((part, c) :: lex rules after cs)) :
    ¬ rules.Opens (c :: kept (lex rules after cs)) := by
  obtain ⟨quiet, plain⟩ := inCode_eq_other read other
  intro opens
  obtain ⟨b, rest, left, opens⟩ := short.opens_cons.mp opens
  obtain ⟨gap, next, behind, cut, comments, stays, rfl⟩ := exists_of_kept left
  have text := map_snd_lex rules after cs
  rw [cut] at text
  rcases gap with _ | ⟨first, gap⟩
  · exact quiet (short.opens_cons.mpr ⟨next.2, _, text.symm, opens⟩)
  · obtain ⟨code, -⟩ := opens_behind short plain cut (comments first List.mem_cons_self)
    exact apart (clash_cons.mpr (.inl
      ⟨code, first :: gap, next, behind, cut, stays, List.cons_ne_nil _ _, comments, opens⟩))

theorem walk_kept (short : rules.Short) (apart : ¬ Clash rules (lex rules state cs)) :
    walk rules state.resumed (kept (lex rules state cs)) = outside (walk rules state cs) := by
  induction cs generalizing state with
  | nil => rfl
  | cons c cs ih =>
    cases read : state.next rules c cs with
    | mk after part =>
      simp only [lex, walk, read] at apart ⊢
      have behind := ih fun clash => apart (clash_cons.mpr (.inr clash))
      by_cases comment : part = .comment
      · subst comment
        obtain ⟨before, resumed⟩ := resumed_of_comment short read
        rw [before, ← resumed]
        simpa [kept, outside] using behind
      · have same : state.resumed.next rules c (kept (lex rules after cs)) = (after, part) := by
          obtain ⟨-, -, same⟩ | ⟨code, -, same⟩ := (next_cases read).resolve_left (comment ·.1)
          · exact same _
          · rw [same, inCode_of_not_opens (not_opens_kept short code comment apart)]
            exact (inCode_eq_other code comment).2
        rw [resumed_of_other read comment] at behind
        rw [kept_cons_of_other comment, walk, same, behind]
        simp [outside, comment]

/-- The first character opens a comment in what is left, or is read as before and the clash is
behind it. -/
theorem clash_step (short : rules.Short) (clash : Clash rules ((part, c) :: lex rules after cs))
    (read : state.next rules c cs = (after, part)) (other : part ≠ .comment) :
    (∃ opened, state.resumed.next rules c (kept (lex rules after cs)) = (opened, .comment)) ∨
      state.resumed.next rules c (kept (lex rules after cs)) = (after, part) ∧
        Clash rules (lex rules after cs) := by
  obtain ⟨rfl, -, same⟩ | ⟨code, -, same⟩ := (next_cases read).resolve_left (other ·.1)
  · exact .inr ⟨same _, (clash_cons.mp clash).resolve_left nofun⟩
  · rw [same]
    by_cases opens : rules.Opens (c :: kept (lex rules after cs))
    · obtain ⟨opened, comment, -⟩ := inCode_of_opens opens
      exact .inl ⟨opened, comment⟩
    · refine .inr ⟨(inCode_of_not_opens opens).trans (inCode_eq_other code other).2, ?_⟩
      refine (clash_cons.mp clash).resolve_left ?_
      rintro ⟨-, gap, b, behind, cut, stays, -, comments, together⟩
      refine opens (short.opens_cons.mpr ⟨b.2, kept behind, ?_, together⟩)
      rw [cut, kept_append, kept_of_comments comments, kept_cons_of_other stays, List.nil_append]

theorem exists_comment_of_clash (short : rules.Short) (clash : Clash rules (lex rules state cs)) :
    ∃ entry ∈ lex rules state.resumed (kept (lex rules state cs)), entry.1 = .comment := by
  induction cs generalizing state with
  | nil => exact absurd clash not_clash_nil
  | cons c cs ih =>
    cases read : state.next rules c cs with
    | mk after part =>
      rw [lex, read] at clash
      by_cases comment : part = .comment
      · subst comment
        obtain ⟨before, resumed⟩ := resumed_of_comment short read
        rw [kept_lex_comment read, before, ← resumed]
        exact ih ((clash_cons.mp clash).resolve_left (by simp))
      · rw [kept_lex_other read comment, lex]
        obtain ⟨opened, first⟩ | ⟨same, behind⟩ := clash_step short clash read comment
        · rw [first]
          exact ⟨_, List.mem_cons_self, rfl⟩
        · obtain ⟨entry, member, found⟩ := ih behind
          rw [resumed_of_other read comment] at member
          rw [same]
          exact ⟨entry, List.mem_cons_of_mem _ member, found⟩

theorem not_clash (short : rules.Short) (oneMark : rules.OneMark) :
    ¬ Clash rules (lex rules state cs) := by
  induction cs generalizing state with
  | nil => exact not_clash_nil
  | cons c cs ih =>
    intro clash
    cases read : state.next rules c cs with
    | mk after part =>
      rw [lex, read] at clash
      obtain ⟨code, gap, b, behind, cut, -, some, comments, together⟩ | clash := clash_cons.mp clash
      · obtain rfl : part = .code := code
        obtain ⟨comment, -⟩ | ⟨literal, -⟩ | ⟨code, -⟩ := next_cases read
        · cases comment
        · cases literal
        · obtain ⟨quiet, plain⟩ := inCode_eq_other code (by decide)
          rcases gap with _ | ⟨first, gap⟩
          · exact some rfl
          · obtain ⟨-, opens⟩ := opens_behind short plain cut (comments first List.mem_cons_self)
            exact quiet (oneMark.opens_cons together opens)
      · exact ih clash

theorem exists_next_of_walk {before behind : List (LexState × Part × Char)}
    {a b : LexState × Part × Char} (cut : walk rules state cs = before ++ a :: b :: behind) :
    ∃ rest, a.1.next rules b.2.2 rest = (b.1, b.2.1) := by
  induction before generalizing state cs with
  | nil =>
    rcases cs with _ | ⟨c, _ | ⟨d, cs⟩⟩
    · cases cut
    · cases cut
    · obtain ⟨rfl, tail⟩ := List.cons.inj cut
      obtain ⟨rfl, -⟩ := List.cons.inj tail
      exact ⟨cs, rfl⟩
  | cons entry before ih =>
    cases cs with
    | nil => cases cut
    | cons c cs => exact ih (List.cons.inj cut).2

theorem lineBreak_of_walk {before behind : List (LexState × Part × Char)}
    {a b : LexState × Part × Char} (cut : walk rules state cs = before ++ a :: b :: behind)
    (comment : a.1 = .lineComment) (outside : b.2.1 ≠ .comment) : b.2.2 = '\n' := by
  obtain ⟨rest, read⟩ := exists_next_of_walk cut
  by_contra inside
  rw [comment, LexState.next, if_neg inside] at read
  exact outside (congrArg Prod.snd read).symm

end

/-- Taking comments out joins what stood around them: two characters with nothing but comments
between them follow each other in what is left, where a line comment leaves its line break behind it.
A comment opens in what is left exactly if two characters of the code clash, and only those of SQL
can: its two openers start with different marks. -/
theorem comments_join {extension : String} {rules : CommentSyntax}
    (known : CommentSyntax.ofExtension? extension = some rules) (cs : List Char) :
    (∀ before a gap b after, lex rules .code cs = before ++ a :: (gap ++ b :: after) →
      a.1 ≠ .comment → b.1 ≠ .comment → (∀ entry ∈ gap, entry.1 = .comment) →
      stripComments extension cs = kept before ++ a.2 :: b.2 :: kept after) ∧
    (∀ before a b after, walk rules .code cs = before ++ a :: b :: after →
      a.1 = .lineComment → b.2.1 ≠ .comment → b.2.2 = '\n') ∧
    ((∃ entry ∈ lex rules .code (stripComments extension cs), entry.1 = .comment) ↔
      Clash rules (lex rules .code cs)) ∧
    (Clash rules (lex rules .code cs) → rules = .sql) := by
  have short := CommentSyntax.short_of_known known
  have left : stripComments extension cs = kept (lex rules .code cs) := by
    rw [stripComments, known]
    exact scan_eq_kept (CommentSyntax.wellFormed_of_known known) cs
  refine ⟨?_, fun _ _ _ _ => lineBreak_of_walk, ⟨?_, ?_⟩, ?_⟩
  · intro before a gap b after cut first second comments
    rw [left, cut, kept_append, kept_cons_of_other first, kept_append, kept_of_comments comments,
      kept_cons_of_other second, List.nil_append]
  · rintro ⟨entry, member, comment⟩
    by_contra apart
    have same : walk rules .code (stripComments extension cs) = outside (walk rules .code cs) := by
      rw [left]
      exact walk_kept short apart
    rw [← map_snd_walk, same] at member
    obtain ⟨walked, stays, rfl⟩ := List.mem_map.mp member
    exact of_decide_eq_true (List.mem_filter.mp stays).2 comment
  · intro clash
    rw [left]
    exact exists_comment_of_clash short clash
  · intro clash
    by_contra other
    exact not_clash short (CommentSyntax.oneMark_of_known known other) clash

def clashingMarks : List Char := "a/* b *//* c */b-/* '--' */- c -- d\n'--'".toList

theorem comments_join_clashingMarks :
    CommentSyntax.ofExtension? "sql" = some .sql ∧
      stripComments "sql" clashingMarks = "ab-- c \n'--'".toList ∧
      (∃ before a gap b after, lex .sql .code clashingMarks = before ++ a :: (gap ++ b :: after) ∧
        a = (.code, 'a') ∧ b = (.code, 'b') ∧ gap.length = 14 ∧
        stripComments "sql" clashingMarks = kept before ++ 'a' :: 'b' :: kept after) ∧
      (∃ before a b after, walk .sql .code clashingMarks = before ++ a :: b :: after ∧
        a.1 = .lineComment ∧ b.2.2 = '\n') ∧
      ∃ entry ∈ lex .sql .code (stripComments "sql" clashingMarks), entry.1 = .comment := by
  have known : CommentSyntax.ofExtension? "sql" = some .sql := by decide +kernel
  obtain ⟨joins, breaks, opens, -⟩ := comments_join known clashingMarks
  have apart : lex .sql .code clashingMarks = [] ++ (.code, 'a') ::
      (((lex .sql .code clashingMarks).drop 1).take 14 ++
        (.code, 'b') :: (lex .sql .code clashingMarks).drop 16) := by decide +kernel
  have lineEnd : walk .sql .code clashingMarks = (walk .sql .code clashingMarks).take 34 ++
      (.lineComment, .comment, 'd') :: (.code, .code, '\n') ::
        (walk .sql .code clashingMarks).drop 36 := by decide +kernel
  have clash : Clash .sql (lex .sql .code clashingMarks) :=
    ⟨(lex .sql .code clashingMarks).take 16, (.code, '-'),
      ((lex .sql .code clashingMarks).drop 17).take 10, (.code, '-'),
      (lex .sql .code clashingMarks).drop 28, by decide +kernel⟩
  exact ⟨known, by decide +kernel,
    ⟨_, _, _, _, _, apart, rfl, rfl, by decide +kernel,
      joins _ _ _ _ _ apart nofun nofun (by decide +kernel)⟩,
    ⟨_, _, _, _, lineEnd, rfl, breaks _ _ _ _ lineEnd rfl nofun⟩, opens.mpr clash⟩

theorem comments_glue :
    lex .braces .code "int/**/n".toList =
        "int".toList.map (.code, ·) ++ ("/**/".toList.map (.comment, ·) ++ [(.code, 'n')]) ∧
      stripComments "c" "int/**/n".toList = "intn".toList ∧
      stripComments "sql" "1 -/* x */- 2".toList = "1 -- 2".toList ∧
      stripComments "sql" "1 -- 2".toList = "1 ".toList := by
  decide +kernel

end Transform

end PromptPack
