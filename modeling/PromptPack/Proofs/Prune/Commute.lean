import Mathlib.Tactic.ByContra

/-! Removals in any order, line by line. What starts a declaration and what ends one is a matter of
the line alone here. One removal after the other takes out what the two together take out, but for
empty lines: each removal leaves one behind, which a later one may take along. Main statements:
`Leaves.trans`, `Leaves.squeeze_eq`. -/

namespace PromptPack.Prune

/-- What lines are to a removal. Signs go with the header below them, and a sibling ends what stands
above it. -/
structure Layout where
  sign : List Char → Prop
  sibling : List Char → Bool
  sibling_of_sign : ∀ {line}, sign line → sibling line = true
  sibling_nil : sibling [] = false

/-- The lines without those that stand directly above an equal empty line. -/
def squeezeStep (line : List Char) (below : List (List Char)) : List (List Char) :=
  if line = [] ∧ below.head? = some [] then below else line :: below

def squeeze (ls : List (List Char)) : List (List Char) := ls.foldr squeezeStep []

namespace Layout

variable (layout : Layout)

/-- A declaration starts at the first line, with signs above its header or without, and `below` is
what follows the line of the header. -/
inductive Opens (starts : List Char → Prop) : List (List Char) → List (List Char) → Prop
  | header {line : List Char} {below : List (List Char)} : starts line →
      Opens starts (line :: below) below
  | sign {line : List Char} {ls below : List (List Char)} : layout.sign line →
      Opens starts ls below → Opens starts (line :: ls) below

/-- From the first sibling on, or from an empty line at the end. -/
def toSibling : List (List Char) → List (List Char)
  | [] => []
  | line :: below =>
    if layout.sibling line = true ∨ (line = [] ∧ below = []) then line :: below
    else toSibling below

/-- What is left when the declarations are out. Each leaves an empty line behind, apart from some
that follow another one directly. -/
inductive Leaves (starts : List Char → Prop) : Bool → List (List Char) → List (List Char) → Prop
  | done {flag : Bool} : Leaves starts flag [] []
  | tail : Leaves starts true [] [[]]
  | keep {flag : Bool} {line : List Char} {ls left : List (List Char)} :
      (∀ below, ¬ layout.Opens starts (line :: ls) below) → Leaves starts false ls left →
      Leaves starts flag (line :: ls) (line :: left)
  | cut {flag : Bool} {ls below left : List (List Char)} : layout.Opens starts ls below →
      Leaves starts true (layout.toSibling below) left → Leaves starts flag ls ([] :: left)
  | skip {ls below left : List (List Char)} : layout.Opens starts ls below →
      Leaves starts true (layout.toSibling below) left → Leaves starts true ls left

structure Headers (starts : List Char → Prop) : Prop where
  solid : ¬ starts []
  notSign : ∀ {line}, starts line → ¬ layout.sign line

variable {layout} {starts others : List Char → Prop} {line : List Char}
  {ls below left : List (List Char)} {flag : Bool}

theorem not_sign_nil : ¬ layout.sign [] := fun sign =>
  Bool.false_ne_true (layout.sibling_nil.symm.trans (layout.sibling_of_sign sign))

theorem Opens.length_lt (opens : layout.Opens starts ls below) : below.length < ls.length := by
  induction opens with
  | header _ => exact Nat.lt_succ_self _
  | sign _ _ ih => exact Nat.lt_succ_of_lt ih

theorem Opens.unique (headers : layout.Headers starts) (opens : layout.Opens starts ls below)
    (again : layout.Opens starts ls left) : below = left := by
  induction opens with
  | header here =>
    cases again with
    | header _ => rfl
    | sign sign _ => exact absurd sign (headers.notSign here)
  | sign sign _ ih =>
    cases again with
    | header here => exact absurd sign (headers.notSign here)
    | sign _ again => exact ih again

theorem Opens.mono (sub : ∀ line, starts line → others line)
    (opens : layout.Opens starts ls below) : layout.Opens others ls below := by
  induction opens with
  | header here => exact .header (sub _ here)
  | sign sign _ ih => exact .sign sign ih

theorem opens_or_iff : layout.Opens (fun line => starts line ∨ others line) ls below ↔
    layout.Opens starts ls below ∨ layout.Opens others ls below := by
  constructor
  · intro opens
    induction opens with
    | header here => exact here.imp .header .header
    | sign sign _ ih => exact ih.imp (.sign sign) (.sign sign)
  · rintro (opens | opens)
    · exact opens.mono fun _ => .inl
    · exact opens.mono fun _ => .inr

theorem Headers.not_opens_nil (headers : layout.Headers starts) :
    ¬ layout.Opens starts ([] :: ls) below := by
  intro opens
  cases opens with
  | header here => exact headers.solid here
  | sign sign _ => exact not_sign_nil sign

theorem suffix_toSibling (ls : List (List Char)) : layout.toSibling ls <:+ ls := by
  induction ls with
  | nil => exact List.suffix_refl _
  | cons line ls ih =>
    unfold toSibling
    split
    · exact List.suffix_refl _
    · exact ih.trans (List.suffix_cons _ _)

theorem length_toSibling (ls : List (List Char)) : (layout.toSibling ls).length ≤ ls.length :=
  (layout.suffix_toSibling ls).length_le

theorem Opens.suffix_toSibling (opens : layout.Opens starts ls below) :
    layout.toSibling below <:+ ls := by
  refine (layout.suffix_toSibling below).trans ?_
  induction opens with
  | header _ => exact List.suffix_cons _ _
  | sign _ _ ih => exact ih.trans (List.suffix_cons _ _)

theorem toSibling_toSibling (ls : List (List Char)) :
    layout.toSibling (layout.toSibling ls) = layout.toSibling ls := by
  induction ls with
  | nil => rfl
  | cons line ls ih =>
    by_cases stop : layout.sibling line = true ∨ (line = [] ∧ ls = [])
    · simp only [toSibling, if_pos stop]
    · simp only [toSibling, if_neg stop, ih]

theorem toSibling_stop (sibling : layout.sibling line = true) (ls : List (List Char)) :
    layout.toSibling (line :: ls) = line :: ls := if_pos (.inl sibling)

theorem toSibling_nil_cons (ls : List (List Char)) :
    layout.toSibling ([] :: ls) = if ls = [] then [[]] else layout.toSibling ls := by
  unfold toSibling
  by_cases none : ls = []
  · rw [if_pos (.inr ⟨rfl, none⟩), if_pos none, none]
  · rw [if_neg (by simp [layout.sibling_nil, none]), if_neg none]
    cases ls <;> rfl

theorem Leaves.eq_nil_iff (leaves : layout.Leaves starts false ls left) : ls = [] ↔ left = [] := by
  cases leaves with
  | done => exact Iff.rfl
  | keep _ _ => simp
  | cut opens _ =>
    have shorter := opens.length_lt
    simp only [reduceCtorEq, iff_false]
    rintro rfl
    exact absurd shorter (Nat.not_lt_zero _)

theorem Leaves.weaken (leaves : layout.Leaves starts flag ls left) :
    layout.Leaves starts true ls left := by
  cases leaves with
  | done => exact .done
  | tail => exact .tail
  | keep stays later => exact .keep stays later
  | cut opens later => exact .cut opens later
  | skip opens later => exact .skip opens later

theorem Leaves.refl (never : ∀ line, ¬ starts line) (ls : List (List Char)) :
    layout.Leaves starts false ls ls := by
  have closed : ∀ ls below, ¬ layout.Opens starts ls below := by
    intro ls below opens
    induction opens with
    | header here => exact never _ here
    | sign _ _ ih => exact ih
  induction ls with
  | nil => exact .done
  | cons line ls ih => exact .keep (closed _) ih

/-! Siblings and headers are found again in what is left. -/

theorem Leaves.concat_nil (leaves : layout.Leaves starts true ls []) :
    layout.Leaves starts true ls [[]] := by
  generalize isFlag : true = flag at leaves
  generalize isLeft : [] = left at leaves
  induction leaves with
  | done =>
    subst isFlag
    exact .tail
  | tail => cases isLeft
  | keep _ _ => cases isLeft
  | cut _ _ => cases isLeft
  | skip opens _ ih => exact .skip opens (ih rfl isLeft)

/-- From a sibling on, what stands in front of the first sibling left is empty. -/
theorem Leaves.toSibling_right (leaves : layout.Leaves starts flag ls left)
    (settled : layout.toSibling ls = ls) :
    layout.Leaves starts true ls (layout.toSibling left) := by
  induction leaves with
  | done => exact .done
  | tail =>
    rw [toSibling_nil_cons, if_pos rfl]
    exact .tail
  | @keep _ line ls left stays later =>
    have stop : layout.sibling line = true ∨ (line = [] ∧ ls = []) := by
      by_contra passes
      have shorter := layout.length_toSibling ls
      have same : (layout.toSibling (line :: ls)).length = ls.length + 1 := by
        rw [settled, List.length_cons]
      rw [toSibling, if_neg passes] at same
      omega
    have stays' : layout.toSibling (line :: left) = line :: left :=
      if_pos (stop.imp_right (And.imp_right later.eq_nil_iff.mp))
    rw [stays']
    exact .keep stays later
  | @cut _ ls below left opens later ih =>
    rw [toSibling_nil_cons]
    split
    · next none => exact .cut opens (none ▸ later)
    · exact .skip opens (ih (toSibling_toSibling below))
  | @skip ls below left opens later ih =>
    exact .skip opens (ih (toSibling_toSibling below))

theorem Leaves.toSibling (leaves : layout.Leaves starts false ls left) :
    layout.Leaves starts true (layout.toSibling ls) (layout.toSibling left) := by
  generalize isFlag : false = flag at leaves
  induction leaves with
  | done => exact .done
  | tail => cases isFlag
  | skip _ _ _ => cases isFlag
  | @keep _ line ls left stays later ih =>
    by_cases stop : layout.sibling line = true ∨ (line = [] ∧ ls = [])
    · have stopLeft := stop.imp_right (And.imp_right later.eq_nil_iff.mp)
      rw [Layout.toSibling, if_pos stop, Layout.toSibling, if_pos stopLeft]
      exact .keep stays later
    · have goes : ¬ (layout.sibling line = true ∨ (line = [] ∧ left = [])) := fun stopLeft =>
        stop (stopLeft.imp_right (And.imp_right later.eq_nil_iff.mpr))
      rw [Layout.toSibling, if_neg stop, Layout.toSibling, if_neg goes]
      exact ih rfl
  | @cut _ ls below left opens later _ =>
    by_cases settled : layout.toSibling ls = ls
    · rw [settled]
      have leaves : layout.Leaves starts false ls ([] :: left) := .cut opens later
      exact leaves.toSibling_right settled
    · -- The declaration starts with its header, and that is no sibling.
      cases opens with
      | sign sign _ => exact absurd (toSibling_stop (layout.sibling_of_sign sign) _) settled
      | @header line _ here =>
        have passes : ¬ (layout.sibling line = true ∨ (line = [] ∧ below = [])) :=
          fun stop => settled (if_pos stop)
        rw [Layout.toSibling, if_neg passes, toSibling_nil_cons]
        split
        · next none =>
          subst none
          exact later.concat_nil
        · exact later.toSibling_right (toSibling_toSibling below)

theorem Opens.of_left {rest : List (List Char)} (opens : layout.Opens others (line :: left) rest)
    (stays : ∀ below, ¬ layout.Opens starts (line :: ls) below)
    (leaves : layout.Leaves starts false ls left) :
    ∃ below, layout.Opens others (line :: ls) below ∧ layout.Leaves starts false below rest := by
  generalize isLeft : line :: left = after at opens
  induction opens generalizing line ls left with
  | header here =>
    obtain ⟨rfl, rfl⟩ := List.cons.inj isLeft
    exact ⟨ls, .header here, leaves⟩
  | @sign _ after rest sign opens ih =>
    obtain ⟨rfl, rfl⟩ := List.cons.inj isLeft
    cases leaves with
    | done => cases opens
    | keep staysBelow later =>
      obtain ⟨below, opens, behind⟩ := ih staysBelow later rfl
      exact ⟨below, .sign sign opens, behind⟩
    | cut earlier _ => exact absurd (.sign sign earlier) (stays _)

theorem Opens.of_kept (opens : layout.Opens others (line :: ls) below)
    (stays : ∀ below, ¬ layout.Opens starts (line :: ls) below)
    (leaves : layout.Leaves starts false ls left) :
    ∃ rest, layout.Opens others (line :: left) rest := by
  generalize isBefore : line :: ls = before at opens
  induction opens generalizing line ls left with
  | header here =>
    obtain ⟨rfl, rfl⟩ := List.cons.inj isBefore
    exact ⟨left, .header here⟩
  | @sign _ before rest sign opens ih =>
    obtain ⟨rfl, rfl⟩ := List.cons.inj isBefore
    cases leaves with
    | done => cases opens
    | keep staysBelow later =>
      obtain ⟨below, opens⟩ := ih staysBelow later rfl
      exact ⟨below, .sign sign opens⟩
    | cut earlier _ => exact absurd (.sign sign earlier) (stays _)

/-- One removal after the other takes out what both together take out. -/
theorem Leaves.trans {other : Bool} {after : List (List Char)} (more : layout.Headers others)
    (first : layout.Leaves starts flag ls left)
    (second : layout.Leaves others other left after) :
    layout.Leaves (fun line => starts line ∨ others line) (flag || other) ls after := by
  induction h : ls.length using Nat.strongRecOn generalizing flag other ls left after with
  | ind n ih =>
    have behind : ∀ {below : List (List Char)}, below.length < ls.length →
        ∀ {flag other : Bool} {left after : List (List Char)},
        layout.Leaves starts flag (layout.toSibling below) left →
        layout.Leaves others other left after →
        layout.Leaves (fun line => starts line ∨ others line) (flag || other)
          (layout.toSibling below) after := by
      intro below shorter flag other left after first second
      have le := layout.length_toSibling below
      exact ih _ (by omega) first second rfl
    cases first with
    | done =>
      cases second with
      | done => exact .done
      | tail => simpa using Leaves.tail
      | cut opens _ => cases opens
      | skip opens _ => cases opens
    | tail =>
      cases second with
      | keep _ later =>
        obtain rfl := later.eq_nil_iff.mp rfl
        exact .tail
      | cut opens _ => exact absurd opens more.not_opens_nil
      | skip opens _ => exact absurd opens more.not_opens_nil
    | @keep _ line ls left stays first =>
      cases second with
      | keep staysLeft later =>
        have shorter : ls.length < n := by simp [← h]
        refine .keep (fun below opens => ?_) (ih _ shorter first later rfl)
        rcases opens_or_iff.mp opens with opens | opens
        · exact stays below opens
        · obtain ⟨rest, again⟩ := opens.of_kept stays first
          exact staysLeft rest again
      | cut opens later =>
        obtain ⟨below, before, between⟩ := opens.of_left stays first
        exact .cut (opens_or_iff.mpr (.inr before))
          (behind before.length_lt between.toSibling later)
      | skip opens later =>
        obtain ⟨below, before, between⟩ := opens.of_left stays first
        rw [Bool.or_true]
        exact .skip (opens_or_iff.mpr (.inr before))
          (behind before.length_lt between.toSibling later)
    | cut opens first =>
      cases second with
      | keep _ later =>
        exact .cut (opens_or_iff.mpr (.inl opens)) (behind opens.length_lt first later)
      | cut again _ => exact absurd again more.not_opens_nil
      | skip again _ => exact absurd again more.not_opens_nil
    | skip opens first =>
      exact .skip (opens_or_iff.mpr (.inl opens)) (behind opens.length_lt first second)

/-! The lines that are left are settled, up to the number of empty lines in a row. -/

theorem squeeze_cons (line : List Char) (ls : List (List Char)) :
    squeeze (line :: ls) = squeezeStep line (squeeze ls) := rfl

theorem squeezeStep_squeezeStep (ls : List (List Char)) :
    squeezeStep [] (squeezeStep [] ls) = squeezeStep [] ls := by
  by_cases first : ls.head? = some []
  · simp [squeezeStep, first]
  · simp [squeezeStep, first]

theorem Leaves.exists_behind (headers : layout.Headers starts)
    (opens : layout.Opens starts ls below) (leaves : layout.Leaves starts true ls left) :
    ∃ rest, layout.Leaves starts true (layout.toSibling below) rest ∧
      squeezeStep [] (squeeze left) = squeezeStep [] (squeeze rest) := by
  cases leaves with
  | done => cases opens
  | tail => cases opens
  | keep stays _ => exact absurd opens (stays _)
  | cut again later =>
    obtain rfl := opens.unique headers again
    exact ⟨_, later, squeezeStep_squeezeStep _⟩
  | skip again later =>
    obtain rfl := opens.unique headers again
    exact ⟨_, later, rfl⟩

/-- Where no declaration starts, an empty line behind another one makes the only difference. -/
theorem Leaves.squeezeStep_nil_of_closed (closed : ∀ below, ¬ layout.Opens starts ls below)
    (leaves : layout.Leaves starts true ls left) : ∃ rest, layout.Leaves starts false ls rest ∧
      squeezeStep [] (squeeze left) = squeezeStep [] (squeeze rest) := by
  cases leaves with
  | done => exact ⟨[], .done, rfl⟩
  | tail => exact ⟨[], .done, rfl⟩
  | keep stays later => exact ⟨_, .keep stays later, rfl⟩
  | cut opens _ => exact absurd opens (closed _)
  | skip opens _ => exact absurd opens (closed _)

theorem Leaves.squeeze_both (headers : layout.Headers starts) (ls : List (List Char)) :
    (∀ left other, layout.Leaves starts false ls left → layout.Leaves starts false ls other →
      squeeze left = squeeze other) ∧
    ∀ left other, layout.Leaves starts true ls left → layout.Leaves starts true ls other →
      squeezeStep [] (squeeze left) = squeezeStep [] (squeeze other) := by
  induction h : ls.length using Nat.strongRecOn generalizing ls with
  | ind n ih =>
    have behind : ∀ below left other, layout.Opens starts ls below →
        layout.Leaves starts true (layout.toSibling below) left →
        layout.Leaves starts true (layout.toSibling below) other →
        squeezeStep [] (squeeze left) = squeezeStep [] (squeeze other) := by
      intro below left other opens
      have shorter := opens.length_lt
      have le := layout.length_toSibling below
      exact (ih _ (by omega) (layout.toSibling below) rfl).2 left other
    have whole : ∀ left other, layout.Leaves starts false ls left →
        layout.Leaves starts false ls other → squeeze left = squeeze other := by
      intro left other first second
      cases first with
      | done => rw [second.eq_nil_iff.mp rfl]
      | @keep _ line ls left stays first =>
        cases second with
        | keep _ second =>
          rw [squeeze_cons, squeeze_cons, (ih ls.length (by simp [← h]) ls rfl).1 _ _ first second]
        | cut opens _ => exact absurd opens (stays _)
      | cut opens first =>
        cases second with
        | done => cases opens
        | keep stays _ => exact absurd opens (stays _)
        | cut again second =>
          obtain rfl := opens.unique headers again
          exact behind _ _ _ opens first second
    refine ⟨whole, fun left other first second => ?_⟩
    by_cases opened : ∃ below, layout.Opens starts ls below
    · obtain ⟨below, opens⟩ := opened
      obtain ⟨rest, leaves, same⟩ := first.exists_behind headers opens
      obtain ⟨others, leavesOther, sameOther⟩ := second.exists_behind headers opens
      rw [same, sameOther, behind below rest others opens leaves leavesOther]
    · obtain ⟨rest, leaves, same⟩ := first.squeezeStep_nil_of_closed (not_exists.mp opened)
      obtain ⟨others, leavesOther, sameOther⟩ :=
        second.squeezeStep_nil_of_closed (not_exists.mp opened)
      rw [same, sameOther, whole rest others leaves leavesOther]

/-- What is left depends on the removals alone, but for the number of empty lines in a row. -/
theorem Leaves.squeeze_eq {other : List (List Char)} (headers : layout.Headers starts)
    (first : layout.Leaves starts false ls left) (second : layout.Leaves starts false ls other) :
    squeeze left = squeeze other :=
  (squeeze_both headers ls).1 left other first second

end Layout

end PromptPack.Prune
