/-! Finding a text inside another, from the left. Each search comes with the equation that says
what it found: the whole is the part before, the key, and the part after. -/

namespace PromptPack.Text

def after? : List Char → List Char → Option (List Char)
  | [], cs => some cs
  | _ :: _, [] => none
  | k :: ks, c :: cs => if k = c then after? ks cs else none

theorem after?_eq_some {key cs rest : List Char} : after? key cs = some rest ↔ cs = key ++ rest := by
  induction key generalizing cs with
  | nil => simp [after?]
  | cons k ks ih =>
    cases cs with
    | nil => simp [after?]
    | cons c cs =>
      by_cases h : k = c
      · simp [after?, h, ih]
      · simp [after?, h, Ne.symm h]

theorem isPrefix_of_after? {key cs rest : List Char} (found : after? key cs = some rest) :
    key <+: cs := ⟨rest, (after?_eq_some.1 found).symm⟩

theorem not_isPrefix_of_after? {key cs : List Char} (missing : after? key cs = none) :
    ¬ key <+: cs := by
  rintro ⟨rest, joined⟩
  rw [after?_eq_some.2 joined.symm] at missing
  cases missing

def startsWith (key cs : List Char) : Bool := (after? key cs).isSome

def breakOnto? (key passed : List Char) : List Char → Option (List Char × List Char)
  | [] => if key.isEmpty then some (passed.reverse, []) else none
  | c :: cs =>
    match after? key (c :: cs) with
    | some rest => some (passed.reverse, rest)
    | none => breakOnto? key (c :: passed) cs

def breakOn? (key cs : List Char) : Option (List Char × List Char) := breakOnto? key [] cs

theorem breakOnto?_eq_some {key passed cs before rest : List Char}
    (h : breakOnto? key passed cs = some (before, rest)) :
    passed.reverse ++ cs = before ++ key ++ rest := by
  induction cs generalizing passed with
  | nil =>
    by_cases hk : key = [] <;> simp_all [breakOnto?]
  | cons c cs ih =>
    unfold breakOnto? at h
    split at h
    · rename_i found hfound
      obtain ⟨rfl, rfl⟩ := by simpa using h
      rw [after?_eq_some.1 hfound]
      simp
    · simpa using ih h

theorem breakOnto?_append {key : List Char} (nonempty : key ≠ []) (passed cs : List Char) :
    breakOnto? key passed (key ++ cs) = some (passed.reverse, cs) := by
  cases key with
  | nil => exact absurd rfl nonempty
  | cons k ks =>
    have found : after? (k :: ks) (k :: (ks ++ cs)) = some cs := after?_eq_some.2 rfl
    rw [List.cons_append, breakOnto?, found]

theorem breakOnto?_cons {key cs : List Char} {c : Char} (absent : ¬ key <+: c :: cs)
    (passed : List Char) : breakOnto? key passed (c :: cs) = breakOnto? key (c :: passed) cs := by
  rw [breakOnto?]
  split
  · next found => exact absurd (isPrefix_of_after? found) absent
  · rfl

theorem breakOn?_eq_some {key cs before rest : List Char}
    (h : breakOn? key cs = some (before, rest)) : cs = before ++ key ++ rest := by
  simpa using breakOnto?_eq_some h

theorem length_of_breakOn? {key cs before rest : List Char}
    (h : breakOn? key cs = some (before, rest)) : rest.length ≤ cs.length := by
  rw [breakOn?_eq_some h]
  simp only [List.length_append]
  omega

def contains (key cs : List Char) : Bool := (breakOn? key cs).isSome

/-- The characters before the last occurrence of `c`, and those from it on. -/
def splitAtLast? (c : Char) (cs : List Char) : Option (List Char × List Char) :=
  let tail := cs.reverse.takeWhile (· != c)
  match cs.reverse.dropWhile (· != c) with
  | [] => none
  | _ :: front => some (front.reverse, c :: tail.reverse)

end PromptPack.Text
