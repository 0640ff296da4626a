/-! Rewriting a text from left to right. A step sees the characters that are left, says what to
write, and goes on somewhere beyond the character it stands at. Main statement: `scan_cons`. -/

namespace PromptPack.Text

/-- A step at `c :: cs`: the text to write and what is left of `cs`. -/
abbrev ScanStep :=
  Char → (cs : List Char) → List Char × { rest : List Char // rest.length ≤ cs.length }

def scanOnto (step : ScanStep) (written : List Char) : List Char → List Char
  | [] => written.reverse
  | c :: cs => scanOnto step ((step c cs).1.reverse ++ written) (step c cs).2.val
termination_by cs => cs.length
decreasing_by simpa using Nat.lt_succ_of_le (step c cs).2.property

def scan (step : ScanStep) (cs : List Char) : List Char := scanOnto step [] cs

theorem scanOnto_eq_append (step : ScanStep) (written cs : List Char) :
    scanOnto step written cs = written.reverse ++ scan step cs := by
  induction h : cs.length using Nat.strongRecOn generalizing written cs with
  | ind n ih =>
    cases cs with
    | nil => simp [scan, scanOnto]
    | cons c cs =>
      have shorter : (step c cs).2.val.length < n := by
        have := (step c cs).2.property
        simp only [List.length_cons] at h
        omega
      simp only [scan, scanOnto]
      rw [ih _ shorter _ _ rfl, ih _ shorter _ _ rfl]
      simp

@[simp] theorem scan_nil (step : ScanStep) : scan step [] = [] := by simp [scan, scanOnto]

theorem scan_cons (step : ScanStep) (c : Char) (cs : List Char) :
    scan step (c :: cs) = (step c cs).1 ++ scan step (step c cs).2.val := by
  conv => lhs; unfold scan scanOnto
  simp [scanOnto_eq_append]

theorem scan_sublist {step : ScanStep}
    (keeps : ∀ c cs, ((step c cs).1 ++ (step c cs).2.val).Sublist (c :: cs)) (cs : List Char) :
    (scan step cs).Sublist cs := by
  induction h : cs.length using Nat.strongRecOn generalizing cs with
  | ind n ih =>
    cases cs with
    | nil => simp
    | cons c cs =>
      have shorter : (step c cs).2.val.length < n := by
        have := (step c cs).2.property
        simp only [List.length_cons] at h
        omega
      rw [scan_cons]
      exact ((List.Sublist.refl _).append (ih _ shorter _ rfl)).trans (keeps c cs)

def copy (c : Char) (cs : List Char) : List Char × { rest : List Char // rest.length ≤ cs.length } :=
  ([c], ⟨cs, Nat.le_refl _⟩)

/-- Writes `out` and goes on at `rest`, or copies when `rest` is no shorter than the text. -/
def jump (out rest : List Char) (c : Char) (cs : List Char) :
    List Char × { rest : List Char // rest.length ≤ cs.length } :=
  if h : rest.length ≤ cs.length then (out, ⟨rest, h⟩) else copy c cs

end PromptPack.Text
