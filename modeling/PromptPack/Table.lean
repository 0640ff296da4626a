/-! Finite tables that remember the order of their keys. Setting a key that is present keeps its
place; a new key goes to the end. -/

namespace PromptPack

abbrev Table (κ ν : Type) := List (κ × ν)

namespace Table

variable {κ ν : Type} [DecidableEq κ]

def get? (t : Table κ ν) (key : κ) : Option ν :=
  (t.find? fun entry => entry.1 = key).map (·.2)

def has (t : Table κ ν) (key : κ) : Bool := (t.get? key).isSome

def set (t : Table κ ν) (key : κ) (value : ν) : Table κ ν :=
  match t with
  | [] => [(key, value)]
  | entry :: rest =>
    if entry.1 = key then (key, value) :: rest else entry :: set rest key value

def erase (t : Table κ ν) (key : κ) : Table κ ν := t.filter fun entry => entry.1 ≠ key

def keys (t : Table κ ν) : List κ := t.map (·.1)

def ofList (entries : List (κ × ν)) : Table κ ν :=
  entries.foldl (fun t entry => t.set entry.1 entry.2) []

@[simp] theorem get?_nil (key : κ) : get? ([] : Table κ ν) key = none := rfl

theorem get?_set_self (t : Table κ ν) (key : κ) (value : ν) :
    (t.set key value).get? key = some value := by
  induction t with
  | nil => simp [set, get?]
  | cons entry rest ih =>
    unfold set
    split
    · simp [get?]
    · rename_i other
      simpa [get?, List.find?_cons, other] using ih

theorem get?_set_of_ne (t : Table κ ν) {key other : κ} (value : ν) (different : other ≠ key) :
    (t.set key value).get? other = t.get? other := by
  induction t with
  | nil => simp [set, get?, Ne.symm different]
  | cons entry rest ih =>
    unfold set
    split
    · rename_i same
      subst same
      simp [get?, Ne.symm different]
    · by_cases found : entry.1 = other
      · simp [get?, found]
      · simpa [get?, List.find?_cons, found] using ih

theorem keys_set (t : Table κ ν) (key : κ) (value : ν) :
    (t.set key value).keys = if t.has key then t.keys else t.keys ++ [key] := by
  induction t with
  | nil => simp [set, keys, has, get?]
  | cons entry rest ih =>
    by_cases same : entry.1 = key
    · simp [set, keys, has, get?, same]
    · have kept : has (entry :: rest) key = has rest key := by
        simp [has, get?, same]
      rw [kept]
      by_cases found : has rest key <;> simp_all [set, keys]

end Table

end PromptPack
