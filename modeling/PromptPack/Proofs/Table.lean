import Mathlib.Data.List.Basic
import PromptPack.Table

/-! Reading tables after several entries were set. Where a key is set twice the last entry counts,
so the laws read the list of entries from its end; over distinct keys that is the list itself. -/

namespace PromptPack.Table

variable {κ ν μ : Type} [DecidableEq κ]

theorem get?_cons (entry : κ × ν) (t : Table κ ν) (key : κ) :
    get? (entry :: t) key = if entry.1 = key then some entry.2 else get? t key := by
  by_cases same : entry.1 = key <;> simp [get?, same]

theorem get?_append (s t : Table κ ν) (key : κ) :
    get? (s ++ t) key = (get? s key).or (get? t key) := by
  induction s with
  | nil => simp
  | cons entry s ih =>
    rw [List.cons_append, get?_cons, get?_cons, ih]
    split <;> simp

theorem get?_set (t : Table κ ν) (key other : κ) (value : ν) :
    (t.set key value).get? other = if other = key then some value else t.get? other := by
  by_cases same : other = key
  · subst same
    rw [if_pos rfl, get?_set_self]
  · rw [if_neg same, get?_set_of_ne t value same]

theorem get?_map (f : ν → μ) (t : Table κ ν) (key : κ) :
    get? (t.map fun entry => (entry.1, f entry.2)) key = (get? t key).map f := by
  induction t with
  | nil => rfl
  | cons entry t ih =>
    rw [List.map_cons, get?_cons, get?_cons, ih]
    split <;> rfl

theorem get?_erase (t : Table κ ν) (key other : κ) :
    (t.erase key).get? other = if other = key then none else t.get? other := by
  unfold erase get?
  rw [List.find?_filter]
  by_cases same : other = key
  · simp [same]
  · rw [if_neg same]
    congr 2
    funext entry
    by_cases found : entry.1 = other <;> simp [found, same]

theorem mem_of_get? {t : Table κ ν} {key : κ} {value : ν} (h : t.get? key = some value) :
    (key, value) ∈ t := by
  induction t with
  | nil => simp at h
  | cons entry t ih =>
    rw [get?_cons] at h
    split at h
    · next same =>
      obtain rfl := Option.some.inj h
      subst same
      exact List.mem_cons_self
    · exact List.mem_cons_of_mem _ (ih h)

theorem get?_eq_none {t : Table κ ν} {key : κ} (h : key ∉ t.keys) : t.get? key = none := by
  cases found : t.get? key with
  | none => rfl
  | some value =>
    exact absurd (List.mem_map.mpr ⟨_, mem_of_get? found, rfl⟩) h

theorem get?_of_mem {t : Table κ ν} (distinct : t.keys.Nodup) {key : κ} {value : ν}
    (h : (key, value) ∈ t) : t.get? key = some value := by
  induction t with
  | nil => simp at h
  | cons entry t ih =>
    obtain ⟨absent, distinct⟩ := List.nodup_cons.mp distinct
    rw [get?_cons]
    rcases List.mem_cons.mp h with rfl | h
    · rw [if_pos rfl]
    · have other : entry.1 ≠ key := by
        rintro rfl
        exact absent (List.mem_map.mpr ⟨_, h, rfl⟩)
      rw [if_neg other]
      exact ih distinct h

theorem get?_eq_some_iff {t : Table κ ν} (distinct : t.keys.Nodup) {key : κ} {value : ν} :
    t.get? key = some value ↔ (key, value) ∈ t :=
  ⟨mem_of_get?, get?_of_mem distinct⟩

theorem has_iff {t : Table κ ν} {key : κ} : t.has key = true ↔ key ∈ t.keys := by
  constructor
  · intro h
    obtain ⟨value, found⟩ := Option.isSome_iff_exists.mp h
    exact List.mem_map.mpr ⟨_, mem_of_get? found, rfl⟩
  · intro h
    rw [has, ← Option.not_isNone, Bool.not_eq_true', ← Bool.not_eq_true, Option.isNone_iff_eq_none]
    induction t with
    | nil => simp [keys] at h
    | cons entry t ih =>
      rw [get?_cons]
      split
      · simp
      · next other =>
        rcases List.mem_cons.mp h with same | h
        · exact absurd same.symm other
        · exact ih h

theorem get?_reverse {t : Table κ ν} (distinct : t.keys.Nodup) (key : κ) :
    get? (t.reverse : Table κ ν) key = t.get? key := by
  have reversed : (keys (t.reverse : Table κ ν)).Nodup := by
    rw [keys, List.map_reverse]
    exact (List.reverse_perm _).nodup_iff.mpr distinct
  apply Option.ext
  intro value
  rw [get?_eq_some_iff reversed, get?_eq_some_iff distinct, List.mem_reverse]

theorem get?_filter {t : Table κ ν} (distinct : t.keys.Nodup) (keep : κ → ν → Bool) (key : κ) :
    get? (t.filter fun entry => keep entry.1 entry.2) key = (t.get? key).filter (keep key) := by
  have kept : (keys (t.filter fun entry => keep entry.1 entry.2)).Nodup :=
    distinct.sublist (List.filter_sublist.map Prod.fst)
  apply Option.ext
  intro value
  rw [get?_eq_some_iff kept, List.mem_filter, Option.filter_eq_some_iff, get?_eq_some_iff distinct]

theorem nodup_keys_set {t : Table κ ν} (distinct : t.keys.Nodup) (key : κ) (value : ν) :
    (t.set key value).keys.Nodup := by
  rw [keys_set]
  split
  · exact distinct
  · next absent =>
    rw [has_iff] at absent
    exact List.nodup_append.mpr ⟨distinct, by simp, by
      rintro other present _ same rfl
      exact absent (List.mem_singleton.mp same ▸ present)⟩

theorem set_eq_append {t : Table κ ν} {key : κ} (absent : key ∉ t.keys) (value : ν) :
    t.set key value = t ++ [(key, value)] := by
  induction t with
  | nil => rfl
  | cons entry t ih =>
    obtain ⟨other, absent⟩ := not_or.mp (mt List.mem_cons.mpr absent)
    rw [set, if_neg (Ne.symm other), ih absent, List.cons_append]

def setEach (t entries : Table κ ν) : Table κ ν :=
  entries.foldl (fun t entry => t.set entry.1 entry.2) t

theorem setEach_append (t entries others : Table κ ν) :
    t.setEach (entries ++ others) = (t.setEach entries).setEach others := List.foldl_append

theorem get?_setEach (t entries : Table κ ν) (key : κ) :
    (t.setEach entries).get? key = (get? (entries.reverse : Table κ ν) key).or (t.get? key) := by
  induction entries generalizing t with
  | nil => simp [setEach]
  | cons entry entries ih =>
    have first : t.setEach (entry :: entries) = (t.set entry.1 entry.2).setEach entries := rfl
    rw [first, ih, List.reverse_cons, get?_append, Option.or_assoc, get?_cons, get?_nil, get?_set]
    congr 1
    by_cases same : entry.1 = key
    · rw [if_pos same, if_pos same.symm, Option.some_or]
    · rw [if_neg same, if_neg (Ne.symm same), Option.none_or]

theorem get?_setEach_of_nodup (t : Table κ ν) {entries : Table κ ν}
    (distinct : entries.keys.Nodup) (key : κ) :
    (t.setEach entries).get? key = (entries.get? key).or (t.get? key) := by
  rw [get?_setEach, get?_reverse distinct]

theorem nodup_keys_setEach {t : Table κ ν} (distinct : t.keys.Nodup) (entries : Table κ ν) :
    (t.setEach entries).keys.Nodup := by
  induction entries generalizing t with
  | nil => exact distinct
  | cons entry entries ih => exact ih (nodup_keys_set distinct entry.1 entry.2)

theorem setEach_eq_append {t entries : Table κ ν} (distinct : entries.keys.Nodup)
    (fresh : ∀ key ∈ entries.keys, key ∉ t.keys) : t.setEach entries = t ++ entries := by
  induction entries generalizing t with
  | nil => rw [setEach, List.foldl_nil, List.append_nil]
  | cons entry entries ih =>
    obtain ⟨other, distinct⟩ := List.nodup_cons.mp distinct
    obtain ⟨new, fresh⟩ := List.forall_mem_cons.mp fresh
    have first : t.setEach (entry :: entries) = (t ++ [entry]).setEach entries := by
      rw [← set_eq_append new]
      rfl
    rw [first, ih distinct, List.append_assoc, List.singleton_append]
    intro key listed present
    rw [keys, List.map_append] at present
    rcases List.mem_append.mp present with old | same
    · exact fresh key listed old
    · exact other (List.mem_singleton.mp same ▸ listed)

theorem ofList_eq (entries : List (κ × ν)) : ofList entries = setEach [] entries := rfl

theorem nodup_keys_ofList (entries : List (κ × ν)) : (ofList entries).keys.Nodup :=
  nodup_keys_setEach (t := []) List.nodup_nil entries

theorem get?_ofList {entries : List (κ × ν)} (distinct : (entries.map Prod.fst).Nodup) (key : κ) :
    (ofList entries).get? key = get? (entries : Table κ ν) key := by
  rw [ofList_eq, get?_setEach_of_nodup [] distinct, get?_nil, Option.or_none]

theorem get?_ofList_eq (entries : List (κ × ν)) (key : κ) :
    (ofList entries).get? key = get? (entries.reverse : Table κ ν) key := by
  rw [ofList_eq, get?_setEach, get?_nil, Option.or_none]

theorem mem_of_get?_ofList {entries : List (κ × ν)} {key : κ} {value : ν}
    (h : (ofList entries).get? key = some value) : (key, value) ∈ entries := by
  rw [get?_ofList_eq] at h
  exact List.mem_reverse.mp (mem_of_get? h)

theorem has_ofList {entries : List (κ × ν)} {key : κ} :
    (ofList entries).has key = true ↔ key ∈ entries.map Prod.fst := by
  have backwards : has (entries.reverse : Table κ ν) key = true ↔ key ∈ entries.map Prod.fst := by
    rw [has_iff, keys, List.map_reverse, List.mem_reverse]
  rw [← backwards, has, get?_ofList_eq, has]

theorem get?_ofList_eq_some_iff {entries : List (κ × ν)} {key : κ}
    (single : ∀ value other, (key, value) ∈ entries → (key, other) ∈ entries → value = other)
    {value : ν} : (ofList entries).get? key = some value ↔ (key, value) ∈ entries := by
  constructor
  · exact mem_of_get?_ofList
  · intro listed
    have present : (ofList entries).has key = true :=
      has_ofList.mpr (List.mem_map.mpr ⟨_, listed, rfl⟩)
    obtain ⟨other, found⟩ := Option.isSome_iff_exists.mp present
    rw [found, single other value (mem_of_get?_ofList found) listed]

def ofKeys (f : κ → Option ν) (keys : List κ) : Table κ ν :=
  ofList (keys.filterMap fun key => (f key).map fun value => (key, value))

theorem get?_setEach_ofFunction (f : κ → Option ν) (keys : List κ) (t : Table κ ν) (key : κ) :
    (t.setEach (keys.filterMap fun key => (f key).map fun value => (key, value))).get? key =
      if key ∈ keys then (f key).or (t.get? key) else t.get? key := by
  induction keys generalizing t with
  | nil => simp [setEach]
  | cons first keys ih =>
    cases found : f first with
    | none =>
      rw [List.filterMap_cons, found, Option.map_none]
      dsimp only
      rw [ih]
      by_cases same : key = first
      · subst same
        simp [found]
      · simp [same]
    | some value =>
      rw [List.filterMap_cons, found, Option.map_some]
      dsimp only
      have set : t.setEach ((first, value) :: keys.filterMap fun key =>
          (f key).map fun value => (key, value)) =
          (t.set first value).setEach (keys.filterMap fun key =>
            (f key).map fun value => (key, value)) := rfl
      rw [set, ih, get?_set]
      by_cases same : key = first
      · subst same
        simp [found]
      · simp [same]

theorem get?_ofKeys (f : κ → Option ν) (keys : List κ) (key : κ) :
    (ofKeys f keys).get? key = if key ∈ keys then f key else none := by
  rw [ofKeys, ofList_eq, get?_setEach_ofFunction, get?_nil, Option.or_none]

/-- Tables on the same keys in the same order that read alike are the same. -/
theorem ofKeys_congr {f g : κ → Option ν} {keys : List κ}
    (same : ∀ key, (ofKeys f keys).get? key = (ofKeys g keys).get? key) :
    ofKeys f keys = ofKeys g keys := by
  unfold ofKeys
  congr 1
  apply List.filterMap_congr
  intro key listed
  have read := same key
  rw [get?_ofKeys, get?_ofKeys, if_pos listed, if_pos listed] at read
  rw [read]

end PromptPack.Table
