import PromptPack.Trace

/-! The laws of `Traced`. The values of a traced traversal are the values of its parts. -/

namespace PromptPack.Traced

instance : LawfulMonad Traced := LawfulMonad.mk' Traced
  (by
    intro α x
    change Traced.mk x.value (x.log ++ []) = x
    rw [List.append_nil])
  (by
    intro α β a f
    change Traced.mk (f a).value ([] ++ (f a).log) = f a
    rw [List.nil_append])
  (by
    intro α β γ x f g
    change Traced.mk _ (x.log ++ (f x.value).log ++ _) = Traced.mk _ (x.log ++ (_ ++ _))
    rw [List.append_assoc]
    rfl)

theorem value_mapM {α β : Type} (f : α → Traced β) (xs : List α) :
    (xs.mapM f).value = xs.map fun x => (f x).value := by
  induction xs with
  | nil => rfl
  | cons x xs ih =>
    rw [List.mapM_cons, value_bind, value_bind, value_pure, ih, List.map_cons]

theorem value_foldlM {α β : Type} (f : β → α → Traced β) (xs : List α) (b : β) :
    (xs.foldlM f b).value = xs.foldl (fun b x => (f b x).value) b := by
  induction xs generalizing b with
  | nil => rfl
  | cons x xs ih => rw [List.foldlM_cons, value_bind, ih, List.foldl_cons]

end PromptPack.Traced
