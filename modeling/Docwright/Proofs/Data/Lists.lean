import Mathlib.Data.List.Dedup

/-!
# Lists

What the theory of the programs needs to know about lists in general: how searching,
cutting and joining follow the parts of a list, and how many elements of a list are
different.
-/

namespace Docwright.Lists

variable {α β γ : Type}

theorem findSome?_cons_eq_or (f : α → Option β) (a : α) (l : List α) :
    (a :: l).findSome? f = (f a).or (l.findSome? f) := by
  rw [List.findSome?_cons]
  cases f a with
  | none => rfl
  | some b => rfl

theorem extract_append (l m : List α) (start stop : Nat) :
    (l ++ m).extract start stop =
      l.extract start stop ++ m.extract (start - l.length) (stop - l.length) := by
  have hlength : stop - start - (l.length - start) = stop - l.length - (start - l.length) := by
    omega
  rw [List.extract, List.drop_append, List.take_append, List.length_drop, hlength]

theorem intercalate_cons_eq (between first : List α) (others : List (List α)) :
    between.intercalate (first :: others) = first ++ others.flatMap (between ++ ·) := by
  induction others generalizing first with
  | nil => rw [List.intercalate_singleton, List.flatMap_nil, List.append_nil]
  | cons next others ih =>
      rw [List.intercalate_cons_cons, ih, List.flatMap_cons, List.append_assoc, List.append_assoc]

theorem flatMap_filterMap_sublist {f : α → Option β} {g : β → List γ} {h : α → List γ}
    (hf : ∀ a b, f a = some b → (g b).Sublist (h a)) (l : List α) :
    ((l.filterMap f).flatMap g).Sublist (l.flatMap h) := by
  induction l with
  | nil => simp
  | cons a rest ih =>
      rw [List.flatMap_cons, List.filterMap_cons]
      cases ha : f a with
      | none => exact ih.trans (List.sublist_append_right _ _)
      | some b => exact (hf a b ha).append ih

variable [DecidableEq α]

theorem length_dedup_eq_iff {l : List α} : l.dedup.length = l.length ↔ l.Nodup := by
  rw [← List.dedup_eq_self]
  constructor
  · intro hlength
    exact (List.dedup_sublist l).eq_of_length hlength
  · intro hsame
    rw [hsame]

end Docwright.Lists
