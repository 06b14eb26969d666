import Mathlib

/-!
# Merging two lists

The merge of a list with another one, where `first x y` says that `x` goes before `y`. Parts that
come one after the other merge one after the other (`merge_append`).
-/

namespace Merge

variable {α β : Type} {first : α → β → Bool} {xs xs' : List α} {ys ys' : List β}

/-- At each place the head of the first list goes where it is `first`, else that of the second. -/
def merge (first : α → β → Bool) : List α → List β → List (α ⊕ β)
  | [], ys => ys.map .inr
  | x :: xs, [] => (x :: xs).map .inl
  | x :: xs, y :: ys =>
    if first x y then .inl x :: merge first xs (y :: ys) else .inr y :: merge first (x :: xs) ys

@[simp] theorem merge_nil_left : merge first [] ys = ys.map .inr := by
  rw [merge]

@[simp] theorem merge_nil_right : merge first xs [] = xs.map .inl := by
  cases xs with
  | nil => rw [merge, List.map_nil, List.map_nil]
  | cons x xs => rw [merge]

theorem merge_of_first (h : ∀ x ∈ xs, ∀ y ∈ ys, first x y = true) :
    merge first (xs ++ xs') ys = xs.map .inl ++ merge first xs' ys := by
  induction xs with
  | nil => rfl
  | cons x xs ih =>
    have ih := ih fun a ha => h a (List.mem_cons_of_mem _ ha)
    cases ys with
    | nil => simp
    | cons y ys =>
      rw [List.cons_append, merge, if_pos (h x List.mem_cons_self y List.mem_cons_self), ih]
      rfl

theorem merge_of_not_first (h : ∀ x ∈ xs, ∀ y ∈ ys, first x y = false) :
    merge first xs (ys ++ ys') = ys.map .inr ++ merge first xs ys' := by
  induction ys with
  | nil => rfl
  | cons y ys ih =>
    have ih := ih fun a ha b hb => h a ha b (List.mem_cons_of_mem _ hb)
    cases xs with
    | nil => simp
    | cons x xs =>
      rw [List.cons_append, merge, h x List.mem_cons_self y List.mem_cons_self, ih]
      rfl

theorem merge_append (hl : ∀ x ∈ xs', ∀ y ∈ ys, first x y = false)
    (hr : ∀ x ∈ xs, ∀ y ∈ ys', first x y = true) :
    merge first (xs ++ xs') (ys ++ ys') = merge first xs ys ++ merge first xs' ys' := by
  induction xs, ys using merge.induct first with
  | case1 ys => rw [List.nil_append, merge_of_not_first hl, merge_nil_left]
  | case2 x xs =>
    rw [List.nil_append, merge_of_first hr, merge_nil_right]
  | case3 x xs y ys hxy ih =>
    rw [List.cons_append, List.cons_append, merge, if_pos hxy, ← List.cons_append,
      ih hl fun a ha => hr a (List.mem_cons_of_mem _ ha), merge, if_pos hxy, List.cons_append]
  | case4 x xs y ys hxy ih =>
    rw [List.cons_append, List.cons_append, merge, if_neg hxy, ← List.cons_append,
      ih (fun a ha b hb => hl a ha b (List.mem_cons_of_mem _ hb)) hr, merge, if_neg hxy,
      List.cons_append]

end Merge
