import Mathlib

/-!
# The earliest arrival wins

Arrivals that each carry a time contend for one place. The first to arrive holds it; a later arrival
with an earlier time takes it, and of each two the other has lost. Whatever the order of arrival, the
holder is the one with the least time and everyone else lost once (`after_perm`, `after_least`), so
the outcome depends on who arrived only (`holder_of_perm`).
-/

/-- Who holds the place, and who lost it, in the order of their losses. -/
structure Contest (α : Type) where
  holder : Option α
  losers : List α

namespace Contest

variable {α β γ : Type} [LinearOrder γ] {time : α → γ}

/-- One more arrival. The holder keeps the place at an equal time. -/
def arrive (time : α → γ) (c : Contest α) (x : α) : Contest α :=
  match c.holder with
  | none => ⟨some x, c.losers⟩
  | some w => if time w ≤ time x then ⟨some w, c.losers ++ [x]⟩ else ⟨some x, c.losers ++ [w]⟩

def after (time : α → γ) (xs : List α) : Contest α := xs.foldl (arrive time) ⟨none, []⟩

@[simp] theorem after_nil : after time [] = ⟨none, []⟩ := rfl

@[simp] theorem after_concat (xs : List α) (x : α) :
    after time (xs ++ [x]) = arrive time (after time xs) x := by
  simp [after]

/-- Everyone who arrived holds the place or lost it, once. -/
theorem after_perm (time : α → γ) (xs : List α) :
    ((after time xs).holder.toList ++ (after time xs).losers).Perm xs := by
  induction xs using List.reverseRecOn with
  | nil => exact .refl _
  | append_singleton xs x ih =>
    rw [after_concat, arrive]
    cases hw : (after time xs).holder with
    | none =>
      simp only [hw, Option.toList_none, List.nil_append] at ih
      exact ((ih.cons x).trans (List.perm_append_singleton x xs).symm)
    | some w =>
      simp only [hw, Option.toList_some, List.singleton_append] at ih
      by_cases hle : time w ≤ time x
      · simp only [hle, if_true, Option.toList_some, List.singleton_append]
        exact ih.append_right [x]
      · simp only [hle, if_false, Option.toList_some, List.singleton_append]
        refine List.Perm.trans ?_ (List.perm_append_singleton x xs).symm
        exact ((List.perm_append_singleton w _).trans ih).cons x

theorem holder_eq_none {xs : List α} : (after time xs).holder = none ↔ xs = [] := by
  induction xs using List.reverseRecOn with
  | nil => simp
  | append_singleton xs x =>
    rw [after_concat, arrive]
    split
    · simp
    · split <;> simp

theorem after_least {xs : List α} {w : α} (h : (after time xs).holder = some w) :
    ∀ x ∈ xs, time w ≤ time x := by
  induction xs using List.reverseRecOn generalizing w with
  | nil => simp
  | append_singleton xs x ih =>
    rw [after_concat, arrive] at h
    cases hv : (after time xs).holder with
    | none =>
      simp only [hv, Option.some.injEq] at h
      simp [holder_eq_none.1 hv, h]
    | some v =>
      simp only [hv] at h
      by_cases hle : time v ≤ time x
      · rw [if_pos hle] at h
        obtain rfl := Option.some.inj h
        intro y hy
        rcases List.mem_append.1 hy with hy | hy
        · exact ih hv y hy
        · rw [List.mem_singleton.1 hy]
          exact hle
      · rw [if_neg hle] at h
        obtain rfl := Option.some.inj h
        intro y hy
        rcases List.mem_append.1 hy with hy | hy
        · exact le_trans (le_of_lt (not_le.1 hle)) (ih hv y hy)
        · rw [List.mem_singleton.1 hy]

theorem holder_mem {xs : List α} {w : α} (h : (after time xs).holder = some w) : w ∈ xs := by
  refine (after_perm time xs).subset ?_
  simp [h]

theorem after_lt {xs : List α} {w x : α} (h : (after time xs).holder = some w)
    (hd : (xs.map time).Nodup) (hx : x ∈ xs) (hne : x ≠ w) : time w < time x := by
  refine lt_of_le_of_ne (after_least h x hx) fun heq => hne ?_
  exact List.inj_on_of_nodup_map hd hx (holder_mem h) heq.symm

/-- **The order of arrival does not matter.** -/
theorem holder_of_perm (time : α → γ) {xs ys : List α} (hp : xs.Perm ys)
    (hd : (xs.map time).Nodup) :
    (after time xs).holder = (after time ys).holder := by
  cases hx : (after time xs).holder with
  | none =>
    rw [holder_eq_none.1 hx] at hp
    rw [hp.symm.eq_nil]
    rfl
  | some w =>
    cases hy : (after time ys).holder with
    | none =>
      rw [holder_eq_none.1 hy] at hp
      rw [hp.eq_nil] at hx
      cases hx
    | some v =>
      have hle : time w ≤ time v := after_least hx v (hp.mem_iff.2 (holder_mem hy))
      have hge : time v ≤ time w := after_least hy w (hp.mem_iff.1 (holder_mem hx))
      rw [List.inj_on_of_nodup_map hd (holder_mem hx) (hp.mem_iff.2 (holder_mem hy))
        (le_antisymm hle hge)]

theorem losers_of_perm (time : α → γ) {xs ys : List α} (hp : xs.Perm ys)
    (hd : (xs.map time).Nodup) :
    (after time xs).losers.Perm (after time ys).losers := by
  have h := ((after_perm time xs).trans hp).trans (after_perm time ys).symm
  rw [holder_of_perm time hp hd] at h
  exact (List.perm_append_left_iff _).1 h

theorem after_map {time' : β → γ} {f : α → β} (hf : ∀ x, time' (f x) = time x)
    (xs : List α) :
    after time' (xs.map f) = ⟨(after time xs).holder.map f, (after time xs).losers.map f⟩ := by
  induction xs using List.reverseRecOn with
  | nil => rfl
  | append_singleton xs x ih =>
    rw [List.map_append, List.map_singleton, after_concat, ih, after_concat, arrive, arrive]
    cases hw : (after time xs).holder with
    | none => rfl
    | some w =>
      simp only [Option.map_some, hf]
      by_cases hle : time w ≤ time x
      · simp [hle]
      · simp [hle]

end Contest
