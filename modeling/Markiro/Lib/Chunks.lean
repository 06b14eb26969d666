import Mathlib

/-!
# Runs under a limit

A list is cut into consecutive runs, each of at most `limit` together with a header that every run
has. Cutting as late as possible (`greedy`) loses nothing, keeps the limit when every item alone
does, and needs no more runs than any other way to cut.
-/

namespace Chunks

variable {α : Type} {w : α → ℕ} {header limit : ℕ}

/-- The header and the items are within the limit. -/
def Fits (w : α → ℕ) (header limit : ℕ) (run : List α) : Prop := header + (run.map w).sum ≤ limit

/-- Cut before an item that the run begun so far has no room for. -/
def greedy (w : α → ℕ) (header limit : ℕ) : List α → List α → List (List α)
  | run, [] => [run]
  | run, x :: rest =>
    if run ≠ [] ∧ limit < header + (run.map w).sum + w x then run :: greedy w header limit [x] rest
    else greedy w header limit (run ++ [x]) rest

theorem greedy_flatten (run l : List α) : (greedy w header limit run l).flatten = run ++ l := by
  induction l generalizing run with
  | nil => simp [greedy]
  | cons x rest ih =>
    rw [greedy]
    split
    · rw [List.flatten_cons, ih]
      rfl
    · rw [ih, List.append_assoc]
      rfl

theorem greedy_ne_nil {run l : List α} (h : run ≠ [] ∨ l ≠ []) :
    ∀ g ∈ greedy w header limit run l, g ≠ [] := by
  induction l generalizing run with
  | nil =>
    rw [greedy]
    simpa using h
  | cons x rest ih =>
    rw [greedy]
    split
    · rename_i hcut
      intro g hg
      rcases List.mem_cons.1 hg with rfl | hg
      · exact hcut.1
      · exact ih (.inl (by simp)) g hg
    · exact ih (.inl (by simp))

theorem greedy_fits {run l : List α} (hrun : run = [] ∨ Fits w header limit run)
    (hl : ∀ x ∈ l, header + w x ≤ limit) (hne : run ≠ [] ∨ l ≠ []) :
    ∀ g ∈ greedy w header limit run l, Fits w header limit g := by
  induction l generalizing run with
  | nil =>
    rw [greedy]
    intro g hg
    rw [List.mem_singleton.1 hg]
    exact hrun.resolve_left (by simpa using hne)
  | cons x rest ih =>
    have hx := hl x List.mem_cons_self
    have hrest := fun y hy => hl y (List.mem_cons_of_mem _ hy)
    rw [greedy]
    split
    · rename_i hcut
      intro g hg
      rcases List.mem_cons.1 hg with rfl | hg
      · exact hrun.resolve_left hcut.1
      · refine ih (.inr ?_) hrest (.inl (by simp)) g hg
        simpa [Fits] using hx
    · rename_i hcut
      refine ih (.inr ?_) hrest (.inl (by simp))
      rw [Fits, List.map_append, List.sum_append, List.map_singleton, List.sum_singleton]
      rcases hrun with rfl | hrun
      · simpa using hx
      · by_cases hnil : run = []
        · subst hnil
          simpa using hx
        · have : ¬limit < header + (run.map w).sum + w x := fun h => hcut ⟨hnil, h⟩
          omega

/-- Lists whose items correspond, with the same weights, are cut at the same places. -/
theorem greedy_forall₂ {β : Type} {R : α → β → Prop} {v : β → ℕ} (hw : ∀ a b, R a b → w a = v b)
    {run l : List α} {run' l' : List β} (hrun : List.Forall₂ R run run')
    (hl : List.Forall₂ R l l') :
    List.Forall₂ (List.Forall₂ R) (greedy w header limit run l) (greedy v header limit run' l') := by
  have hsum : ∀ {l : List α} {l' : List β}, List.Forall₂ R l l' → (l.map w).sum = (l'.map v).sum := by
    intro l l' h
    induction h with
    | nil => rfl
    | cons hab _ ih => rw [List.map_cons, List.map_cons, List.sum_cons, List.sum_cons, hw _ _ hab, ih]
  induction hl generalizing run run' with
  | nil => exact .cons hrun .nil
  | @cons a b l l' hab hl ih =>
    have hnil : run = [] ↔ run' = [] := by
      rw [← List.length_eq_zero_iff, ← List.length_eq_zero_iff, hrun.length_eq]
    rw [greedy, greedy, hsum hrun, hw a b hab]
    by_cases hcut : run' ≠ [] ∧ limit < header + (run'.map v).sum + v b
    · rw [if_pos hcut, if_pos ⟨fun h => hcut.1 (hnil.1 h), hcut.2⟩]
      exact .cons hrun (ih (.cons hab .nil))
    · rw [if_neg hcut, if_neg fun h => hcut ⟨fun h' => h.1 (hnil.2 h'), h.2⟩]
      exact ih (List.rel_append hrun (.cons hab .nil))

/-! ## No way to cut has fewer runs -/

/-- The list can be cut into `n` runs, the first of which already weighs `c`. -/
inductive Divides (w : α → ℕ) (header limit : ℕ) : ℕ → List α → ℕ → Prop
  | nil (c : ℕ) : Divides w header limit c [] 1
  | same {c n : ℕ} {x : α} {rest : List α} : c + w x ≤ limit →
      Divides w header limit (c + w x) rest n → Divides w header limit c (x :: rest) n
  | cut {c n : ℕ} {x : α} {rest : List α} :
      Divides w header limit (header + w x) rest n → Divides w header limit c (x :: rest) (n + 1)

theorem Divides.of_runs {runs : List (List α)} (h : ∀ g ∈ runs, Fits w header limit g)
    (run : List α)
    {c : ℕ} (hc : c + (run.map w).sum ≤ limit) :
    ∃ n ≤ runs.length + 1, Divides w header limit c (run ++ runs.flatten) n := by
  induction runs generalizing run c with
  | nil =>
    induction run generalizing c with
    | nil => exact ⟨1, le_rfl, .nil c⟩
    | cons x run ih =>
      rw [List.map_cons, List.sum_cons] at hc
      obtain ⟨n, hn, hd⟩ := ih (c := c + w x) (by omega)
      exact ⟨n, hn, .same (by omega) hd⟩
  | cons g runs ihr =>
    have hg := h g List.mem_cons_self
    have hruns := fun g hg => h g (List.mem_cons_of_mem _ hg)
    induction run generalizing c with
    | nil =>
      cases g with
      | nil =>
        obtain ⟨n, hn, hd⟩ := ihr hruns [] hc
        exact ⟨n, by rw [List.length_cons]; omega, hd⟩
      | cons x g =>
        rw [Fits, List.map_cons, List.sum_cons] at hg
        obtain ⟨n, hn, hd⟩ := ihr hruns g (c := header + w x) (by omega)
        exact ⟨n + 1, by rw [List.length_cons]; omega, .cut hd⟩
    | cons x run ih =>
      rw [List.map_cons, List.sum_cons] at hc
      obtain ⟨n, hn, hd⟩ := ih (c := c + w x) (by omega)
      exact ⟨n, hn, .same (by omega) hd⟩

/-- Cutting late stays ahead: with no more weight in its run it needs no more runs, and in any case
one more at most. -/
theorem greedy_ahead {l : List α} {c n : ℕ} (h : Divides w header limit c l n) (hc : header ≤ c)
    (run : List α) :
    (header + (run.map w).sum ≤ c → (greedy w header limit run l).length ≤ n) ∧
      (greedy w header limit run l).length ≤ n + 1 := by
  induction l generalizing c n run with
  | nil =>
    cases h
    simp [greedy]
  | cons x rest ih =>
    rw [greedy]
    -- What the other way does with the item: it weighs at least `header + w x` after it.
    obtain ⟨d, m, hd, hle, hn⟩ : ∃ d m, Divides w header limit d rest m ∧ header + w x ≤ d ∧
        (d = c + w x ∧ c + w x ≤ limit ∧ n = m ∨ n = m + 1) := by
      cases h with
      | same hfit h => exact ⟨_, _, h, by omega, .inl ⟨rfl, hfit, rfl⟩⟩
      | cut h => exact ⟨_, _, h, le_rfl, .inr rfl⟩
    have hnew := (ih hd (by omega) [x]).1 (by simpa using hle)
    have hjoin := ih hd (by omega) (run ++ [x])
    rw [List.map_append, List.sum_append, List.map_singleton, List.sum_singleton] at hjoin
    by_cases hcut : run ≠ [] ∧ limit < header + (run.map w).sum + w x
    · rw [if_pos hcut, List.length_cons]
      refine ⟨fun hrun => ?_, ?_⟩
      · have : n = m + 1 := by omega
        omega
      · omega
    · rw [if_neg hcut]
      refine ⟨fun hrun => ?_, ?_⟩
      · rcases hn with ⟨rfl, -, rfl⟩ | rfl
        · exact hjoin.1 (by omega)
        · exact hjoin.2
      · omega

/-- **No way to cut has fewer runs.** -/
theorem greedy_minimal {l : List α} {runs : List (List α)} (hl : l ≠ []) (hflat : runs.flatten = l)
    (hfits : ∀ g ∈ runs, Fits w header limit g) :
    (greedy w header limit [] l).length ≤ runs.length := by
  cases runs with
  | nil => exact absurd hflat.symm hl
  | cons g runs =>
    have hg := hfits g List.mem_cons_self
    obtain ⟨n, hn, hd⟩ := Divides.of_runs (fun g hg => hfits g (List.mem_cons_of_mem _ hg)) g
      (c := header) hg
    have hrun : g ++ runs.flatten = l := hflat
    rw [hrun] at hd
    have := (greedy_ahead hd le_rfl []).1 (by simp)
    rw [List.length_cons]
    omega

/-! ## Chunks of one size -/

theorem toChunks_flatten (n : ℕ) (l : List α) : (l.toChunks n).flatten = l := by
  have go : ∀ (xs : List α) (a : Array α) (as : Array (List α)),
      (List.toChunks.go n xs a as).flatten = as.toList.flatten ++ a.toList ++ xs := by
    intro xs
    induction xs with
    | nil =>
      intro a as
      simp [List.toChunks.go]
    | cons x xs ih =>
      intro a as
      rw [List.toChunks.go]
      split
      · simp [ih]
      · simp [ih]
  cases l with
  | nil => rfl
  | cons x xs =>
    cases n with
    | zero => simp [List.toChunks]
    | succ n => exact go xs #[x] #[]

end Chunks
