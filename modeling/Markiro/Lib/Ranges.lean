import Mathlib

/-!
# Ranges handed out past a counter

Ranges of numbers are handed out under keys, each key with a counter of the next free number. A
range is taken from the counter on or brought back from elsewhere, where it meets no other; the
counter only moves forward. Then no two ranges of a key share a number (`Handed`).
-/

namespace Ranges

variable {κ : Type}

structure Range (κ : Type) where
  key : κ
  lo : ℕ
  hi : ℕ

/-- Two ranges share no number. -/
def Apart (x y : Range κ) : Prop := x.key = y.key → x.hi < y.lo ∨ y.hi < x.lo

theorem Apart.symm {x y : Range κ} (h : Apart x y) : Apart y x := fun hkey => (h hkey.symm).symm

/-- The ranges of each key lie below its counter, which stays within the key's numbers, and no two of
them share a number. -/
structure Handed (cap next : κ → ℕ) (ranges : List (Range κ)) : Prop where
  proper : ∀ r ∈ ranges, r.lo ≤ r.hi
  below : ∀ r ∈ ranges, r.hi < next r.key
  bounded : ∀ key, next key ≤ cap key
  apart : ranges.Pairwise Apart

variable {cap next : κ → ℕ} {ranges : List (Range κ)} {r : Range κ}

theorem handed_nil (h : ∀ key, next key ≤ cap key) : Handed cap next [] :=
  ⟨by simp, by simp, h, .nil⟩

theorem Handed.raise {next' : κ → ℕ} (h : Handed cap next ranges)
    (hle : ∀ key, next key ≤ next' key) (hcap : ∀ key, next' key ≤ cap key) :
    Handed cap next' ranges :=
  ⟨h.proper, fun r hr => Nat.lt_of_lt_of_le (h.below r hr) (hle r.key), hcap, h.apart⟩

/-- One more range, which meets no other and lies below its counter. -/
theorem Handed.add (h : Handed cap next ranges) (hp : r.lo ≤ r.hi) (hlt : r.hi < next r.key)
    (hapart : ∀ x ∈ ranges, Apart x r) : Handed cap next (ranges ++ [r]) where
  proper := by
    intro x hx
    rcases List.mem_append.1 hx with hx | hx
    · exact h.proper x hx
    · rwa [List.mem_singleton.1 hx]
  below := by
    intro x hx
    rcases List.mem_append.1 hx with hx | hx
    · exact h.below x hx
    · rwa [List.mem_singleton.1 hx]
  bounded := h.bounded
  apart := by
    rw [List.pairwise_append]
    refine ⟨h.apart, List.pairwise_singleton _ _, ?_⟩
    intro x hx y hy
    rw [List.mem_singleton.1 hy]
    exact hapart x hx

theorem Handed.past (h : Handed cap next ranges) (hlo : next r.key ≤ r.lo) :
    ∀ x ∈ ranges, Apart x r := by
  intro x hx hkey
  have hbelow := h.below x hx
  rw [hkey] at hbelow
  exact .inl (Nat.lt_of_lt_of_le hbelow hlo)

end Ranges
