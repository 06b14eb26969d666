import Markiro.Domain.Labels
import Markiro.Labels.Numbers

/-!
# Dots and millimetres

A whole number of dots comes back from millimetres, also where the importers keep a size from being
too small, and the numbers an emitter writes are read back.
-/

namespace Markiro

open Utf16

variable {dpi : PrinterDpi}

theorem PrinterDpi.value_pos (dpi : PrinterDpi) : 0 < dpi.value := by
  cases dpi <;> simp [PrinterDpi.value]

@[simp] theorem mathRound_intCast (n : ℤ) : mathRound (n : ℚ) = n := by
  rw [mathRound, Int.floor_eq_iff]
  constructor
  · linarith
  · linarith

theorem mathRound_mono {a b : ℚ} (h : a ≤ b) : mathRound a ≤ mathRound b :=
  Int.floor_le_floor (by linarith)

theorem mathRound_eq {q : ℚ} {n : ℤ} (h1 : (n : ℚ) - 1 / 2 ≤ q) (h2 : q < (n : ℚ) + 1 / 2) :
    mathRound q = n := by
  rw [mathRound, Int.floor_eq_iff]
  constructor
  · linarith
  · linarith

theorem mmToDots_mono {a b : ℚ} (h : a ≤ b) : mmToDots a dpi ≤ mmToDots b dpi := by
  have hpos := dpi.value_pos
  refine mathRound_mono ?_
  gcongr

theorem mmToDots_nonneg {mm : ℚ} (h : 0 ≤ mm) : 0 ≤ mmToDots mm dpi := by
  have h0 : mmToDots 0 dpi = 0 := by
    rw [mmToDots, zero_mul, zero_div]
    exact mathRound_intCast 0
  rw [← h0]
  exact mmToDots_mono h

/-- **Whole dots come back from millimetres.** -/
@[simp] theorem mmToDots_dotsToMm (n : ℤ) : mmToDots (dotsToMm n dpi) dpi = n := by
  have hpos := dpi.value_pos
  have h : dotsToMm (n : ℚ) dpi * dpi.value / (254 / 10) = n := by
    rw [dotsToMm]
    field_simp
  rw [mmToDots, h, mathRound_intCast]

theorem dotsToMm_pos {q : ℚ} (h : 0 < q) : 0 < dotsToMm q dpi := by
  have hpos := dpi.value_pos
  rw [dotsToMm]
  positivity

theorem dotsToMm_nonneg {q : ℚ} (h : 0 ≤ q) : 0 ≤ dotsToMm q dpi := by
  have hpos := dpi.value_pos
  rw [dotsToMm]
  positivity

theorem mmToDots_tenth : mmToDots (1 / 10) dpi = 1 := by
  refine mathRound_eq ?_ ?_
  · cases dpi <;> norm_num [PrinterDpi.value]
  · cases dpi <;> norm_num [PrinterDpi.value]

theorem mmToDots_max_tenth {n : ℤ} (h : 1 ≤ n) :
    mmToDots (max (1 / 10) (dotsToMm n dpi)) dpi = n := by
  rcases le_total (1 / 10) (dotsToMm (n : ℚ) dpi) with hle | hle
  · rw [max_eq_right hle, mmToDots_dotsToMm]
  · have hmono : mmToDots _ dpi ≤ mmToDots _ dpi := mmToDots_mono hle
    rw [mmToDots_dotsToMm, mmToDots_tenth] at hmono
    rw [max_eq_left hle, mmToDots_tenth]
    omega

/-- The size of a font comes back from points kept between 4 and 72. -/
theorem ptToDots_pointsFromDots {pt : ℚ} (h4 : 4 ≤ pt) (h72 : pt ≤ 72) :
    ptToDots (max 4 (min 72 ((ptToDots pt dpi : ℚ) * 72 / dpi.value))) dpi = ptToDots pt dpi := by
  have hpos := dpi.value_pos
  have hmono : ∀ {a b : ℚ}, a ≤ b → ptToDots a dpi ≤ ptToDots b dpi := by
    intro a b hab
    refine mathRound_mono ?_
    gcongr
  have hback : ptToDots ((ptToDots pt dpi : ℚ) * 72 / dpi.value) dpi = ptToDots pt dpi := by
    have h : (ptToDots pt dpi : ℚ) * 72 / dpi.value / 72 * dpi.value = ptToDots pt dpi := by
      field_simp
    rw [ptToDots, h, mathRound_intCast]
  have hle : (ptToDots pt dpi : ℚ) * 72 / dpi.value ≤ 72 := by
    have hdots : ptToDots pt dpi ≤ ptToDots 72 dpi := hmono h72
    have h72' : (ptToDots 72 dpi : ℚ) = dpi.value := by
      cases dpi
      · rw [ptToDots]
        norm_num [PrinterDpi.value]
        exact_mod_cast mathRound_intCast 203
      · rw [ptToDots]
        norm_num [PrinterDpi.value]
        exact_mod_cast mathRound_intCast 300
    have hcast : (ptToDots pt dpi : ℚ) ≤ dpi.value := by
      rw [← h72']
      exact_mod_cast hdots
    rw [div_le_iff₀ hpos]
    linarith
  rw [min_eq_right hle]
  rcases le_total 4 ((ptToDots pt dpi : ℚ) * 72 / dpi.value) with hge | hge
  · rw [max_eq_right hge, hback]
  · rw [max_eq_left hge]
    have h1 := hmono hge
    have h2 := hmono h4
    rw [hback] at h1
    omega

/-! ## Lists of numbers -/

theorem numberText_intCast_units (n : ℤ) :
    numberText n ≠ [] ∧ ∀ u ∈ numberText n, isNumberUnit u = true :=
  numberText_units (by simp)

@[simp] theorem numberOf_numberText_intCast (n : ℤ) : numberOf (numberText n) = some (n : ℚ) :=
  numberOf_numberText (by simp)

theorem not_mem_numberText {u : UInt16} (hu : isNumberUnit u = false) (n : ℤ) :
    u ∉ numberText n := fun h => by
  have := (numberText_intCast_units n).2 u h
  rw [hu] at this
  cases this

@[simp] theorem ecmaTrim_numberText (n : ℤ) : ecmaTrim (numberText n) = numberText n :=
  ecmaTrim_eq_self fun u hu => isNumberUnit_not_blank ((numberText_intCast_units n).2 u hu)

end Markiro
