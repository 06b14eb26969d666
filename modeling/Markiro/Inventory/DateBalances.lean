import Markiro.Inventory.FinalBoxes

/-!
# The balances of an inventory by production date

The table of counts that the generator keeps is the count of the verified codes and of the final
boxes of each date (`Tallied`). From that come the sums and that the order of the source's arrays
does not matter.
-/

namespace Markiro.InventoryDocuments

open Utf16

/-! ## The table of counts -/

section Counts

variable {counts : List (Units × DateCount)} {date : Units} {f : DateCount → DateCount}

theorem mem_countAt_keys {d : Units} : d ∈ (countAt f date counts).map Prod.fst ↔
    d ∈ counts.map Prod.fst ∨ d = date := by
  induction counts with
  | nil => simp [countAt]
  | cons entry counts ih =>
    obtain ⟨d', c⟩ := entry
    rw [countAt]
    by_cases h : d' = date
    · rw [if_pos h, List.map_cons, List.map_cons, List.mem_cons]
      constructor
      · exact .inl
      · rintro (hd | rfl)
        · exact hd
        · exact .inl h.symm
    · rw [if_neg h, List.map_cons, List.mem_cons, ih, List.map_cons, List.mem_cons, or_assoc]

theorem nodup_countAt (h : (counts.map Prod.fst).Nodup) :
    ((countAt f date counts).map Prod.fst).Nodup := by
  induction counts with
  | nil => exact List.nodup_singleton _
  | cons entry counts ih =>
    obtain ⟨d, c⟩ := entry
    rw [List.map_cons, List.nodup_cons] at h
    rw [countAt]
    by_cases hd : d = date
    · rw [if_pos hd, List.map_cons, List.nodup_cons]
      exact h
    · rw [if_neg hd, List.map_cons, List.nodup_cons, mem_countAt_keys]
      exact ⟨fun hmem => hmem.elim h.1 hd, ih h.2⟩

/-- The entry of the date changes, the others stay. -/
theorem mem_countAt (h : (counts.map Prod.fst).Nodup) {d : Units} {c : DateCount} :
    (d, c) ∈ countAt f date counts ↔
      if d = date then c = f (((counts.find? (·.1 == date)).map Prod.snd).getD .zero)
      else (d, c) ∈ counts := by
  induction counts with
  | nil =>
    by_cases hd : d = date
    · simp [countAt, hd]
    · simp [countAt, hd]
  | cons entry counts ih =>
    obtain ⟨d', c'⟩ := entry
    rw [List.map_cons, List.nodup_cons] at h
    have ih := ih h.2
    rw [countAt]
    by_cases hd' : d' = date
    · subst hd'
      rw [if_pos rfl, List.mem_cons]
      by_cases hd : d = d'
      · subst hd
        have hno : (d, c) ∉ counts := fun hmem => h.1 (List.mem_map.2 ⟨_, hmem, rfl⟩)
        simp [hno]
      · simp [hd]
    · rw [if_neg hd', List.mem_cons, ih]
      by_cases hd : d = date
      · subst hd
        have hne : d ≠ d' := fun he => hd' he.symm
        simp [hne, hd']
      · simp [hd]

theorem sum_countAt {g : DateCount → ℕ} {k : ℕ} (hf : ∀ c, g (f c) = g c + k)
    (hzero : g .zero = 0) :
    ((countAt f date counts).map fun entry => g entry.2).sum =
      (counts.map fun entry => g entry.2).sum + k := by
  induction counts with
  | nil => simp [countAt, hf, hzero]
  | cons entry counts ih =>
    obtain ⟨d, c⟩ := entry
    rw [countAt]
    by_cases hd : d = date
    · rw [if_pos hd, List.map_cons, List.map_cons, List.sum_cons, List.sum_cons, hf]
      exact Nat.add_right_comm _ _ _
    · rw [if_neg hd, List.map_cons, List.map_cons, List.sum_cons, List.sum_cons, ih]
      omega

/-- The table counts these dates of codes and of boxes. -/
structure Tallied (codes boxes : List Units) (counts : List (Units × DateCount)) : Prop where
  nodup : (counts.map Prod.fst).Nodup
  mem : ∀ d c, (d, c) ∈ counts ↔ (d ∈ codes ∨ d ∈ boxes) ∧ c = ⟨codes.count d, boxes.count d⟩
  codeSum : (counts.map fun entry => entry.2.codeCount).sum = codes.length
  boxSum : (counts.map fun entry => entry.2.boxCount).sum = boxes.length

theorem Tallied.nil : Tallied [] [] [] where
  nodup := List.nodup_nil
  mem := by simp
  codeSum := rfl
  boxSum := rfl

variable {codes boxes : List Units}

theorem Tallied.find (h : Tallied codes boxes counts) (d : Units) :
    ((counts.find? (·.1 == d)).map Prod.snd).getD .zero = ⟨codes.count d, boxes.count d⟩ := by
  cases hf : counts.find? (·.1 == d) with
  | some entry =>
    have hkey : entry.1 = d := by simpa using List.find?_some hf
    have hmem := ((h.mem entry.1 entry.2).1 (List.mem_of_find?_eq_some hf)).2
    rw [hkey] at hmem
    exact hmem
  | none =>
    have hno : ¬ (d ∈ codes ∨ d ∈ boxes) := by
      intro hd
      have hmem := (h.mem d ⟨codes.count d, boxes.count d⟩).2 ⟨hd, rfl⟩
      exact absurd (List.find?_eq_none.1 hf _ hmem) (by simp)
    rw [not_or] at hno
    rw [List.count_eq_zero_of_not_mem hno.1, List.count_eq_zero_of_not_mem hno.2]
    rfl

theorem Tallied.addCode (h : Tallied codes boxes counts) (date : Units) :
    Tallied (date :: codes) boxes (countAt .addCode date counts) where
  nodup := nodup_countAt h.nodup
  mem d c := by
    rw [mem_countAt h.nodup, h.find, DateCount.addCode]
    by_cases hd : d = date
    · subst hd
      simp
    · rw [if_neg hd, h.mem, List.mem_cons, or_iff_right hd, List.count_cons_of_ne (Ne.symm hd)]
  codeSum := by
    rw [@sum_countAt counts date .addCode DateCount.codeCount 1 (fun _ => rfl) rfl, h.codeSum,
      List.length_cons]
  boxSum := by
    rw [@sum_countAt counts date .addCode DateCount.boxCount 0 (fun _ => rfl) rfl, h.boxSum,
      Nat.add_zero]

theorem Tallied.addBox (h : Tallied codes boxes counts) (date : Units) :
    Tallied codes (date :: boxes) (countAt .addBox date counts) where
  nodup := nodup_countAt h.nodup
  mem d c := by
    rw [mem_countAt h.nodup, h.find, DateCount.addBox]
    by_cases hd : d = date
    · subst hd
      simp
    · rw [if_neg hd, h.mem, List.mem_cons, or_iff_right hd, List.count_cons_of_ne (Ne.symm hd)]
  codeSum := by
    rw [@sum_countAt counts date .addBox DateCount.codeCount 0 (fun _ => rfl) rfl, h.codeSum,
      Nat.add_zero]
  boxSum := by
    rw [@sum_countAt counts date .addBox DateCount.boxCount 1 (fun _ => rfl) rfl, h.boxSum,
      List.length_cons]

end Counts

/-! ## The balances of a source -/

section Source

variable {source source' : Source}

def VerifiedCode.dated (code : VerifiedCode) : Bool := code.observedProductionDate.any isCivilDate

/-- The dates of the verified codes that are not protected. -/
def codeDates (source : Source) : List Units :=
  (verifiedEntries source).filterMap (·.observedProductionDate)

def boxDates (source : Source) : List Units :=
  (selectEligibleInventoryFinalBoxes source).map (·.productionDate)

theorem countCode_eq (counts : List (Units × DateCount)) (code : VerifiedCode) :
    countCode counts code = if code.dated then
      .ok (code.observedProductionDate.elim counts fun date => countAt .addCode date counts)
    else .error (.document .verifiedProductionDateMissing) := by
  unfold countCode VerifiedCode.dated
  cases code.observedProductionDate with
  | none => rfl
  | some date => cases hdate : isCivilDate date <;> simp [hdate]

variable {counts : List (Units × DateCount)} {codes boxes : List Units}

/-- The loop over the codes throws when one has no date, else it counts them. -/
theorem foldlM_countCode (entries : List VerifiedCode) (h : Tallied codes boxes counts) :
    (entries.all VerifiedCode.dated = true ∧ ∃ counts',
        entries.foldlM countCode counts = .ok counts' ∧
        Tallied ((entries.filterMap (·.observedProductionDate)).reverse ++ codes) boxes counts') ∨
      (entries.all VerifiedCode.dated = false ∧ entries.foldlM countCode counts =
        .error (.document .verifiedProductionDateMissing)) := by
  induction entries generalizing codes counts with
  | nil => exact .inl ⟨rfl, counts, rfl, h⟩
  | cons code entries ih =>
    rw [List.foldlM_cons, countCode_eq, List.all_cons]
    cases hdated : code.dated with
    | false => exact .inr ⟨rfl, rfl⟩
    | true =>
      obtain ⟨date, hdate⟩ : ∃ date, code.observedProductionDate = some date := by
        unfold VerifiedCode.dated at hdated
        cases ho : code.observedProductionDate with
        | none =>
          rw [ho] at hdated
          cases hdated
        | some date => exact ⟨date, rfl⟩
      rw [hdate, List.filterMap_cons_some hdate, List.reverse_cons, List.append_assoc]
      exact ih (h.addCode date)

theorem foldl_addBox (dates : List FinalBox) (h : Tallied codes boxes counts) :
    Tallied codes ((dates.map (·.productionDate)).reverse ++ boxes)
      (dates.foldl (fun counts box => countAt .addBox box.productionDate counts) counts) := by
  induction dates generalizing boxes counts with
  | nil => exact h
  | cons box dates ih =>
    rw [List.foldl_cons, List.map_cons, List.reverse_cons, List.append_assoc]
    exact ih (h.addBox box.productionDate)

theorem Tallied.congr {codes boxes codes' boxes' : List Units}
    (h : Tallied codes boxes counts) (hcodes : codes.Perm codes') (hboxes : boxes.Perm boxes') :
    Tallied codes' boxes' counts where
  nodup := h.nodup
  mem d c := by rw [h.mem, hcodes.mem_iff, hboxes.mem_iff, hcodes.count_eq, hboxes.count_eq]
  codeSum := h.codeSum.trans hcodes.length_eq
  boxSum := h.boxSum.trans hboxes.length_eq

/-- **The balances count the codes and the final boxes of each date**, or a code has no date. -/
theorem balances_spec (source : Source) :
    ((verifiedEntries source).all VerifiedCode.dated = true ∧ ∃ counts,
        balances source = .ok counts ∧ Tallied (codeDates source) (boxDates source) counts ∧
        counts.Pairwise fun a b => notAfter (textKey a.1) (textKey b.1) = true) ∨
      ((verifiedEntries source).all VerifiedCode.dated = false ∧
        balances source = .error (.document .verifiedProductionDateMissing)) := by
  unfold balances
  rcases foldlM_countCode (verifiedEntries source) .nil with ⟨hall, counts, hok, h⟩ | ⟨hall, herror⟩
  · refine .inl ⟨hall, _, by rw [hok]; rfl, ?_, pairwise_sortByKey _⟩
    have hcodes : (((verifiedEntries source).filterMap VerifiedCode.observedProductionDate).reverse ++
        []).Perm (codeDates source) := by
      rw [List.append_nil]
      exact List.reverse_perm _
    have hboxes : (((selectEligibleInventoryFinalBoxes source).map FinalBox.productionDate).reverse ++
        []).Perm (boxDates source) := by
      rw [List.append_nil]
      exact List.reverse_perm _
    have htable := (foldl_addBox (selectEligibleInventoryFinalBoxes source) h).congr hcodes hboxes
    have hsort := perm_sortByKey (fun entry : Units × DateCount => textKey entry.1)
      (l := (selectEligibleInventoryFinalBoxes source).foldl
        (fun counts box => countAt .addBox box.productionDate counts) counts)
    exact ⟨(hsort.map _).nodup_iff.2 htable.nodup, fun d c => by rw [hsort.mem_iff, htable.mem],
      ((hsort.map _).sum_eq).trans htable.codeSum, ((hsort.map _).sum_eq).trans htable.boxSum⟩
  · exact .inr ⟨hall, by rw [herror]; rfl⟩

theorem Tallied.eq {counts counts' : List (Units × DateCount)}
    (h : Tallied codes boxes counts) (h' : Tallied codes boxes counts')
    (hsorted : counts.Pairwise fun a b => notAfter (textKey a.1) (textKey b.1) = true)
    (hsorted' : counts'.Pairwise fun a b => notAfter (textKey a.1) (textKey b.1) = true) :
    counts = counts' := by
  refine List.Perm.eq_of_pairwise (fun a b ha hb hab hba => ?_) hsorted hsorted' ?_
  · have hkey : a.1 = b.1 := textKey_injective (notAfter_antisymm hab hba)
    have hcount := ((h.mem a.1 a.2).1 ha).2
    have hcount' := ((h'.mem b.1 b.2).1 hb).2
    rw [hkey, ← hcount'] at hcount
    exact Prod.ext hkey hcount
  · refine (List.perm_ext_iff_of_nodup h.nodup.of_map h'.nodup.of_map).2 fun entry => ?_
    rw [h.mem entry.1 entry.2, h'.mem entry.1 entry.2]

end Source

end Markiro.InventoryDocuments
