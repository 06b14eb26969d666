import Markiro.Domain.InventoryDocuments
import Markiro.Export.Splitting

/-!
# The final boxes of an inventory

What `selectEligibleInventoryFinalBoxes` selects (`select_sound`), and that it reads its source as
sets: the boxes written to the files do not depend on the order of the source's arrays
(`map_outline_select`).
-/

namespace Markiro.InventoryDocuments

open Utf16

/-! ## Clean sources -/

structure Clean (source : Source) : Prop where
  distinct : (source.verified.map (·.codeHash)).Nodup
  verified : ∀ code ∈ source.verified, CanonicalKm code.canonicalRaw
  writeOff : ∀ code ∈ source.writeOffCandidates, CanonicalKm code.canonicalRaw

section Texts

variable {s t : Units}

theorem textKey_injective : Function.Injective textKey :=
  List.map_injective_iff.2 fun _ _ => UInt16.toNat_inj.1

/-- A code without a fault has its surrogates in pairs. -/
theorem paired_of_unitFault (h : unitFault s = none) : paired s = true := by
  induction s using unitFault.induct with
  | case1 => rfl
  | case2 u hu => simp [unitFault, hu] at h
  | case3 u hu v rest hv ih =>
    rw [unitFault] at h
    simp only [hu, hv, if_true] at h
    rw [paired]
    simp [hu, hv, ih h]
  | case4 u hu v rest hv =>
    rw [unitFault] at h
    simp [hu, hv] at h
  | case5 u rest hu hlow =>
    rw [unitFault.eq_def] at h
    simp [hu, hlow] at h
  | case6 u rest hu hlow hc =>
    rw [unitFault.eq_def] at h
    simp [hu, hlow, hc] at h
  | case7 u rest hu hlow hc ih =>
    rw [unitFault.eq_def] at h
    simp only [hu, hlow, hc, Bool.false_eq_true, if_false] at h
    rw [paired.eq_def]
    simp [hu, hlow, ih h]

/-- **The bytes tell canonical codes apart.** -/
theorem byteKey_inj (hs : CanonicalKm s) (ht : CanonicalKm t) (h : byteKey s = byteKey t) : s = t :=
  utf8Bytes_inj (paired_of_unitFault hs.unitFault) (paired_of_unitFault ht.unitFault)
    (List.map_injective_iff.2 (fun _ _ => UInt8.toNat_inj.1) h)

end Texts

/-! ## What is selected -/

section Select

variable {source : Source} {box : NewBox} {b : FinalBox} {c : FinalBoxCode} {h date : Units}

theorem isProtected_iff : isProtected source h = true ↔ ∃ p ∈ source.protected, p.codeHash = h := by
  simp [isProtected]

theorem verifiedByHash_eq_some (hd : (source.verified.map (·.codeHash)).Nodup) {v : VerifiedCode} :
    verifiedByHash source h = some v ↔ v ∈ source.verified ∧ v.codeHash = h := by
  rw [verifiedByHash]
  constructor
  · intro hv
    exact ⟨List.mem_reverse.1 (List.mem_of_find?_eq_some hv), by simpa using List.find?_some hv⟩
  · rintro ⟨hv, rfl⟩
    cases hf : source.verified.reverse.find? (·.codeHash == v.codeHash) with
    | none => exact absurd (List.find?_eq_none.1 hf v (List.mem_reverse.2 hv)) (by simp)
    | some w =>
      have hw := List.mem_reverse.1 (List.mem_of_find?_eq_some hf)
      have hhash : w.codeHash = v.codeHash := by simpa using List.find?_some hf
      rw [List.inj_on_of_nodup_map hd hw hv hhash]

structure Eligible (source : Source) (date : Units) (c : FinalBoxCode) : Prop where
  verified : ⟨c.codeHash, c.canonicalRaw, some date⟩ ∈ source.verified
  date : c.observedProductionDate = date
  unprotected : isProtected source c.codeHash = false

theorem eligibleCode_eligible (hd : (source.verified.map (·.codeHash)).Nodup)
    (hc : eligibleCode source date h = some c) : Eligible source date c := by
  unfold eligibleCode at hc
  cases hv : verifiedByHash source h with
  | none =>
    rw [hv] at hc
    cases hc
  | some v =>
    simp only [hv] at hc
    split_ifs at hc with hno
    cases hc
    obtain ⟨hmem, rfl⟩ := (verifiedByHash_eq_some hd).1 hv
    rw [not_or, not_not, Bool.not_eq_true] at hno
    obtain ⟨hprotected, hdate⟩ := hno
    refine ⟨?_, rfl, hprotected⟩
    rw [← hdate]
    exact hmem

structure FinalBox.Sound (source : Source) (b : FinalBox) : Prop where
  codes_ne_nil : b.codes ≠ []
  eligible : ∀ c ∈ b.codes, Eligible source b.productionDate c
  date : isCivilDate b.productionDate = true

/-- The conditions on a box itself. -/
def closedAndPrinted (box : NewBox) : Prop :=
  box.state = .closed ∧ box.printState = .printed ∧ box.codeHashes ≠ [] ∧ box.codeHashes.Nodup ∧
    isCivilDate box.productionDate = true

theorem eligibleBox_eq_some : eligibleBox source box = some b ↔ closedAndPrinted box ∧
    (∀ h ∈ box.codeHashes, eligibleCode source box.productionDate h ≠ none) ∧
    b = ⟨box.sscc, box.oldSsccContext, box.productionDate,
      sortByKey (fun code => byteKey code.canonicalRaw)
        (box.codeHashes.filterMap (eligibleCode source box.productionDate))⟩ := by
  unfold eligibleBox
  rw [Results.mapM_option]
  by_cases hbox : closedAndPrinted box
  · obtain ⟨h1, h2, h3, h4, h5⟩ := hbox
    rw [if_neg (by simp [h1, h2, h3, h4, h5])]
    by_cases hall : ∀ h ∈ box.codeHashes, eligibleCode source box.productionDate h ≠ none
    · rw [if_pos hall, Option.map_some, Option.some.injEq, eq_comm]
      exact ⟨fun h => ⟨⟨h1, h2, h3, h4, h5⟩, hall, h⟩, fun h => h.2.2⟩
    · rw [if_neg hall]
      exact ⟨nofun, fun h => absurd h.2.1 hall⟩
  · rw [if_pos]
    · exact ⟨nofun, fun h => absurd h.1 hbox⟩
    · by_contra hno
      simp only [not_or, not_not, List.length_eq_zero_iff, Bool.not_eq_false] at hno
      exact hbox hno

theorem eligibleBox_sound (hd : (source.verified.map (·.codeHash)).Nodup)
    (hb : eligibleBox source box = some b) : b.Sound source := by
  obtain ⟨hbox, hall, rfl⟩ := eligibleBox_eq_some.1 hb
  refine ⟨?_, fun c hc => ?_, hbox.2.2.2.2⟩
  · obtain ⟨h, hh⟩ := List.exists_mem_of_ne_nil _ hbox.2.2.1
    obtain ⟨c, hc⟩ := Option.ne_none_iff_exists'.1 (hall h hh)
    exact List.ne_nil_of_mem ((mem_sortByKey _).2 (List.mem_filterMap.2 ⟨h, hh, hc⟩))
  · obtain ⟨h, -, hc⟩ := List.mem_filterMap.1 ((mem_sortByKey _).1 hc)
    exact eligibleCode_eligible hd hc

/-- **Every final box has codes, all verified, unprotected and dated as the box.** -/
theorem select_sound (hd : (source.verified.map (·.codeHash)).Nodup)
    (hb : b ∈ selectEligibleInventoryFinalBoxes source) : b.Sound source := by
  obtain ⟨box, -, hbox⟩ := List.mem_filterMap.1 hb
  exact eligibleBox_sound hd hbox

end Select

/-! ## Arrays in other orders -/

/-- A box with its codes in another order. -/
def SameBox (box box' : NewBox) : Prop :=
  ∃ hashes, box.codeHashes.Perm hashes ∧ box' = { box with codeHashes := hashes }

/-- A source with its arrays in other orders, those of its boxes too. -/
structure Reordered (source source' : Source) : Prop where
  writeOffCandidates : source.writeOffCandidates.Perm source'.writeOffCandidates
  verified : source.verified.Perm source'.verified
  «protected» : source.protected.Perm source'.protected
  oldBoxes : source.oldBoxes.Perm source'.oldBoxes
  newBoxes : ∃ boxes, source.newBoxes.Perm boxes ∧ List.Forall₂ SameBox boxes source'.newBoxes

/-- What the files show of a final box. -/
def outline (b : FinalBox) : Units × Option Units × Units × List Units :=
  (b.sscc, b.oldSsccContext, b.productionDate, b.codes.map (·.canonicalRaw))

section Reorder

variable {source source' : Source}

theorem Reordered.isProtected_eq (h : Reordered source source') :
    isProtected source = isProtected source' := by
  funext hash
  rw [Bool.eq_iff_iff, isProtected_iff, isProtected_iff]
  exact exists_congr fun p => and_congr_left fun _ => h.protected.mem_iff

theorem Reordered.verifiedByHash_eq (h : Reordered source source')
    (hd : (source.verified.map (·.codeHash)).Nodup) :
    verifiedByHash source = verifiedByHash source' := by
  have hd' : (source'.verified.map (·.codeHash)).Nodup := (h.verified.map _).nodup_iff.1 hd
  funext hash
  refine Option.ext fun v => ?_
  rw [verifiedByHash_eq_some hd, verifiedByHash_eq_some hd', h.verified.mem_iff]

theorem Reordered.eligibleCode_eq (h : Reordered source source')
    (hd : (source.verified.map (·.codeHash)).Nodup) :
    eligibleCode source = eligibleCode source' := by
  funext date hash
  unfold eligibleCode
  rw [h.verifiedByHash_eq hd, h.isProtected_eq]

/-- A box with its codes in another order is eligible alike and shows the same. -/
theorem Reordered.map_outline_eligibleBox (h : Reordered source source') (hc : Clean source)
    {box box' : NewBox} (hbox : SameBox box box') :
    (eligibleBox source box).map outline = (eligibleBox source' box').map outline := by
  obtain ⟨hashes, hperm, rfl⟩ := hbox
  have hshow : ∀ b b' : FinalBox, eligibleBox source box = some b →
      eligibleBox source' { box with codeHashes := hashes } = some b' → outline b = outline b' := by
    intro b b' hb hb'
    obtain ⟨-, -, rfl⟩ := eligibleBox_eq_some.1 hb
    obtain ⟨-, -, rfl⟩ := eligibleBox_eq_some.1 hb'
    have hraw : ∀ c ∈ box.codeHashes.filterMap (eligibleCode source box.productionDate),
        CanonicalKm c.canonicalRaw := by
      intro c hmem
      obtain ⟨hash, -, hcode⟩ := List.mem_filterMap.1 hmem
      exact hc.verified _ (eligibleCode_eligible hc.distinct hcode).verified
    have hcodes := map_sortByKey_congr (fun code : FinalBoxCode => byteKey code.canonicalRaw)
      (hperm.filterMap (eligibleCode source box.productionDate))
      fun a ha b hb hab => byteKey_inj (hraw a ha) (hraw b hb) hab
    simp only [outline]
    rw [hcodes, h.eligibleCode_eq hc.distinct]
  have hiff : (∃ b, eligibleBox source box = some b) ↔
      ∃ b', eligibleBox source' { box with codeHashes := hashes } = some b' := by
    simp only [eligibleBox_eq_some, closedAndPrinted, ← h.eligibleCode_eq hc.distinct]
    simp only [hperm.mem_iff, hperm.nodup_iff, exists_and_left, exists_eq, ← List.length_pos_iff,
      hperm.length_eq]
  cases hb : eligibleBox source box with
  | none =>
    cases hb' : eligibleBox source' { box with codeHashes := hashes } with
    | none => rfl
    | some b' =>
      obtain ⟨b, hsome⟩ := hiff.2 ⟨b', hb'⟩
      rw [hb] at hsome
      cases hsome
  | some b =>
    obtain ⟨b', hb'⟩ := hiff.1 ⟨b, hb⟩
    rw [hb', Option.map_some, Option.map_some, hshow b b' hb hb']

/-- **What the files show of the final boxes does not depend on the order of the arrays.** -/
theorem Reordered.map_outline_select (h : Reordered source source') (hc : Clean source)
    (hsscc : (source.newBoxes.map (·.sscc)).Nodup) :
    (selectEligibleInventoryFinalBoxes source).map outline =
      (selectEligibleInventoryFinalBoxes source').map outline := by
  obtain ⟨boxes, hperm, hsame⟩ := h.newBoxes
  have hkeys : (source.newBoxes.map fun box => textKey box.sscc).Nodup := by
    have hmap := hsscc.map textKey_injective
    rwa [List.map_map] at hmap
  have hmatched : List.Forall₂ SameBox (sortByKey (fun box : NewBox => textKey box.sscc) boxes)
      (sortByKey (fun box : NewBox => textKey box.sscc) source'.newBoxes) := by
    refine forall₂_sortByKey _ (fun a b hab => ?_) hsame
    obtain ⟨hashes, -, rfl⟩ := hab
    rfl
  rw [selectEligibleInventoryFinalBoxes, selectEligibleInventoryFinalBoxes,
    sortByKey_of_perm _ hperm hkeys, List.map_filterMap, List.map_filterMap]
  generalize sortByKey (fun box : NewBox => textKey box.sscc) boxes = sorted at hmatched ⊢
  generalize sortByKey (fun box : NewBox => textKey box.sscc) source'.newBoxes = sorted'
    at hmatched ⊢
  induction hmatched with
  | nil => rfl
  | cons hab _ ih =>
    rw [List.filterMap_cons, List.filterMap_cons, h.map_outline_eligibleBox hc hab, ih]

end Reorder

end Markiro.InventoryDocuments
