import Markiro.Inventory.DateBalances

/-!
# The inventory's documents agree with each other

The files of one generation list the same final boxes with the same codes, the current stock holds
these codes, the balances count both, no protected code is in any file, and none of it depends on
the order of the source's arrays (`documents_agree`).
-/

namespace Markiro.InventoryDocuments

open Utf16 Results

section Files

variable (filenamePrefix : Units → Units)

structure Files (source : Source) (metadata : Metadata) where
  aggregation : GeneratedPart
  disaggregation : GeneratedPart
  contents : GeneratedPart
  finalBoxes : GeneratedPart
  stockCsvV1 : GeneratedPart
  stockCsv : GeneratedPart
  stockTxt : GeneratedPart
  writeOffTxt : GeneratedPart
  writeOffCsv : GeneratedPart
  balances : GeneratedPart
  aggregation_ok :
    generateInventoryAggregationXmlV2 filenamePrefix source metadata = .ok [aggregation]
  disaggregation_ok :
    generateInventoryDisaggregationXml filenamePrefix source metadata = .ok [disaggregation]
  contents_ok : generateInventoryFinalBoxContentsCsv filenamePrefix source metadata = .ok [contents]
  finalBoxes_ok : generateInventoryFinalBoxesTxt filenamePrefix source metadata = .ok [finalBoxes]
  stockCsvV1_ok :
    generateInventoryCurrentStockCsvV1 filenamePrefix source metadata = .ok [stockCsvV1]
  stockCsv_ok : generateInventoryCurrentStockCsv filenamePrefix source metadata = .ok [stockCsv]
  stockTxt_ok : generateInventoryCurrentStockTxt filenamePrefix source metadata = .ok [stockTxt]
  writeOffTxt_ok : generateInventoryWriteOffTxt filenamePrefix source metadata = .ok [writeOffTxt]
  writeOffCsv_ok : generateInventoryWriteOffCsv filenamePrefix source metadata = .ok [writeOffCsv]
  balances_ok :
    generateInventoryBalancesByProductionDateCsv filenamePrefix source metadata = .ok [balances]

/-! ## What each file lists -/

/-- A code without its crypto tail. -/
def cisOf (code : Units) : Units :=
  match parseKmSegments code with
  | .ok segments => encode "01" ++ segments.gtin14 ++ encode "21" ++ segments.serial
  | .error _ => []

theorem stripKmCryptoTail_cisOf {code cis : Units} (h : stripKmCryptoTail code = .ok cis) :
    cisOf code = cis := by
  unfold stripKmCryptoTail at h
  unfold cisOf
  cases hparse : parseKmSegments code with
  | error e =>
    rw [hparse] at h
    cases h
  | ok segments =>
    simp only [hparse] at h
    split_ifs at h
    exact Except.ok.inj h

theorem formatSsccWithAi_ok {sscc text : Units} (h : formatSsccWithAi sscc = .ok text) :
    text = aiSscc sscc := by
  unfold formatSsccWithAi at h
  split_ifs at h
  · cases h
  · exact (Except.ok.inj h).symm

theorem formatOutputSscc_ok {sscc text : Units} (h : formatOutputSscc sscc = .ok text) :
    text = aiSscc sscc := by
  unfold formatOutputSscc at h
  cases hformat : formatSsccWithAi sscc with
  | error e =>
    rw [hformat] at h
    cases h
  | ok t =>
    rw [hformat] at h
    rw [← Except.ok.inj h]
    exact formatSsccWithAi_ok hformat

def finalPack (b : FinalBox) : List Units :=
  packContent (aiSscc b.sscc) (b.codes.map fun c => cisOf c.canonicalRaw)

theorem boxContent_finalPack {b : FinalBox} {lines : List Units}
    (h : boxContent ⟨b.sscc, b.codes.map (·.canonicalRaw)⟩ = .ok lines) : lines = finalPack b := by
  obtain ⟨code, hcode, h⟩ := bind_eq_ok.1 h
  obtain ⟨members, hmembers, h⟩ := bind_eq_ok.1 h
  obtain rfl := pure_eq_ok.1 h
  have hsscc : code = aiSscc b.sscc := by
    unfold formatGismtAggregationSscc at hcode
    cases hformat : formatSsccWithAi b.sscc with
    | error e =>
      rw [hformat] at hcode
      cases hcode
    | ok t =>
      rw [hformat] at hcode
      rw [← Except.ok.inj hcode]
      exact formatSsccWithAi_ok hformat
  rw [hsscc, mapM_eq_map hmembers fun _ _ _ => stripKmCryptoTail_cisOf, finalPack,
    List.map_map]
  rfl

variable {filenamePrefix} {source source' : Source} {metadata : Metadata} {part : GeneratedPart}

/-- The aggregation lists the final boxes with their codes, without the crypto tails. -/
theorem aggregation_bytes
    (h : generateInventoryAggregationXmlV2 filenamePrefix source metadata = .ok [part]) :
    part.bytes = if selectEligibleInventoryFinalBoxes source = [] then [] else
      xmlFile (xmlHead (trimDocument ⟨metadata.documentId, metadata.inventoryNumber,
          metadata.fileDateTime, metadata.operationDateTime, metadata.organizationName⟩)
          (ecmaTrim metadata.organizationInn))
        ((selectEligibleInventoryFinalBoxes source).map finalPack) := by
  unfold generateInventoryAggregationXmlV2 at h
  obtain ⟨_, -, h⟩ := bind_eq_ok.1 h
  dsimp only at h
  by_cases hempty : selectEligibleInventoryFinalBoxes source = []
  · rw [if_pos (List.length_eq_zero_iff.2 hempty)] at h
    cases h
    rw [if_pos hempty]
    rfl
  · rw [if_neg (mt List.length_eq_zero_iff.1 hempty)] at h
    rw [if_neg hempty]
    split at h
    case h_1 rendered hrendered =>
      cases h
      obtain ⟨hbytes, -, -, -, -, hpacks, -⟩ := renderGismtAggregationXml_ok hrendered
      rw [List.map_nil, List.append_nil, List.map_map] at hbytes
      refine hbytes.trans ?_
      congr 1
      refine List.map_congr_left fun b hb => ?_
      exact boxContent_finalPack (hpacks _ (List.mem_map_of_mem hb))
    case h_2 => cases h

theorem contents_bytes
    (h : generateInventoryFinalBoxContentsCsv filenamePrefix source metadata = .ok [part]) :
    part.bytes = encodeSemicolonCsv [encode "box_sscc", encode "code"]
      ((selectEligibleInventoryFinalBoxes source).flatMap fun b =>
        b.codes.map fun c => [aiSscc b.sscc, c.canonicalRaw]) := by
  unfold generateInventoryFinalBoxContentsCsv at h
  obtain ⟨perBox, hperBox, h⟩ := bind_eq_ok.1 h
  have hrows : perBox = (selectEligibleInventoryFinalBoxes source).map fun b =>
      b.codes.map fun c => [aiSscc b.sscc, c.canonicalRaw] := by
    refine mapM_eq_map hperBox fun b _ rows hrows => ?_
    refine (mapM_eq_map hrows fun c _ row hrow => ?_).symm
    obtain ⟨sscc, hsscc, hrow⟩ := bind_eq_ok.1 hrow
    rw [← pure_eq_ok.1 hrow, formatOutputSscc_ok hsscc]
  cases pure_eq_ok.1 h
  rw [hrows, List.flatMap_def]

theorem finalBoxes_bytes
    (h : generateInventoryFinalBoxesTxt filenamePrefix source metadata = .ok [part]) :
    part.bytes = encodeLfText ((selectEligibleInventoryFinalBoxes source).map fun b =>
      aiSscc b.sscc) := by
  unfold generateInventoryFinalBoxesTxt at h
  obtain ⟨lines, hlines, h⟩ := bind_eq_ok.1 h
  cases pure_eq_ok.1 h
  rw [mapM_eq_map hlines fun b _ text htext => (formatOutputSscc_ok htext).symm]

/-- The file of the boxes taken apart. -/
def disaggregationFile (organizationInn : Units) (ssccs : List Units) : List UInt8 :=
  utf8Bytes (joinWith [lineFeed] (disaggregationHead organizationInn ++
    ssccs.flatMap packingLines ++ disaggregationTail) ++ [lineFeed])

theorem mem_disaggregatedBoxes {sscc : Units} : sscc ∈ disaggregatedBoxes source ↔
    (∃ b ∈ selectEligibleInventoryFinalBoxes source, b.oldSsccContext = some sscc) ∧
      ∀ p ∈ source.protected, p.parentSscc ≠ some sscc := by
  rw [disaggregatedBoxes, mem_sortByKey, List.mem_filter, List.mem_filterMap]
  simp [List.mem_dedup]

theorem nodup_disaggregatedBoxes : (disaggregatedBoxes source).Nodup := by
  refine (perm_sortByKey textKey).nodup_iff.2 (List.Nodup.filter _ ?_)
  refine List.Nodup.filterMap (fun a a' b ha ha' => ?_) (List.nodup_dedup _)
  exact (Option.mem_def.1 ha).trans (Option.mem_def.1 ha').symm

theorem renderGismtDisaggregationXml_ok {organizationInn : Units} {ssccs : List Units}
    {rendered : RenderedGismtDisaggregation}
    (h : renderGismtDisaggregationXml organizationInn ssccs = .ok rendered) :
    rendered.bytes = disaggregationFile organizationInn (sortByKey textKey ssccs.dedup) := by
  unfold renderGismtDisaggregationXml at h
  by_cases hinn : isParticipantInn organizationInn = false
  · rw [if_pos hinn] at h
    cases h
  rw [if_neg hinn] at h
  dsimp only at h
  by_cases hany : ((sortByKey textKey ssccs.dedup).any fun sscc => !isDigits 18 sscc) = true
  · rw [if_pos hany] at h
    cases h
  rw [if_neg hany] at h
  by_cases hempty : (sortByKey textKey ssccs.dedup).length = 0
  · rw [if_pos hempty] at h
    cases h
  rw [if_neg hempty] at h
  have hbytes := congrArg RenderedGismtDisaggregation.bytes (Except.ok.inj h)
  dsimp only at hbytes
  rw [disaggregationFile]
  exact hbytes.symm

theorem disaggregation_bytes
    (h : generateInventoryDisaggregationXml filenamePrefix source metadata = .ok [part]) :
    part.bytes = if disaggregatedBoxes source = [] then [] else
      disaggregationFile metadata.organizationInn (disaggregatedBoxes source) := by
  unfold generateInventoryDisaggregationXml at h
  obtain ⟨_, -, h⟩ := bind_eq_ok.1 h
  dsimp only at h
  split_ifs at h
  obtain ⟨boxes, hboxes, h⟩ := bind_eq_ok.1 h
  have hsame : boxes = disaggregatedBoxes source := by
    have hmap := mapM_eq_map (g := id) hboxes fun sscc _ text htext => ?_
    · rw [hmap, List.map_id]
    · unfold validateSscc at htext
      split_ifs at htext
      exact Except.ok.inj htext
  subst hsame
  by_cases hempty : disaggregatedBoxes source = []
  · rw [if_pos (List.length_eq_zero_iff.2 hempty)] at h
    cases h
    rw [if_pos hempty]
    rfl
  · rw [if_neg (mt List.length_eq_zero_iff.1 hempty)] at h
    rw [if_neg hempty]
    -- The renderer sorts and names once what is sorted and distinct already.
    have hagain : sortByKey textKey (disaggregatedBoxes source).dedup =
        disaggregatedBoxes source := by
      rw [List.dedup_eq_self.2 nodup_disaggregatedBoxes]
      exact List.Pairwise.insertionSort_eq (pairwise_sortByKey textKey)
    split at h
    case h_1 rendered hrendered =>
      cases h
      rw [← hagain]
      exact renderGismtDisaggregationXml_ok hrendered
    case h_2 => cases h

theorem balances_bytes
    (h : generateInventoryBalancesByProductionDateCsv filenamePrefix source metadata = .ok [part]) :
    ∃ counts, Tallied (codeDates source) (boxDates source) counts ∧
      (verifiedEntries source).all VerifiedCode.dated = true ∧
      part.bytes = encodeSemicolonCsv [encode "production_date", encode "code_count",
        encode "box_count"] (counts.map fun (date, c) =>
          [date, numeral c.codeCount, numeral c.boxCount]) := by
  unfold generateInventoryBalancesByProductionDateCsv at h
  obtain ⟨counts, hcounts, h⟩ := bind_eq_ok.1 h
  rcases balances_spec source with ⟨hall, counts', hok, htallied, -⟩ | ⟨-, herror⟩
  · rw [hcounts] at hok
    cases hok
    cases pure_eq_ok.1 h
    exact ⟨counts, htallied, hall, rfl⟩
  · rw [hcounts] at herror
    cases herror

theorem bytes_of_ok {p : GeneratedPart}
    (h : (.ok [p] : Generation (List GeneratedPart)) = .ok [part]) : part.bytes = p.bytes := by
  cases h
  rfl

/-! ## The order of the arrays -/

/-- The generators of an inventory's documents. -/
def inventoryGenerators (filenamePrefix : Units → Units) :
    List (Source → Metadata → Generation (List GeneratedPart)) := [
  generateInventoryAggregationXmlV2 filenamePrefix,
  generateInventoryDisaggregationXml filenamePrefix,
  generateInventoryFinalBoxContentsCsv filenamePrefix,
  generateInventoryFinalBoxesTxt filenamePrefix,
  generateInventoryCurrentStockCsvV1 filenamePrefix,
  generateInventoryCurrentStockCsv filenamePrefix,
  generateInventoryCurrentStockTxt filenamePrefix,
  generateInventoryWriteOffTxt filenamePrefix,
  generateInventoryWriteOffCsv filenamePrefix,
  generateInventoryBalancesByProductionDateCsv filenamePrefix]

theorem sortByKey_codes {codes codes' : List Units} (hperm : codes.Perm codes')
    (hkm : ∀ code ∈ codes, CanonicalKm code) :
    sortByKey byteKey codes = sortByKey byteKey codes' := by
  have hsorted := map_sortByKey_congr byteKey (f := id) hperm fun a ha b hb hab =>
    byteKey_inj (hkm a ha) (hkm b hb) hab
  rwa [List.map_id, List.map_id] at hsorted

theorem Reordered.verifiedEntries_perm (h : Reordered source source') :
    (verifiedEntries source).Perm (verifiedEntries source') := by
  rw [verifiedEntries, verifiedEntries, h.isProtected_eq]
  exact h.verified.filter _

theorem Reordered.verifiedCodes_eq (h : Reordered source source') (hc : Clean source) :
    verifiedCodes source = verifiedCodes source' := by
  refine sortByKey_codes (h.verifiedEntries_perm.map _) fun code hcode => ?_
  obtain ⟨v, hv, rfl⟩ := List.mem_map.1 hcode
  exact hc.verified v (List.mem_filter.1 hv).1

theorem Reordered.writeOffCodes_eq (h : Reordered source source') (hc : Clean source) :
    writeOffCodes source = writeOffCodes source' := by
  have hperm : (source.writeOffCandidates.filter fun code => !isProtected source code.codeHash).Perm
      (source'.writeOffCandidates.filter fun code => !isProtected source' code.codeHash) := by
    rw [h.isProtected_eq]
    exact h.writeOffCandidates.filter _
  refine sortByKey_codes (hperm.map _) fun code hcode => ?_
  obtain ⟨w, hw, rfl⟩ := List.mem_map.1 hcode
  exact hc.writeOff w (List.mem_filter.1 hw).1

section Outlines

variable (hout : (selectEligibleInventoryFinalBoxes source).map outline =
  (selectEligibleInventoryFinalBoxes source').map outline)
include hout

theorem map_select {β : Type} (f : Units × Option Units × Units × List Units → β) :
    (selectEligibleInventoryFinalBoxes source).map (fun b => f (outline b)) =
      (selectEligibleInventoryFinalBoxes source').map fun b => f (outline b) := by
  have hmap := congrArg (List.map f) hout
  rwa [List.map_map, List.map_map] at hmap

theorem mapM_select {β : Type} (f : Units × Option Units × Units × List Units → Generation β) :
    (selectEligibleInventoryFinalBoxes source).mapM (fun b => f (outline b)) =
      (selectEligibleInventoryFinalBoxes source').mapM fun b => f (outline b) := by
  have hmap := congrArg (List.mapM f) hout
  rwa [List.mapM_map, List.mapM_map] at hmap

theorem length_select : (selectEligibleInventoryFinalBoxes source).length =
    (selectEligibleInventoryFinalBoxes source').length := by
  have hlength := congrArg List.length hout
  rwa [List.length_map, List.length_map] at hlength

theorem mapM_contentRows : (selectEligibleInventoryFinalBoxes source).mapM contentRows =
    (selectEligibleInventoryFinalBoxes source').mapM contentRows := by
  have hrows : contentRows = fun b => (outline b).2.2.2.mapM fun code => do
      let sscc ← formatOutputSscc (outline b).1
      return [sscc, code] := by
    funext b
    rw [contentRows, outline, List.mapM_map]
    rfl
  rw [hrows]
  exact mapM_select hout fun o => o.2.2.2.mapM fun code => do
    let sscc ← formatOutputSscc o.1
    return [sscc, code]

end Outlines

theorem Reordered.disaggregatedBoxes_eq (h : Reordered source source')
    (hout : (selectEligibleInventoryFinalBoxes source).map outline =
      (selectEligibleInventoryFinalBoxes source').map outline) :
    disaggregatedBoxes source = disaggregatedBoxes source' := by
  have hold : (selectEligibleInventoryFinalBoxes source).map (·.oldSsccContext) =
      (selectEligibleInventoryFinalBoxes source').map (·.oldSsccContext) :=
    map_select hout fun o => o.2.1
  have hparents : (fun sscc => !source.protected.any fun code => code.parentSscc == some sscc) =
      fun sscc => !source'.protected.any fun code => code.parentSscc == some sscc := by
    funext sscc
    rw [h.protected.any_eq]
  rw [disaggregatedBoxes, disaggregatedBoxes, hold, hparents]

theorem Reordered.balances_eq (h : Reordered source source')
    (hout : (selectEligibleInventoryFinalBoxes source).map outline =
      (selectEligibleInventoryFinalBoxes source').map outline) :
    balances source = balances source' := by
  have hdates : boxDates source = boxDates source' := map_select hout fun o => o.2.2.1
  have hcodes : (codeDates source).Perm (codeDates source') := h.verifiedEntries_perm.filterMap _
  have hall := h.verifiedEntries_perm.all_eq (f := VerifiedCode.dated)
  rcases balances_spec source with ⟨hall1, counts, hok, htallied, hsorted⟩ | ⟨hall1, herror⟩
  · rcases balances_spec source' with ⟨-, counts', hok', htallied', hsorted'⟩ | ⟨hall2, -⟩
    · have hsame := htallied.congr hcodes (List.Perm.of_eq hdates)
      rw [hok, hok', hsame.eq htallied' hsorted hsorted']
    · rw [hall1, hall2] at hall
      cases hall
  · rcases balances_spec source' with ⟨hall2, -⟩ | ⟨-, herror'⟩
    · rw [hall1, hall2] at hall
      cases hall
    · rw [herror, herror']

/-- **No file depends on the order of the source's arrays.** -/
theorem Reordered.generate_eq (h : Reordered source source') (hc : Clean source)
    (hsscc : (source.newBoxes.map (·.sscc)).Nodup) :
    ∀ generate ∈ inventoryGenerators filenamePrefix,
      generate source metadata = generate source' metadata := by
  have hout := h.map_outline_select hc hsscc
  have hlength := length_select hout
  have hboxes : (selectEligibleInventoryFinalBoxes source).map (fun box =>
      (⟨box.sscc, box.codes.map (·.canonicalRaw)⟩ : GismtAggregationBox)) =
      (selectEligibleInventoryFinalBoxes source').map fun box =>
        ⟨box.sscc, box.codes.map (·.canonicalRaw)⟩ :=
    map_select hout fun o => (⟨o.1, o.2.2.2⟩ : GismtAggregationBox)
  have hlines : (selectEligibleInventoryFinalBoxes source).mapM
        (fun box => formatOutputSscc box.sscc) =
      (selectEligibleInventoryFinalBoxes source').mapM fun box => formatOutputSscc box.sscc :=
    mapM_select hout fun o => formatOutputSscc o.1
  simp only [inventoryGenerators, List.forall_mem_cons]
  refine ⟨?_, ?_, ?_, ?_, ?_, ?_, ?_, ?_, ?_, ?_, fun _ hmem => absurd hmem List.not_mem_nil⟩
  · unfold generateInventoryAggregationXmlV2
    simp only [hlength, hboxes]
  · unfold generateInventoryDisaggregationXml
    rw [h.disaggregatedBoxes_eq hout]
  · unfold generateInventoryFinalBoxContentsCsv
    simp only [hlength, mapM_contentRows hout]
  · unfold generateInventoryFinalBoxesTxt
    simp only [hlength, hlines]
  · unfold generateInventoryCurrentStockCsvV1
    rw [h.verifiedCodes_eq hc]
  · unfold generateInventoryCurrentStockCsv
    rw [h.verifiedCodes_eq hc]
  · unfold generateInventoryCurrentStockTxt
    rw [h.verifiedCodes_eq hc]
  · unfold generateInventoryWriteOffTxt
    rw [h.writeOffCodes_eq hc]
  · unfold generateInventoryWriteOffCsv
    rw [h.writeOffCodes_eq hc]
  · unfold generateInventoryBalancesByProductionDateCsv
    rw [h.balances_eq hout]

/-! ## Agreement -/

/-- The hash of a code is that of the code without its crypto tail. -/
structure HashedBy (kmHash : Units → Units) (source : Source) : Prop where
  verified : ∀ code ∈ source.verified, code.codeHash = kmHash (cisOf code.canonicalRaw)
  writeOff : ∀ code ∈ source.writeOffCandidates, code.codeHash = kmHash (cisOf code.canonicalRaw)
  «protected» : ∀ code ∈ source.protected, code.codeHash = kmHash (cisOf code.canonicalRaw)

theorem isProtected_of_mem {p : ProtectedCode} (hp : p ∈ source.protected) :
    isProtected source p.codeHash = true := isProtected_iff.2 ⟨p, hp, rfl⟩

theorem Eligible.mem_verifiedEntries {date : Units} {c : FinalBoxCode}
    (h : Eligible source date c) :
    ⟨c.codeHash, c.canonicalRaw, some date⟩ ∈ verifiedEntries source :=
  List.mem_filter.2 ⟨h.verified, by simp [h.unprotected]⟩

theorem Eligible.mem_verifiedCodes {date : Units} {c : FinalBoxCode}
    (h : Eligible source date c) : c.canonicalRaw ∈ verifiedCodes source :=
  (mem_sortByKey _).2 (List.mem_map.2 ⟨_, h.mem_verifiedEntries, rfl⟩)

/-- No code of a protected one, crypto tails apart, is among those listed. -/
theorem HashedBy.apart {kmHash : Units → Units} (h : HashedBy kmHash source) {p : ProtectedCode}
    (hp : p ∈ source.protected) :
    (∀ code ∈ verifiedCodes source, cisOf code ≠ cisOf p.canonicalRaw) ∧
      ∀ code ∈ writeOffCodes source, cisOf code ≠ cisOf p.canonicalRaw := by
  have hprotected := isProtected_of_mem hp
  rw [h.protected p hp] at hprotected
  constructor
  · intro code hcode hcis
    obtain ⟨v, hv, rfl⟩ := List.mem_map.1 ((mem_sortByKey _).1 hcode)
    obtain ⟨hv, hno⟩ := List.mem_filter.1 hv
    rw [h.verified v hv, hcis, hprotected] at hno
    cases hno
  · intro code hcode hcis
    obtain ⟨w, hw, rfl⟩ := List.mem_map.1 ((mem_sortByKey _).1 hcode)
    obtain ⟨hw, hno⟩ := List.mem_filter.1 hw
    rw [h.writeOff w hw, hcis, hprotected] at hno
    cases hno

theorem length_codeDates (h : (verifiedEntries source).all VerifiedCode.dated = true) :
    (codeDates source).length = (verifiedCodes source).length := by
  rw [verifiedCodes, (perm_sortByKey byteKey).length_eq, List.length_map, codeDates]
  generalize verifiedEntries source = entries at h
  induction entries with
  | nil => rfl
  | cons code entries ih =>
    rw [List.all_cons, Bool.and_eq_true] at h
    obtain ⟨date, hdate, -⟩ := (Option.any_eq_true _ _).1 h.1
    rw [List.filterMap_cons_some hdate, List.length_cons, ih h.2, List.length_cons]

theorem Tallied.codeCount_pos {counts : List (Units × DateCount)} (hc : Clean source)
    (h : Tallied (codeDates source) (boxDates source) counts) {entry : Units × DateCount}
    (hentry : entry ∈ counts) (hbox : 0 < entry.2.boxCount) : 0 < entry.2.codeCount := by
  have hcount := ((h.mem entry.1 entry.2).1 hentry).2
  rw [hcount] at hbox ⊢
  obtain ⟨b, hb, hdate⟩ := List.mem_map.1 (List.count_pos_iff.1 hbox)
  have hsound := select_sound hc.distinct hb
  obtain ⟨c, hcode⟩ := List.exists_mem_of_ne_nil _ hsound.codes_ne_nil
  have hmem := (hsound.eligible c hcode).mem_verifiedEntries
  refine List.count_pos_iff.2 (List.mem_filterMap.2 ⟨_, hmem, ?_⟩)
  rw [← hdate]

/-- **The inventory's documents agree with each other.** -/
theorem documents_agree (source : { source : Source // Clean source }) (metadata : Metadata)
    (files : Files filenamePrefix source.1 metadata) :
    (∃ (boxes : List FinalBox) (stock writeOff apart : List Units)
        (counts : List (Units × DateCount)),
      -- The three files of the boxes list the same boxes with the same codes,
      files.aggregation.bytes = (if boxes = [] then [] else
        xmlFile (xmlHead (trimDocument ⟨metadata.documentId, metadata.inventoryNumber,
            metadata.fileDateTime, metadata.operationDateTime, metadata.organizationName⟩)
            (ecmaTrim metadata.organizationInn))
          (boxes.map fun b => packContent (aiSscc b.sscc)
            (b.codes.map fun c => cisOf c.canonicalRaw))) ∧
      files.contents.bytes = encodeSemicolonCsv [encode "box_sscc", encode "code"]
        (boxes.flatMap fun b => b.codes.map fun c => [aiSscc b.sscc, c.canonicalRaw]) ∧
      files.finalBoxes.bytes = encodeLfText (boxes.map fun b => aiSscc b.sscc) ∧
      -- each of which is verified, unprotected, dated as its box and in stock.
      (∀ b ∈ boxes, ∀ c ∈ b.codes,
        ⟨c.codeHash, c.canonicalRaw, some b.productionDate⟩ ∈ source.1.verified ∧
        (∀ p ∈ source.1.protected, p.codeHash ≠ c.codeHash) ∧ c.canonicalRaw ∈ stock) ∧
      -- The three files of the stock list the same codes.
      files.stockCsvV1.bytes = encodeSemicolonCsv [encode "code"] (stock.map fun c => [c]) ∧
      files.stockCsv.bytes = encodeSemicolonCsvRows (stock.map fun c => [c]) ∧
      files.stockTxt.bytes = encodeLfText stock ∧
      -- The balances count the stock and the boxes.
      files.balances.bytes = encodeSemicolonCsv
        [encode "production_date", encode "code_count", encode "box_count"]
        (counts.map fun (date, c) => [date, numeral c.codeCount, numeral c.boxCount]) ∧
      (counts.map fun entry => entry.2.codeCount).sum = stock.length ∧
      (counts.map fun entry => entry.2.boxCount).sum = boxes.length ∧
      (∀ entry ∈ counts, 0 < entry.2.boxCount → 0 < entry.2.codeCount) ∧
      -- No protected code is listed.
      files.writeOffTxt.bytes = encodeLfText writeOff ∧
      files.writeOffCsv.bytes = encodeSemicolonCsv [encode "code"] (writeOff.map fun c => [c]) ∧
      stock.Perm ((source.1.verified.filter fun v =>
        !isProtected source.1 v.codeHash).map (·.canonicalRaw)) ∧
      writeOff.Perm ((source.1.writeOffCandidates.filter fun w =>
        !isProtected source.1 w.codeHash).map (·.canonicalRaw)) ∧
      (∀ kmHash, HashedBy kmHash source.1 → ∀ p ∈ source.1.protected,
        (∀ b ∈ boxes, ∀ c ∈ b.codes, cisOf c.canonicalRaw ≠ cisOf p.canonicalRaw) ∧
        (∀ code ∈ stock, cisOf code ≠ cisOf p.canonicalRaw) ∧
        ∀ code ∈ writeOff, cisOf code ≠ cisOf p.canonicalRaw) ∧
      -- The old boxes of the final ones are taken apart, but for the parents of protected codes.
      files.disaggregation.bytes = (if apart = [] then [] else
        disaggregationFile metadata.organizationInn apart) ∧
      apart.Nodup ∧
      ∀ sscc, sscc ∈ apart ↔ (∃ b ∈ boxes, b.oldSsccContext = some sscc) ∧
        ∀ p ∈ source.1.protected, p.parentSscc ≠ some sscc) ∧
    -- The order of the arrays does not matter.
    ((source.1.newBoxes.map (·.sscc)).Nodup → ∀ source', Reordered source.1 source' →
      ∀ generate ∈ inventoryGenerators filenamePrefix,
        generate source' metadata = generate source.1 metadata) := by
  obtain ⟨source, hc⟩ := source
  obtain ⟨counts, htallied, hdated, hbalances⟩ := balances_bytes files.balances_ok
  constructor
  · refine ⟨selectEligibleInventoryFinalBoxes source, verifiedCodes source, writeOffCodes source,
      disaggregatedBoxes source, counts, aggregation_bytes files.aggregation_ok,
      contents_bytes files.contents_ok, finalBoxes_bytes files.finalBoxes_ok, ?_, ?_, ?_, ?_,
      hbalances, ?_, ?_, ?_, ?_, ?_, perm_sortByKey _, perm_sortByKey _, ?_,
      disaggregation_bytes files.disaggregation_ok, nodup_disaggregatedBoxes,
      fun sscc => mem_disaggregatedBoxes⟩
    · intro b hb c hcode
      have heligible := (select_sound hc.distinct hb).eligible c hcode
      refine ⟨heligible.verified, fun p hp hhash => ?_, heligible.mem_verifiedCodes⟩
      have hno := heligible.unprotected
      rw [← hhash, isProtected_of_mem hp] at hno
      cases hno
    · exact bytes_of_ok files.stockCsvV1_ok
    · exact bytes_of_ok files.stockCsv_ok
    · exact bytes_of_ok files.stockTxt_ok
    · rw [htallied.codeSum, length_codeDates hdated]
    · rw [htallied.boxSum, boxDates, List.length_map]
    · intro entry hentry
      exact htallied.codeCount_pos hc hentry
    · exact bytes_of_ok files.writeOffTxt_ok
    · exact bytes_of_ok files.writeOffCsv_ok
    · intro kmHash hhashed p hp
      obtain ⟨hstock, hwriteOff⟩ := hhashed.apart hp
      refine ⟨fun b hb c hcode => ?_, hstock, hwriteOff⟩
      exact hstock _ ((select_sound hc.distinct hb).eligible c hcode).mem_verifiedCodes
  · intro hsscc source' hre generate hgenerate
    exact (hre.generate_eq hc hsscc generate hgenerate).symm

end Files

/-- One verified code in a printed box, and one that a protected code keeps out of another. -/
def Sample.packed : Source where
  writeOffCandidates := []
  verified := [⟨encode "a", Sample.short.render, some (encode "2026-01-02")⟩,
    ⟨encode "b", Sample.short.render, some (encode "2026-01-02")⟩]
  «protected» := [⟨encode "b", Sample.short.render, none⟩]
  oldBoxes := []
  newBoxes := [⟨encode "046000000000000022", none, .closed, .printed, encode "2026-01-02", [encode "b"]⟩,
    ⟨encode "046000000000000015", none, .closed, .printed, encode "2026-01-02", [encode "a"]⟩]

example : (selectEligibleInventoryFinalBoxes Sample.packed).map (·.sscc) =
    [encode "046000000000000015"] := by decide +kernel

end Markiro.InventoryDocuments
