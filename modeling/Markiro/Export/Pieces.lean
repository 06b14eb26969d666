import Markiro.Lib.Chunks
import Markiro.Lib.Results
import Markiro.Domain.ShiftExports
import Markiro.Km.Canonical

/-!
# The pieces of a shift export

An export is never cut inside a code, a box or a pallet with its boxes. What a format writes of such a
piece is said here for each format; `createBlocks` makes one block of each piece, in order, with that
content and with the count of lines it takes (`createBlocks_holds`).
-/

namespace Markiro

open Utf16 Results

/-! ## What a format writes -/

inductive Piece where
  | code (code : Units)
  | box (box : GismtAggregationBox)
  | pallet (pallet : ShiftExportPalletGroup)

/-- The pieces of a source: pallets before loose boxes, which a pallet-to-box format leaves out. -/
def ShiftExportSource.pieces (mode : ShiftExportBoxMode) : ShiftExportSource → List Piece
  | .flat codes => codes.map .code
  | .boxes all => all.map .box
  | .pallets groups looseBoxes =>
    if mode = .palletBoxes then groups.map .pallet else groups.map .pallet ++ looseBoxes.map .box

/-- The SSCC with its application identifier. -/
def aiSscc (sscc : Units) : Units := encode "00" ++ sscc

section Writes

variable (d : ShiftExportFormatDescriptor)

def boxSscc (sscc : Units) : Units := if isLegacyShiftExportFormat d then sscc else aiSscc sscc

/-- A box in a text: its SSCC before its codes or after them, and a blank line. -/
def boxLines (box : GismtAggregationBox) : List Units :=
  if d.id = .shiftTxtBoxesReversed then box.codes ++ [boxSscc d box.sscc, []]
  else boxSscc d box.sscc :: box.codes ++ [[]]

namespace Piece

/-- The lines of a text file. -/
def lines : Piece → List Units
  | code c => [c]
  | box b => boxLines d b
  | pallet p =>
    if d.boxMode = .palletBoxes then aiSscc p.sscc :: p.boxes.map (fun b => aiSscc b.sscc) ++ [[]]
    else aiSscc p.sscc :: p.boxes.flatMap (boxLines d)

/-- The rows of a CSV file. -/
def rows : Piece → List (List Units)
  | code c => [[c]]
  | box b => b.codes.map fun c =>
    if d.boxMode = .boxes then [boxSscc d b.sscc, c] else [[], boxSscc d b.sscc, c]
  | pallet p => p.boxes.flatMap fun b => b.codes.map fun c => [aiSscc p.sscc, aiSscc b.sscc, c]

/-- The boxes an XML file has a `pack_content` for. -/
def boxes : Piece → List GismtAggregationBox
  | code _ => []
  | box b => [b]
  | pallet p => if d.boxMode = .palletBoxes then [] else p.boxes

/-- The pallets an XML file has a `pack_content` for. -/
def pallets : Piece → List GismtAggregationPallet
  | code _ => []
  | box _ => []
  | pallet p => [⟨p.sscc, p.boxes.map (·.sscc)⟩]

def codeCount : Piece → ℕ
  | code _ => 1
  | box b => b.codes.length
  | pallet p => (p.boxes.map fun b => b.codes.length).sum

def boxCount : Piece → ℕ
  | code _ => 0
  | box _ => 1
  | pallet p => p.boxes.length

def palletCount : Piece → ℕ
  | code _ => 0
  | box _ => 0
  | pallet _ => 1

/-- The lines a piece takes in a file. -/
def weight (p : Piece) : ℕ :=
  match d.extension with
  | .txt => (p.lines d).length
  | .csv => (p.rows d).length
  | .xml => ((p.boxes d).map gismtAggregationBoxLineCount).sum +
      (p.pallets.map gismtAggregationPalletLineCount).sum

end Piece

end Writes

/-! ## Clean sources -/

/-- A code as a scan is accepted. -/
def CanonicalKm (code : Units) : Prop := ∃ raw km, canonicalizeKm raw = .ok km ∧ km.raw = code

structure GismtAggregationBox.Clean (box : GismtAggregationBox) : Prop where
  sscc : isDigits 18 box.sscc = true
  codes : ∀ c ∈ box.codes, CanonicalKm c

def Piece.Clean : Piece → Prop
  | .code c => CanonicalKm c
  | .box b => b.Clean
  | .pallet p => isDigits 18 p.sscc = true ∧ ∀ b ∈ p.boxes, b.Clean

def ShiftExportSource.Clean : ShiftExportSource → Prop
  | .flat codes => ∀ c ∈ codes, CanonicalKm c
  | .boxes all => ∀ b ∈ all, b.Clean
  | .pallets groups looseBoxes => (∀ p ∈ groups, (Piece.pallet p).Clean) ∧ ∀ b ∈ looseBoxes, b.Clean

/-- No line break. -/
def Unbroken (s : Units) : Prop := lineFeed ∉ s ∧ 13 ∉ s

theorem unitFault_mem {s : Units} (h : unitFault s = none) : ∀ u ∈ s, 0x20 ≤ u ∨ u = GS := by
  induction s using unitFault.induct with
  | case1 => simp
  | case2 u hu => simp [unitFault, hu] at h
  | case3 u hu v rest hv ih =>
    rw [unitFault] at h
    simp only [hu, hv, if_true] at h
    intro x hx
    have hbig : ∀ y : UInt16, (isHighSurrogate y = true ∨ isLowSurrogate y = true) → 0x20 ≤ y := by
      intro y hy
      simp only [isHighSurrogate, isLowSurrogate, Bool.and_eq_true, decide_eq_true_eq,
        UInt16.le_iff_toNat_le] at hy ⊢
      have h1 : (0xd800 : UInt16).toNat = 0xd800 := rfl
      have h2 : (0xdc00 : UInt16).toNat = 0xdc00 := rfl
      have h3 : (0x20 : UInt16).toNat = 0x20 := rfl
      omega
    rcases List.mem_cons.1 hx with rfl | hx
    · exact .inl (hbig _ (.inl hu))
    · rcases List.mem_cons.1 hx with rfl | hx
      · exact .inl (hbig _ (.inr hv))
      · exact ih h x hx
  | case4 u hu v rest hv =>
    rw [unitFault] at h
    simp [hu, hv] at h
  | case5 u rest hu hlow =>
    rw [unitFault.eq_def] at h
    simp [hu, hlow] at h
  | case6 u rest hu hlow hc =>
    rw [unitFault.eq_def] at h
    simp [hu, hlow, hc] at h
  | case7 u rest hu hlow hc ih =>
    rw [unitFault.eq_def] at h
    simp only [hu, hlow, hc, Bool.false_eq_true, if_false] at h
    intro x hx
    rcases List.mem_cons.1 hx with rfl | hx
    · rw [not_or, not_and_or, UInt16.not_lt, not_not] at hc
      exact hc.1
    · exact ih h x hx

theorem CanonicalKm.unitFault {code : Units} (h : CanonicalKm code) :
    Markiro.unitFault code = none := by
  obtain ⟨raw, km, hkm, rfl⟩ := h
  obtain ⟨hraw, -⟩ := canonicalizeKm_ok hkm
  rw [hraw]
  unfold canonicalizeKm at hkm
  simp only at hkm
  split at hkm
  · cases hkm
  split at hkm
  · cases hkm
  · cases hkm
  · assumption

theorem CanonicalKm.unbroken {code : Units} (h : CanonicalKm code) : Unbroken code := by
  constructor
  · intro hmem
    exact absurd (unitFault_mem h.unitFault _ hmem) (by decide)
  · intro hmem
    exact absurd (unitFault_mem h.unitFault _ hmem) (by decide)

theorem Unbroken.of_isDigits {n : ℕ} {s : Units} (h : isDigits n s = true) : Unbroken s := by
  have hall := (isDigits_iff.1 h).2
  exact ⟨fun hmem => absurd (hall _ hmem) (by decide), fun hmem => absurd (hall _ hmem) (by decide)⟩

theorem Unbroken.append {s t : Units} (hs : Unbroken s) (ht : Unbroken t) : Unbroken (s ++ t) := by
  constructor
  · rw [List.mem_append]
    exact fun h => h.elim hs.1 ht.1
  · rw [List.mem_append]
    exact fun h => h.elim hs.2 ht.2

theorem Unbroken.aiSscc {sscc : Units} (h : isDigits 18 sscc = true) : Unbroken (aiSscc sscc) :=
  Unbroken.append (by unfold Unbroken; decide) (.of_isDigits h)

theorem Unbroken.boxSscc (d : ShiftExportFormatDescriptor) {sscc : Units}
    (h : isDigits 18 sscc = true) : Unbroken (boxSscc d sscc) := by
  unfold Markiro.boxSscc
  split
  · exact .of_isDigits h
  · exact .aiSscc h

/-! ## Blocks -/

structure Holds (d : ShiftExportFormatDescriptor) (p : Piece) (block : ShiftExportBlock) : Prop where
  lines : d.extension = .txt → block.lines = some (p.lines d)
  rows : d.extension = .csv → block.csvRows = some (p.rows d)
  boxes : d.extension = .xml → collectXmlBoxes block = .ok (p.boxes d)
  pallets : d.extension = .xml → collectXmlPallets block = p.pallets
  weight : block.physicalLineCount = p.weight d
  codeCount : block.codeCount = p.codeCount
  boxCount : block.boxCount = p.boxCount
  palletCount : block.palletCount.getD 0 = p.palletCount

structure Registered (d : ShiftExportFormatDescriptor) : Prop where
  flat : d.boxMode = .flat → d.extension ≠ .xml
  palletBoxes : d.boxMode = .palletBoxes → d.extension ≠ .csv
  reversed : d.id = .shiftTxtBoxesReversed → d.boxMode = .boxes
  legacy : isLegacyShiftExportFormat d = true → d.boxMode = .boxes

theorem registered_of_get {id : ShiftExportFormatId} {version : ℚ} {d : ShiftExportFormatDescriptor}
    (h : getShiftExportFormat id version = .ok d) : Registered d := by
  have hall : ∀ d ∈ shiftExportFormats ++ legacyShiftExportFormats,
      (d.boxMode = .flat → d.extension ≠ .xml) ∧ (d.boxMode = .palletBoxes → d.extension ≠ .csv) ∧
        (d.id = .shiftTxtBoxesReversed → d.boxMode = .boxes) ∧
        (isLegacyShiftExportFormat d = true → d.boxMode = .boxes) := by
    decide
  unfold getShiftExportFormat at h
  split at h
  · rename_i found hfound
    obtain rfl := Except.ok.inj h
    obtain ⟨h1, h2, h3, h4⟩ := hall found (List.mem_of_find?_eq_some hfound)
    exact ⟨h1, h2, h3, h4⟩
  · cases h

theorem countCsvPhysicalLines_unbroken {s : Units} (h : Unbroken s) :
    countCsvPhysicalLines s = 1 := by
  induction s with
  | nil => rfl
  | cons u s ih =>
    have hu : u ≠ 13 ∧ u ≠ lineFeed :=
      ⟨fun he => h.2 (he ▸ List.mem_cons_self), fun he => h.1 (he ▸ List.mem_cons_self)⟩
    rw [countCsvPhysicalLines.eq_def]
    simp only [hu.1, hu.2, if_false]
    exact ih ⟨fun hm => h.1 (List.mem_cons_of_mem _ hm), fun hm => h.2 (List.mem_cons_of_mem _ hm)⟩

theorem formatBoxSscc_eq {sscc text : Units} (h : formatBoxSscc sscc = .ok text) :
    text = aiSscc sscc := by
  unfold formatBoxSscc formatGismtAggregationSscc formatSsccWithAi at h
  split at h
  · rename_i found hfound
    split at hfound
    · rename_i out hout
      split at hout
      · cases hout
      · obtain rfl := Except.ok.inj hout
        obtain rfl := Except.ok.inj hfound
        exact (Except.ok.inj h).symm
    · cases hfound
  · cases h

section Blocks

variable {d : ShiftExportFormatDescriptor} {box : GismtAggregationBox}
  {pallet : ShiftExportPalletGroup} {block : ShiftExportBlock}

theorem flatBlock_holds {code : Units} (hd : d.extension ≠ .xml) (hc : CanonicalKm code) :
    Holds d (.code code) (flatBlock d code) := by
  refine ⟨fun he => ?_, fun he => ?_, fun he => absurd he hd, fun he => absurd he hd, ?_, rfl, rfl,
    rfl⟩
  · simp [flatBlock, he, Piece.lines]
  · simp [flatBlock, he, Piece.rows]
  · unfold flatBlock Piece.weight
    cases he : d.extension with
    | txt => rfl
    | csv => exact countCsvPhysicalLines_unbroken hc.unbroken
    | xml => exact absurd he hd

theorem boxRows_weight {ssccOut : Units} {codes : List Units} (hs : Unbroken ssccOut)
    (hc : ∀ c ∈ codes, Unbroken c) (n : ℕ) :
    codes.foldl (fun total code => total + countCsvPhysicalLines ssccOut +
      countCsvPhysicalLines code - 1) n = n + codes.length := by
  induction codes generalizing n with
  | nil => rfl
  | cons c codes ih =>
    rw [List.foldl_cons, ih fun c hc' => hc c (List.mem_cons_of_mem _ hc'),
      countCsvPhysicalLines_unbroken hs,
      countCsvPhysicalLines_unbroken (hc c List.mem_cons_self), List.length_cons]
    omega

theorem boxBlock_holds (hmode : d.boxMode = .boxes) (hbox : box.Clean)
    (h : boxBlock d box = .ok block) : Holds d (.box box) block := by
  unfold boxBlock at h
  split at h
  · rename_i he
    obtain rfl := Except.ok.inj h
    refine ⟨fun h' => ?_, fun h' => ?_, fun _ => rfl, fun _ => rfl, ?_, rfl, rfl, rfl⟩
    · exact absurd (he.symm.trans h') (by decide)
    · exact absurd (he.symm.trans h') (by decide)
    · simp [Piece.weight, he, Piece.boxes, Piece.pallets]
  · rename_i he
    obtain ⟨ssccOut, hout, h⟩ := bind_eq_ok.1 h
    have hsscc : ssccOut = boxSscc d box.sscc := by
      unfold ssccOutOf at hout
      unfold boxSscc
      split at hout
      · rename_i hl
        rw [if_pos hl]
        exact (Except.ok.inj hout).symm
      · rename_i hl
        rw [if_neg hl]
        exact formatBoxSscc_eq hout
    subst hsscc
    split at h
    · rename_i ht
      obtain rfl := pure_eq_ok.1 h
      refine ⟨fun _ => rfl, fun h' => ?_, fun h' => absurd h' he, fun h' => absurd h' he, ?_, rfl, rfl,
        rfl⟩
      · exact absurd (ht.symm.trans h') (by decide)
      · rw [Piece.weight, ht]
        rfl
    · rename_i ht
      obtain rfl := pure_eq_ok.1 h
      refine ⟨fun h' => absurd h' ht, fun _ => ?_, fun h' => absurd h' he, fun h' => absurd h' he, ?_,
        rfl, rfl, rfl⟩
      · simp [Piece.rows, hmode]
      · have hcsv : d.extension = .csv := by
          cases hx : d.extension with
          | txt => exact absurd hx ht
          | csv => rfl
          | xml => exact absurd hx he
        rw [Piece.weight, hcsv]
        show box.codes.foldl _ 0 = _
        rw [boxRows_weight (.boxSscc d hbox.sscc) fun c hc => (hbox.codes c hc).unbroken]
        simp [Piece.rows]

/-! ### Boxes of a pallets export -/

/-- The lines a box takes in a pallets export. -/
def boxWeight (d : ShiftExportFormatDescriptor) (box : GismtAggregationBox) : ℕ :=
  match d.extension with
  | .txt => (aiSscc box.sscc :: box.codes ++ [[]]).length
  | .csv => box.codes.length
  | .xml => gismtAggregationBoxLineCount box

structure HoldsBox (d : ShiftExportFormatDescriptor) (column : Units) (box : GismtAggregationBox)
    (block : ShiftExportBlock) : Prop where
  lines : d.extension = .txt → block.lines = some (aiSscc box.sscc :: box.codes ++ [[]])
  rows : d.extension = .csv →
    block.csvRows = some (box.codes.map fun c => [column, aiSscc box.sscc, c])
  xml : d.extension = .xml →
    block.xmlBox = some box ∧ block.xmlBoxes = none ∧ block.xmlPallet = none
  weight : block.physicalLineCount = boxWeight d box
  counts : block.codeCount = box.codes.length ∧ block.boxCount = 1 ∧ block.palletCount = none

theorem palletModeBoxBlock_holds {column : Units} (hcolumn : Unbroken column) (hbox : box.Clean)
    (h : palletModeBoxBlock d box column = .ok block) : HoldsBox d column box block := by
  unfold palletModeBoxBlock at h
  split at h
  · rename_i he
    obtain rfl := Except.ok.inj h
    refine ⟨fun h' => ?_, fun h' => ?_, fun _ => ⟨rfl, rfl, rfl⟩, ?_, rfl, rfl, rfl⟩
    · exact absurd (he.symm.trans h') (by decide)
    · exact absurd (he.symm.trans h') (by decide)
    · rw [boxWeight, he]
  · rename_i he
    obtain ⟨ssccOut, hout, h⟩ := bind_eq_ok.1 h
    obtain rfl := formatBoxSscc_eq hout
    split at h
    · rename_i ht
      obtain rfl := pure_eq_ok.1 h
      refine ⟨fun _ => rfl, fun h' => ?_, fun h' => absurd h' he, ?_, rfl, rfl, rfl⟩
      · exact absurd (ht.symm.trans h') (by decide)
      · rw [boxWeight, ht]
    · rename_i ht
      obtain rfl := pure_eq_ok.1 h
      refine ⟨fun h' => absurd h' ht, fun _ => rfl, fun h' => absurd h' he, ?_, rfl, rfl, rfl⟩
      have hcsv : d.extension = .csv := by
        cases hx : d.extension with
        | txt => exact absurd hx ht
        | csv => rfl
        | xml => exact absurd hx he
      have hrow : ∀ c ∈ box.codes, csvRowPhysicalLineCount [column, aiSscc box.sscc, c] = 1 := by
        intro c hc
        simp [csvRowPhysicalLineCount, countCsvPhysicalLines_unbroken hcolumn,
          countCsvPhysicalLines_unbroken (.aiSscc hbox.sscc),
          countCsvPhysicalLines_unbroken (hbox.codes c hc).unbroken]
      rw [boxWeight, hcsv]
      show (box.codes.map _).sum = _
      rw [List.map_congr_left hrow]
      simp

theorem palletModeBoxBlock_loose (hd : Registered d) (hmode : d.boxMode = .pallets)
    (h : HoldsBox d [] box block) : Holds d (.box box) block := by
  have hsscc : boxSscc d box.sscc = aiSscc box.sscc := by
    rw [boxSscc, if_neg]
    intro hl
    exact absurd (hmode.symm.trans (hd.legacy hl)) (by decide)
  have hlines : boxLines d box = aiSscc box.sscc :: box.codes ++ [[]] := by
    rw [boxLines, hsscc, if_neg]
    intro hr
    exact absurd (hmode.symm.trans (hd.reversed hr)) (by decide)
  refine ⟨fun he => ?_, fun he => ?_, fun he => ?_, fun he => ?_, ?_, h.counts.1, h.counts.2.1, ?_⟩
  · rw [h.lines he, Piece.lines, hlines]
  · rw [h.rows he, Piece.rows, hsscc, hmode]
    simp
  · obtain ⟨h1, h2, -⟩ := h.xml he
    rw [collectXmlBoxes, h2]
    simp only [requireXmlBox, h1]
    rfl
  · obtain ⟨-, -, h3⟩ := h.xml he
    rw [collectXmlPallets, h3]
    rfl
  · rw [h.weight, boxWeight, Piece.weight]
    cases he : d.extension with
    | txt => rw [Piece.lines, hlines]
    | csv => simp [Piece.rows]
    | xml => simp [Piece.boxes, Piece.pallets]
  · rw [h.counts.2.2]
    rfl

/-! ### Pallets -/

section Group

variable {column : Units} {boxes : List GismtAggregationBox} {blocks : List ShiftExportBlock}

theorem HoldsBox.flatMap_lines (h : List.Forall₂ (HoldsBox d column) boxes blocks)
    (he : d.extension = .txt) :
    blocks.flatMap (fun block => block.lines.getD []) =
      boxes.flatMap fun b => aiSscc b.sscc :: b.codes ++ [[]] := by
  induction h with
  | nil => rfl
  | cons hb _ ih =>
    rw [List.flatMap_cons, List.flatMap_cons, ih, hb.lines he]
    rfl

theorem HoldsBox.flatMap_rows (h : List.Forall₂ (HoldsBox d column) boxes blocks)
    (he : d.extension = .csv) :
    blocks.flatMap (fun block => block.csvRows.getD []) =
      boxes.flatMap fun b => b.codes.map fun c => [column, aiSscc b.sscc, c] := by
  induction h with
  | nil => rfl
  | cons hb _ ih =>
    rw [List.flatMap_cons, List.flatMap_cons, ih, hb.rows he]
    rfl

theorem HoldsBox.sums (h : List.Forall₂ (HoldsBox d column) boxes blocks) :
    (blocks.map (·.physicalLineCount)).sum = (boxes.map (boxWeight d)).sum ∧
      (blocks.map (·.codeCount)).sum = (boxes.map fun b => b.codes.length).sum := by
  induction h with
  | nil => exact ⟨rfl, rfl⟩
  | cons hb _ ih =>
    simp only [List.map_cons, List.sum_cons, hb.weight, hb.counts.1, ih]
    exact ⟨trivial, trivial⟩

theorem HoldsBox.requireXmlBox (h : List.Forall₂ (HoldsBox d column) boxes blocks)
    (he : d.extension = .xml) {out : List GismtAggregationBox}
    (hout : blocks.mapM Markiro.requireXmlBox = .ok out) : out = boxes := by
  rw [mapM_eq_ok] at hout
  induction h generalizing out with
  | nil =>
    cases hout
    rfl
  | cons hb _ ih =>
    cases hout with
    | cons hx hrest =>
      rw [Markiro.requireXmlBox, (hb.xml he).1] at hx
      rw [ih hrest, Except.ok.inj hx]

end Group

theorem buildPalletGroupBlock_holds (hd : Registered d) (hmode : d.boxMode = .pallets)
    (hclean : (Piece.pallet pallet).Clean) (h : buildPalletGroupBlock d pallet = .ok block) :
    Holds d (.pallet pallet) block := by
  obtain ⟨hsscc, hboxes⟩ := hclean
  have hbox : boxLines d = fun b => aiSscc b.sscc :: b.codes ++ [[]] := by
    funext b
    rw [boxLines, boxSscc, if_neg, if_neg]
    · intro hl
      exact absurd (hmode.symm.trans (hd.legacy hl)) (by decide)
    · intro hr
      exact absurd (hmode.symm.trans (hd.reversed hr)) (by decide)
  have hnot : d.boxMode ≠ .palletBoxes := by
    rw [hmode]
    decide
  unfold buildPalletGroupBlock at h
  obtain ⟨column, hcolumn, h⟩ := bind_eq_ok.1 h
  obtain ⟨blocks, hblocks, h⟩ := bind_eq_ok.1 h
  have hcol : Unbroken column ∧ (d.extension = .csv → column = aiSscc pallet.sscc) := by
    unfold palletColumnOf at hcolumn
    split at hcolumn
    · obtain rfl := formatBoxSscc_eq hcolumn
      exact ⟨.aiSscc hsscc, fun _ => rfl⟩
    · rename_i he
      obtain rfl := Except.ok.inj hcolumn
      exact ⟨⟨by simp, by simp⟩, fun h' => absurd h' he⟩
  have hall : List.Forall₂ (HoldsBox d column) pallet.boxes blocks := by
    have h2 := mapM_eq_ok.1 hblocks
    rw [List.forall₂_iff_zip] at h2 ⊢
    refine ⟨h2.1, fun {b x} hmem => ?_⟩
    exact palletModeBoxBlock_holds hcol.1 (hboxes b (List.of_mem_zip hmem).1) (h2.2 hmem)
  obtain ⟨hlines, hcodes⟩ := HoldsBox.sums hall
  have hlength : blocks.length = pallet.boxes.length := hall.length_eq.symm
  cases he : d.extension with
  | xml =>
    simp only [he, if_true] at h
    obtain ⟨out, hout, h⟩ := bind_eq_ok.1 h
    obtain rfl := HoldsBox.requireXmlBox hall he hout
    obtain rfl := pure_eq_ok.1 h
    refine ⟨fun h' => ?_, fun h' => ?_, fun _ => ?_, fun _ => rfl, ?_, hcodes, hlength, rfl⟩
    · exact absurd (he.symm.trans h') (by decide)
    · exact absurd (he.symm.trans h') (by decide)
    · rw [Piece.boxes, if_neg hnot]
      rfl
    · rw [Piece.weight, he]
      show (blocks.map _).sum + _ = _
      have hweight : boxWeight d = gismtAggregationBoxLineCount := by
        funext b
        rw [boxWeight, he]
      rw [hlines, Piece.boxes, if_neg hnot, hweight]
      simp [Piece.pallets]
  | txt =>
    simp only [he, if_true] at h
    rw [if_neg (by decide)] at h
    obtain ⟨sscc, hs, h⟩ := bind_eq_ok.1 h
    obtain rfl := formatBoxSscc_eq hs
    obtain rfl := pure_eq_ok.1 h
    refine ⟨fun _ => ?_, fun h' => ?_, fun h' => ?_, fun h' => ?_, ?_, hcodes, hlength, rfl⟩
    · rw [HoldsBox.flatMap_lines hall he, Piece.lines, if_neg hnot, hbox]
    · exact absurd (he.symm.trans h') (by decide)
    · exact absurd (he.symm.trans h') (by decide)
    · exact absurd (he.symm.trans h') (by decide)
    · rw [Piece.weight, he]
      have hweight : boxWeight d = fun b => (aiSscc b.sscc :: b.codes ++ [[]]).length := by
        funext b
        rw [boxWeight, he]
      show 1 + (blocks.map _).sum = _
      rw [hlines, Piece.lines, if_neg hnot, hbox, hweight, List.length_cons, List.length_flatMap]
      exact Nat.add_comm _ _
  | csv =>
    simp only [he] at h
    rw [if_neg (by decide), if_neg (by decide)] at h
    obtain rfl := pure_eq_ok.1 h
    refine ⟨fun h' => ?_, fun _ => ?_, fun h' => ?_, fun h' => ?_, ?_, hcodes, hlength, rfl⟩
    · exact absurd (he.symm.trans h') (by decide)
    · simp only [HoldsBox.flatMap_rows hall he, Piece.rows, hcol.2 he]
    · exact absurd (he.symm.trans h') (by decide)
    · exact absurd (he.symm.trans h') (by decide)
    · rw [Piece.weight, he]
      have hweight : boxWeight d = fun b => b.codes.length := by
        funext b
        rw [boxWeight, he]
      show (blocks.map _).sum = _
      rw [hlines, hweight]
      simp [Piece.rows, List.length_flatMap]

theorem buildPalletBoxesBlock_holds (hd : Registered d) (hmode : d.boxMode = .palletBoxes)
    (h : buildPalletBoxesBlock d pallet = .ok block) : Holds d (.pallet pallet) block := by
  have hnot := hd.palletBoxes hmode
  unfold buildPalletBoxesBlock at h
  simp only at h
  split at h
  · rename_i he
    obtain rfl := Except.ok.inj h
    refine ⟨fun h' => ?_, fun h' => ?_, fun _ => ?_, fun _ => rfl, ?_, rfl, rfl, rfl⟩
    · exact absurd (he.symm.trans h') (by decide)
    · exact absurd (he.symm.trans h') (by decide)
    · rw [Piece.boxes, if_pos hmode]
      rfl
    · rw [Piece.weight, he]
      simp [Piece.boxes, hmode, Piece.pallets]
  · rename_i he
    obtain ⟨sscc, hs, h⟩ := bind_eq_ok.1 h
    obtain ⟨members, hm, h⟩ := bind_eq_ok.1 h
    obtain rfl := formatBoxSscc_eq hs
    obtain rfl := mapM_eq_map (g := fun b : GismtAggregationBox => aiSscc b.sscc) hm
      fun b _ t ht => (formatBoxSscc_eq ht).symm
    obtain rfl := pure_eq_ok.1 h
    refine ⟨fun _ => ?_, fun h' => absurd h' hnot, fun h' => absurd h' he, fun h' => absurd h' he, ?_,
      rfl, rfl, rfl⟩
    · rw [Piece.lines, if_pos hmode]
    · have ht : d.extension = .txt := by
        cases hx : d.extension with
        | txt => rfl
        | csv => exact absurd hx hnot
        | xml => exact absurd hx he
      rw [Piece.weight, ht]
      simp only [Piece.lines, if_pos hmode]

end Blocks

/-! ### The source -/

variable {d : ShiftExportFormatDescriptor} {source : ShiftExportSource}

theorem pieces_clean (h : source.Clean) : ∀ p ∈ source.pieces d.boxMode, p.Clean := by
  intro p hp
  cases source with
  | flat codes =>
    obtain ⟨c, hc, rfl⟩ := List.mem_map.1 hp
    exact h c hc
  | boxes boxes =>
    obtain ⟨b, hb, rfl⟩ := List.mem_map.1 hp
    exact h b hb
  | pallets pallets looseBoxes =>
    simp only [ShiftExportSource.pieces] at hp
    split at hp
    · obtain ⟨g, hg, rfl⟩ := List.mem_map.1 hp
      exact h.1 g hg
    · rcases List.mem_append.1 hp with hp | hp
      · obtain ⟨g, hg, rfl⟩ := List.mem_map.1 hp
        exact h.1 g hg
      · obtain ⟨b, hb, rfl⟩ := List.mem_map.1 hp
        exact h.2 b hb

theorem mapM_holds {α : Type} {f : α → Export ShiftExportBlock} {piece : α → Piece} {l : List α}
    {blocks : List ShiftExportBlock} (h : l.mapM f = .ok blocks)
    (hf : ∀ a ∈ l, ∀ block, f a = .ok block → Holds d (piece a) block) :
    List.Forall₂ (Holds d) (l.map piece) blocks := by
  rw [List.forall₂_map_left_iff]
  have h2 := mapM_eq_ok.1 h
  rw [List.forall₂_iff_zip] at h2 ⊢
  exact ⟨h2.1, fun {a b} hmem => hf a (List.of_mem_zip hmem).1 b (h2.2 hmem)⟩

/-- **There is one block for each piece, in order.** -/
theorem createBlocks_holds (hd : Registered d) (hclean : source.Clean)
    (hmode : source.mode = shiftExportSourceModeFor d.boxMode) {blocks : List ShiftExportBlock}
    (h : createBlocks d source = .ok blocks) :
    List.Forall₂ (Holds d) (source.pieces d.boxMode) blocks := by
  cases source with
  | flat codes =>
    have hflat : d.boxMode = .flat := by
      cases hb : d.boxMode <;> rw [hb] at hmode <;> first | rfl | cases hmode
    obtain rfl := Except.ok.inj h
    rw [ShiftExportSource.pieces, List.forall₂_map_left_iff, List.forall₂_map_right_iff]
    exact List.forall₂_same.2 fun c hc => flatBlock_holds (hd.flat hflat) (hclean c hc)
  | boxes boxes =>
    have hboxes : d.boxMode = .boxes := by
      cases hb : d.boxMode <;> rw [hb] at hmode <;> first | rfl | cases hmode
    exact mapM_holds h fun b hb block hblock => boxBlock_holds hboxes (hclean b hb) hblock
  | pallets pallets looseBoxes =>
    rw [createBlocks] at h
    rw [ShiftExportSource.pieces]
    by_cases hpb : d.boxMode = .palletBoxes
    · rw [if_pos hpb] at h ⊢
      exact mapM_holds h fun g _ block hblock => buildPalletBoxesBlock_holds hd hpb hblock
    · have hpallets : d.boxMode = .pallets := by
        cases hb : d.boxMode with
        | flat => rw [hb] at hmode; cases hmode
        | boxes => rw [hb] at hmode; cases hmode
        | pallets => rfl
        | palletBoxes => exact absurd hb hpb
      rw [if_neg hpb] at h ⊢
      obtain ⟨groups, hgroups, h⟩ := bind_eq_ok.1 h
      obtain ⟨loose, hloose, h⟩ := bind_eq_ok.1 h
      obtain rfl := pure_eq_ok.1 h
      refine List.rel_append (mapM_holds hgroups fun g hg block hblock =>
        buildPalletGroupBlock_holds hd hpallets (hclean.1 g hg) hblock) ?_
      refine mapM_holds hloose fun b hb block hblock => palletModeBoxBlock_loose hd hpallets ?_
      exact palletModeBoxBlock_holds ⟨by simp, by simp⟩ (hclean.2 b hb) hblock

end Markiro
