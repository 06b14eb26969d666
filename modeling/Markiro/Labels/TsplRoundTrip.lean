import Markiro.Labels.TsplDocument

/-!
# TSPL import and TSPL export

An imported element is written as the element it comes from exactly when its value has lost no blank
and its bars are two dots wide (`statements_imported`). Import undoes export exactly when this holds
of every element, no text reads as an alignment and the document is within the importer's limits
(`tspl_import_undoes_export_iff`).
-/

namespace Markiro

open Utf16 Results

/-! ## Writing what was imported -/

/-- An element whose import is written as it is. -/
def LabelElement.Unchanged (data : LabelData) (dpi : PrinterDpi) : LabelElement → Prop
  | .text e => ecmaTrim e.text = e.text
  | .field e => ecmaTrim (displayText e data) = displayText e data
  | .barcode e => ecmaTrim (resolveBarcodeSource e.data data).1 =
      (resolveBarcodeSource e.data data).1 ∧ (e.Linear → narrowDots e dpi = 2)
  | _ => True

instance (data : LabelData) (dpi : PrinterDpi) :
    (e : LabelElement) → Decidable (e.Unchanged data dpi)
  | .text _ | .field _ | .barcode _ | .line _ | .box _ | .organizationLogo _ => by
    dsimp only [LabelElement.Unchanged]
    infer_instance

section Reprint

variable {data : LabelData} {dpi : PrinterDpi}

theorem numberText_intCast_injective {a b : ℤ} (h : numberText a = numberText b) : a = b := by
  have hread := numberOf_numberText_intCast a
  rw [h, numberOf_numberText_intCast, Option.some.injEq] at hread
  exact_mod_cast hread.symm

theorem dots_injective {a b : ℤ} : dots a = dots b ↔ a = b :=
  ⟨fun h => numberText_intCast_injective (TsplArg.word.inj h), fun h => h ▸ rfl⟩

theorem plain_tsplStyle {k : ℕ} {x y : ℤ} {size : ℚ} (h : decimals size ≠ none) :
    (tsplStyle k x y size dpi).Plain := ⟨rfl, rfl, rfl, h⟩

theorem textStatements_imported {style : LabelTextStyle} (h : style.Plain) (k : ℕ)
    (value value' : Units) :
    textStatements (tsplStyle k (mmToDots style.xMm dpi) (mmToDots style.yMm dpi) style.fontSizePt
      dpi) value' dpi = textStatements style value dpi ↔ value' = value := by
  rw [textStatements_plain h, textStatements_plain (plain_tsplStyle h.decimals)]
  simp [tsplStyle]

theorem mmToDots_tsplSizeDots {e : LabelBarcodeElement} (h : 1 ≤ mmToDots e.sizeMm dpi) :
    mmToDots (max (1 / 10) (dotsToMm (tsplSizeDots e dpi) dpi)) dpi = tsplSizeDots e dpi := by
  refine mmToDots_max_tenth ?_
  unfold tsplSizeDots
  split
  · omega
  · exact h

theorem linearStatement_eq_iff {e e' : LabelBarcodeElement} {type : Units}
    (hx : mmToDots e'.xMm dpi = mmToDots e.xMm dpi) (hy : mmToDots e'.yMm dpi = mmToDots e.yMm dpi)
    (hsize : mmToDots e'.sizeMm dpi = mmToDots e.sizeMm dpi) :
    linearStatement type e' data dpi = linearStatement type e data dpi ↔
      narrowDots e' dpi = narrowDots e dpi ∧ tsplBarcodeValue e' data = tsplBarcodeValue e data := by
  simp [linearStatement, hx, hy, hsize, dots_injective]

theorem barcodeStatement_eq_iff {e e' : LabelBarcodeElement} (hformat : e'.format = e.format)
    (hx : mmToDots e'.xMm dpi = mmToDots e.xMm dpi) (hy : mmToDots e'.yMm dpi = mmToDots e.yMm dpi)
    (hsize : mmToDots e'.sizeMm dpi = tsplSizeDots e dpi) (hwidth : e'.moduleWidthMm = none)
    (hbound : e.format = .code128 → (e'.data = .field .sscc ↔ e.data = .field .sscc)) :
    barcodeStatement e' data dpi = barcodeStatement e data dpi ↔
      tsplBarcodeValue e' data = tsplBarcodeValue e data ∧ (e.Linear → narrowDots e dpi = 2) := by
  have hnarrow : narrowDots e' dpi = 2 := by rw [narrowDots, hwidth]
  unfold barcodeStatement
  cases h : e.format with
  | code128 =>
    have hsize' : mmToDots e'.sizeMm dpi = mmToDots e.sizeMm dpi := by
      rw [hsize, tsplSizeDots, if_neg (by simp [h])]
    have hlinear : e.Linear := .inl h
    simp only [hformat, h, hbound h]
    rw [linearStatement_eq_iff hx hy hsize', hnarrow, and_comm]
    simp [hlinear, eq_comm]
  | ean13 =>
    have hsize' : mmToDots e'.sizeMm dpi = mmToDots e.sizeMm dpi := by
      rw [hsize, tsplSizeDots, if_neg (by simp [h])]
    have hlinear : e.Linear := .inr h
    simp only [hformat, h]
    rw [linearStatement_eq_iff hx hy hsize', hnarrow, and_comm]
    simp [hlinear, eq_comm]
  | datamatrix =>
    have hsize' : mmToDots e'.sizeMm dpi = mmToDots e.sizeMm dpi := by
      rw [hsize, tsplSizeDots, if_neg (by simp [h])]
    simp [hformat, h, hx, hy, hsize', LabelBarcodeElement.Linear]
  | qr =>
    have hsize' : (max 1 (min 10 (mmToDots e'.sizeMm dpi)) : ℤ) =
        max 1 (min 10 (mmToDots e.sizeMm dpi)) := by
      rw [hsize, tsplSizeDots, if_pos h]
      omega
    simp [hformat, h, hx, hy, hsize', LabelBarcodeElement.Linear]

theorem barcodeStatement_imported {e : LabelBarcodeElement}
    (h : (LabelElement.barcode e).Exportable data dpi) (k : ℕ) :
    (importedTspl data dpi k (.barcode e)).statements data dpi =
      (LabelElement.barcode e).statements data dpi ↔
        (LabelElement.barcode e).Unchanged data dpi := by
  obtain ⟨hsize, -, -, -, hsscc⟩ := h
  simp only [importedTspl, LabelElement.statements, LabelElement.Unchanged, List.cons.injEq,
    and_true]
  refine Iff.trans (barcodeStatement_eq_iff (by rfl) (mmToDots_dotsToMm _) (mmToDots_dotsToMm _)
    (mmToDots_tsplSizeDots hsize) (by rfl) fun hformat => ?_) (and_congr_left fun _ => ?_)
  · by_cases hbound : e.data = .field .sscc
    · simp [hformat, hbound]
    · simp [hbound]
  by_cases hbound : e.format = .code128 ∧ e.data = .field .sscc
  · have htrim : ecmaTrim (data .sscc) = data .sscc := ecmaTrim_eq_self fun u hu =>
      isNumberUnit_not_blank (isNumberUnit_of_isDigit
        (isValidSscc_digits (hsscc hbound.1 hbound.2) u hu))
    simp [tsplBarcodeValue, hbound, resolveBarcodeSource, htrim]
  · simp [tsplBarcodeValue, hbound, resolveBarcodeSource]

theorem lineStatement_imported {x y width height : ℤ} (hw : 0 < width) (hh : 0 < height) (k : ℕ) :
    (LabelElement.line (tsplLine k x y width height dpi)).statements data dpi =
      [barStatement x y width height] := by
  have hle : dotsToMm (height : ℚ) dpi ≤ dotsToMm width dpi ↔ height ≤ width := by
    have hpos := dpi.value_pos
    rw [dotsToMm, dotsToMm, div_le_div_iff_of_pos_right hpos,
      mul_le_mul_iff_of_pos_right (by norm_num)]
    exact_mod_cast Iff.rfl
  have hwidth : 0 ≤ dotsToMm (width : ℚ) dpi := dotsToMm_nonneg (by exact_mod_cast hw.le)
  have hheight : 0 ≤ dotsToMm (height : ℚ) dpi := dotsToMm_nonneg (by exact_mod_cast hh.le)
  have hzero : mmToDots 0 dpi = 0 := by simpa [dotsToMm] using @mmToDots_dotsToMm dpi 0
  unfold tsplLine
  by_cases h : height ≤ width
  · simp only [LabelElement.statements, hle, h, if_true, min_eq_right (hle.2 h),
      add_sub_cancel_left, sub_self, abs_zero, abs_of_nonneg hwidth,
      min_eq_left (le_add_of_nonneg_right hwidth), min_self, mmToDots_dotsToMm, hzero,
      max_eq_left h, max_eq_right hh.le]
  · have h' : width ≤ height := by omega
    have hmin : dotsToMm (width : ℚ) dpi ≤ dotsToMm height dpi := by
      rcases le_total (dotsToMm (width : ℚ) dpi) (dotsToMm height dpi) with hm | hm
      · exact hm
      · exact absurd (hle.1 hm) h
    simp only [LabelElement.statements, hle, h, if_false, min_eq_left hmin, add_sub_cancel_left,
      sub_self, abs_zero, abs_of_nonneg hheight, min_eq_left (le_add_of_nonneg_right hheight),
      min_self, mmToDots_dotsToMm, hzero, max_eq_left h', max_eq_right hw.le]

/-- **An imported element is written as the element it comes from exactly when nothing of it was
lost.** -/
theorem statements_imported {e : LabelElement} (h : e.Exportable data dpi) (k : ℕ) :
    (importedTspl data dpi k e).statements data dpi = e.statements data dpi ↔
      e.Unchanged data dpi := by
  cases e with
  | text e => exact textStatements_imported h.1 k _ _
  | field e => exact textStatements_imported h.1 k _ _
  | barcode e => exact barcodeStatement_imported h k
  | line e =>
    have ht : 0 < mmToDots e.thicknessMm dpi := by
      have : 1 ≤ mmToDots e.thicknessMm dpi := h
      omega
    exact iff_of_true (lineStatement_imported (lt_of_lt_of_le ht (le_max_right _ _))
      (lt_of_lt_of_le ht (le_max_right _ _)) k) trivial
  | box e =>
    refine iff_of_true ?_ trivial
    simp only [importedTspl, LabelElement.statements, mmToDots_dotsToMm, mmToDots_max_tenth h.2.2]
  | organizationLogo e => exact absurd h (by simp [LabelElement.Exportable])

/-! ### Lines -/

theorem tsplElementLines_single {spec : LabelTemplateSpec} {e : LabelElement} {st : TsplStatement}
    (h : PrintedNatively {} spec.dpi data e) (hst : e.statements data spec.dpi = [st]) :
    tsplElementLines spec data {} e = .ok [st.written] := by
  have htext : ∀ {style : LabelTextStyle} {value : Units},
      isRasterized style value = false → textStatements style value spec.dpi = [st] →
      renderTsplTextLikeElement style value spec.dpi {} = .ok st.written := by
    intro style value hnative hone
    obtain ⟨line, hline, hwritten⟩ := @renderTsplTextLikeElement_native spec.dpi {} _ _ hnative
    rw [hone] at hwritten
    have hline' : line ++ [lineFeed] = st.written ++ [lineFeed] := by simpa [tsplText] using hwritten
    rw [hline, List.append_cancel_right hline']
  have hchoice := h.choice
  cases e with
  | text e =>
    have hnative : isRasterized e.toLabelTextStyle e.text = false := by
      simpa [rasterChoice] using hchoice
    rw [tsplElementLines, htext hnative hst]
    rfl
  | field e =>
    have hnative : isRasterized e.toLabelTextStyle (displayText e data) = false := by
      simpa [rasterChoice] using hchoice
    simp only [tsplElementLines, labelFieldDisplayValue_eq, htext hnative hst]
    rfl
  | barcode e =>
    have hkm : kmRasterOf {} e = none := by simpa [rasterChoice] using hchoice
    cases hst
    rw [tsplElementLines, hkm]
    simp only [renderTsplBarcodeElement_eq]
  | line e =>
    cases hst
    simp only [tsplElementLines, renderTsplLineElement, buildTsplBar_eq]
  | box e =>
    cases hst
    simp only [tsplElementLines, renderTsplBoxElement, buildTsplBox_eq]
  | organizationLogo e => cases hst

theorem native_text {style : LabelTextStyle} {value : Units} (hplain : style.Plain)
    (h : needsImageRendering value = false) : isRasterized style value = false := by
  simp [isRasterized, h, hplain.lineHeight, hplain.fontFamily]

theorem native_of_exportable {e : LabelElement} (h : e.Exportable data dpi) :
    PrintedNatively {} dpi data e := by
  cases e with
  | text e => exact ⟨by simp [rasterChoice, native_text h.1 h.2.2.1], by simp⟩
  | field e => exact ⟨by simp [rasterChoice, native_text h.1 h.2.2.1], by simp⟩
  | barcode e => exact ⟨by simp [rasterChoice, kmRasterOf], by simp⟩
  | line e => exact ⟨rfl, by simp⟩
  | box e => exact ⟨rfl, by simp⟩
  | organizationLogo e => exact absurd h (by simp [LabelElement.Exportable])

theorem printable_trim {value : Units} (h : needsImageRendering value = false) :
    needsImageRendering (ecmaTrim value) = false := by
  obtain ⟨a, b, -, -, hs⟩ := exists_trimBy isEcmaWhitespace value
  rw [hs, needsImageRendering_append, needsImageRendering_append, Bool.or_eq_false_iff,
    Bool.or_eq_false_iff] at h
  exact h.1.2

theorem native_imported {e : LabelElement} (h : e.Exportable data dpi) (k : ℕ) :
    PrintedNatively {} dpi data (importedTspl data dpi k e) := by
  cases e with
  | text e =>
    refine ⟨?_, by simp [importedTspl]⟩
    simp [importedTspl, rasterChoice,
      native_text (plain_tsplStyle h.1.decimals) (printable_trim h.2.2.1)]
  | field e =>
    refine ⟨?_, by simp [importedTspl]⟩
    simp [importedTspl, rasterChoice,
      native_text (plain_tsplStyle h.1.decimals) (printable_trim h.2.2.1)]
  | barcode e => exact ⟨by simp [importedTspl, rasterChoice, kmRasterOf], by simp [importedTspl]⟩
  | line e => exact ⟨rfl, by simp [importedTspl]⟩
  | box e => exact ⟨rfl, by simp [importedTspl]⟩
  | organizationLogo e => exact absurd h (by simp [LabelElement.Exportable])

theorem statements_imported_single {e : LabelElement} (h : e.Exportable data dpi) (k : ℕ) :
    ∃ st, (importedTspl data dpi k e).statements data dpi = [st] := by
  cases e with
  | text e => exact ⟨_, textStatements_plain (plain_tsplStyle h.1.decimals) _⟩
  | field e => exact ⟨_, textStatements_plain (plain_tsplStyle h.1.decimals) _⟩
  | barcode e => exact ⟨_, rfl⟩
  | line e => exact ⟨_, rfl⟩
  | box e => exact ⟨_, rfl⟩
  | organizationLogo e => exact absurd h (by simp [LabelElement.Exportable])

theorem lines_imported {spec spec' : LabelTemplateSpec} {e : LabelElement}
    (hdpi : spec'.dpi = spec.dpi)
    (hvalid : e.Valid) (h : e.Exportable data spec.dpi) (k : ℕ) :
    tsplElementLines spec' data {} (importedTspl data spec.dpi k e) =
      tsplElementLines spec data {} e ↔ e.Unchanged data spec.dpi := by
  obtain ⟨st, hst⟩ := exists_readAs hvalid h
  obtain ⟨st', hst'⟩ := statements_imported_single h k
  have hclean := clean_statements e st (by rw [hst.statements]; exact List.mem_cons_self)
  have hclean' := clean_statements (importedTspl data spec.dpi k e) st'
    (by rw [hst']; exact List.mem_cons_self)
  have hwritten : st'.written = st.written ↔ st' = st := by
    refine ⟨fun heq => ?_, fun heq => heq ▸ rfl⟩
    have hread := readStatement_written hclean
    rw [← heq, readStatement_written hclean', Option.some.injEq] at hread
    exact hread
  rw [tsplElementLines_single (native_of_exportable h) hst.statements,
    tsplElementLines_single (by rw [hdpi]; exact native_imported h k) (by rw [hdpi]; exact hst'),
    ← statements_imported h k, hst', hst.statements]
  simp [hwritten]

end Reprint

/-! ## Reading a document -/

/-- What the round trip is claimed of; every number of the language has finitely many decimals. -/
structure TsplExchange (spec : LabelTemplateSpec) (data : LabelData) : Prop where
  valid : spec.Valid
  language : spec.language = .tspl
  width : decimals spec.widthMm ≠ none
  height : decimals spec.heightMm ≠ none
  elements : ∀ e ∈ spec.elements, e.Exportable data spec.dpi

section Document

variable {spec : LabelTemplateSpec} {data : LabelData}

theorem TsplExchange.readAs (h : TsplExchange spec data) :
    ∀ e ∈ spec.elements, ∃ st, ReadAs data spec.dpi e st := fun e he =>
  exists_readAs (h.valid.2.2.1 e he) (h.elements e he)

theorem TsplExchange.generate (h : TsplExchange spec data) :
    generateTspl spec data = .ok (tsplText (spec.statements data)) :=
  generateTspl_native fun e he => native_of_exportable (h.elements e he)

def documentLines (spec : LabelTemplateSpec) (data : LabelData) : List Units :=
  (tsplHeader spec.widthMm spec.heightMm).map TsplStatement.written ++
    elementLines data spec.dpi spec.elements ++ [tsplFooter.written]

theorem oneLine_of_terminators {s : Units} (h : s.any isLineTerminator = false) : OneLine s := by
  intro u hu
  have hunit := List.any_eq_false.1 h u hu
  constructor
  · rintro rfl
    exact hunit (by decide)
  · rintro rfl
    exact hunit (by decide)

theorem TsplExchange.oneLine (h : TsplExchange spec data) :
    ∀ line ∈ documentLines spec data, OneLine line := by
  intro line hline
  rcases List.mem_append.1 hline with hline | hline
  · rcases List.mem_append.1 hline with hline | hline
    · have hgap : OneLine (TsplStatement.written (encode "GAP",
          [.word (encode "2 mm"), .word (encode " 0 mm")])) := by
        unfold OneLine
        decide
      have hdirection : OneLine (TsplStatement.written (encode "DIRECTION",
          [.word (encode "1")])) := by
        unfold OneLine
        decide
      have hcls : OneLine (TsplStatement.written (encode "CLS", [])) := by
        unfold OneLine
        decide
      simp only [tsplHeader, List.map_cons, List.map_nil, List.mem_cons, List.not_mem_nil,
        or_false] at hline
      rcases hline with rfl | rfl | rfl | rfl
      · exact oneLine_of_terminators (readable_size h.width h.height).terminators
      · exact hgap
      · exact hdirection
      · exact hcls
    · obtain ⟨st, hst, rfl⟩ := List.mem_map.1 hline
      obtain ⟨e, he, hst⟩ := List.mem_flatMap.1 hst
      obtain ⟨st', hread⟩ := h.readAs e he
      rw [hread.statements, List.mem_singleton] at hst
      rw [hst]
      exact oneLine_of_terminators hread.readable.terminators
  · rw [List.mem_singleton.1 hline]
    unfold OneLine
    decide

theorem TsplExchange.splitLines (h : TsplExchange spec data) :
    Markiro.splitLines (tsplText (spec.statements data)) = documentLines spec data ++ [[]] := by
  have hlines : (spec.statements data).map TsplStatement.written = documentLines spec data := by
    simp [LabelTemplateSpec.statements, documentLines, elementLines]
  have htext : tsplText (spec.statements data) =
      joinWith [lineFeed] (documentLines spec data) ++ [lineFeed] := by
    rw [join_eq_flatMap (by simp [documentLines]), ← hlines, List.flatMap_map]
    rfl
  rw [htext, splitLines_join (by simp [documentLines]) h.oneLine]

theorem tsplSourceLine_footer (dpi : PrinterDpi) (parse : TsplParse) (n : ℕ) :
    tsplSourceLine dpi parse (tsplFooter.written, n) = .ok parse := by
  have hprint : tsplStatement (ecmaTrim tsplFooter.written) = some (encode "PRINT", encode "1") := by
    decide
  exact tsplSourceLine_ignored hprint (by decide) (by decide)

/-- **A document is read as the lines of its elements.** -/
theorem TsplExchange.parse (h : TsplExchange spec data) :
    parseTsplLabel (tsplText (spec.statements data)) spec.dpi =
      assertImportInputLimits (tsplText (spec.statements data)) >>= fun _ =>
        if maxLabelCodeCommands < ((documentLines spec data ++ [[]]).filter
          fun l => decide (ecmaTrim l ≠ [])).length then
          labelFail .labelCodeLimit (encode "label code exceeds 2000 commands")
        else ((elementLines data spec.dpi spec.elements).zipIdx 5).foldlM (tsplSourceLine spec.dpi)
          { size := some (spec.widthMm, spec.heightMm) } >>= tsplFinish spec.dpi := by
  have hheader := @run_header spec.dpi _ _ h.width h.height h.valid.1 h.valid.2.1
  have hlength : ((tsplHeader spec.widthMm spec.heightMm).map TsplStatement.written).length = 4 :=
    rfl
  have hrun : ((documentLines spec data ++ [[]]).zipIdx 1).foldlM (tsplSourceLine spec.dpi) {} =
      ((elementLines data spec.dpi spec.elements).zipIdx 5).foldlM (tsplSourceLine spec.dpi)
        { size := some (spec.widthMm, spec.heightMm) } := by
    rw [documentLines, List.zipIdx_append, List.zipIdx_append, List.zipIdx_append, hlength,
      List.foldlM_append, List.foldlM_append, List.foldlM_append, hheader]
    cases hels : ((elementLines data spec.dpi spec.elements).zipIdx 5).foldlM
        (tsplSourceLine spec.dpi) { size := some (spec.widthMm, spec.heightMm) } with
    | error e =>
      show ((List.foldlM (tsplSourceLine spec.dpi) _ _ >>= _) >>= _) = _
      rw [hels]
      rfl
    | ok parse =>
      show ((List.foldlM (tsplSourceLine spec.dpi) _ _ >>= _) >>= _) = _
      rw [hels]
      simp only [ok_bind, List.zipIdx_singleton, List.foldlM_cons, List.foldlM_nil,
        tsplSourceLine_footer]
      rfl
  rw [← hrun, parseTsplLabel, h.splitLines]

/-! ### The imported template -/

/-- What a template's document is imported as. -/
def importedTsplSpec (spec : LabelTemplateSpec) (data : LabelData) : LabelTemplateSpec where
  widthMm := spec.widthMm
  heightMm := spec.heightMm
  dpi := spec.dpi
  language := .tspl
  elements := importedTsplAll data spec.dpi 1 spec.elements

theorem id_importedTspl (dpi : PrinterDpi) (k : ℕ) (e : LabelElement) :
    (importedTspl data dpi k e).id = importedElementId .tspl k := by
  cases e with
  | line e =>
    simp only [importedTspl, tsplLine, LabelElement.id]
    split
    · rfl
    · rfl
  | _ => rfl

theorem nodup_importedTsplAll (dpi : PrinterDpi) (k : ℕ) (es : List LabelElement) :
    ((importedTsplAll data dpi k es).map (·.id)).Nodup := by
  have hids : (importedTsplAll data dpi k es).map (·.id) =
      (List.range' k es.length).map (importedElementId .tspl) := by
    rw [← List.zipIdx_map_snd, importedTsplAll, List.map_map, List.map_map]
    exact List.map_congr_left fun p _ => id_importedTspl dpi p.2 p.1
  rw [hids]
  exact List.Pairwise.map _ (fun a b hne heq => hne (importedElementId_injective .tspl heq))
    List.nodup_range'

theorem importedTspl_valid {dpi : PrinterDpi} {e : LabelElement} (hvalid : e.Valid)
    (h : e.Exportable data dpi) (k : ℕ) : (importedTspl data dpi k e).Valid := by
  have hid := importedElementId_ne_nil .tspl k
  have htenth : ∀ q : ℚ, 0 < max (1 / 10) q := fun q => lt_max_of_lt_left (by norm_num)
  have hpos : ∀ {z : ℤ}, 1 ≤ z → 0 < dotsToMm (z : ℚ) dpi := fun hz =>
    dotsToMm_pos (by exact_mod_cast hz)
  cases e with
  | text e => exact ⟨hid, hvalid.2.1, by simp [tsplStyle]⟩
  | field e => exact ⟨hid, hvalid.1.2.1, by simp [tsplStyle]⟩
  | barcode e => exact ⟨hid, htenth _, by simp⟩
  | line e =>
    have ht : 1 ≤ mmToDots e.thicknessMm dpi := h
    have hthick : ∀ {w z : ℤ}, 1 ≤ w → 1 ≤ z →
        0 < min (dotsToMm (w : ℚ) dpi) (dotsToMm (z : ℚ) dpi) := fun hw hz =>
      lt_min (hpos hw) (hpos hz)
    simp only [importedTspl, tsplLine, LabelElement.Valid]
    split
    · exact ⟨hid, hthick (ht.trans (le_max_right _ _)) (ht.trans (le_max_right _ _))⟩
    · exact ⟨hid, hthick (ht.trans (le_max_right _ _)) (ht.trans (le_max_right _ _))⟩
  | box e => exact ⟨hid, hpos h.1, hpos h.2.1, htenth _⟩
  | organizationLogo e => exact absurd h (by simp [LabelElement.Exportable])

theorem TsplExchange.imported_valid (h : TsplExchange spec data) :
    (importedTsplSpec spec data).Valid := by
  refine ⟨h.valid.1, h.valid.2.1, fun e he => ?_, nodup_importedTsplAll _ _ _⟩
  obtain ⟨⟨e, k⟩, hmem, rfl⟩ := List.mem_map.1 he
  have hmem := List.fst_mem_of_mem_zipIdx hmem
  exact importedTspl_valid (h.valid.2.2.1 e hmem) (h.elements e hmem) k

theorem length_elementLines {dpi : PrinterDpi} {es : List LabelElement}
    (h : ∀ e ∈ es, ∃ st, ReadAs data dpi e st) : (elementLines data dpi es).length = es.length := by
  rw [elementLines, List.length_map]
  induction es with
  | nil => rfl
  | cons e es ih =>
    obtain ⟨st, hst⟩ := h e List.mem_cons_self
    rw [List.flatMap_cons, hst.statements, List.singleton_append, List.length_cons,
      List.length_cons, ih fun e he => h e (List.mem_cons_of_mem _ he)]

/-- **When a document is imported, and as what.** -/
theorem TsplExchange.parse_ok (h : TsplExchange spec data) :
    (∀ result, parseTsplLabel (tsplText (spec.statements data)) spec.dpi = .ok result →
      result.spec = importedTsplSpec spec data ∧ result.warnings = []) ∧
    ((∃ result, parseTsplLabel (tsplText (spec.statements data)) spec.dpi = .ok result) ↔
      (∀ e ∈ spec.elements, e.Taken data) ∧ spec.elements.length ≤ maxLabelCodeElements ∧
        (utf8Bytes (tsplText (spec.statements data))).length ≤ maxLabelCodeBytes) := by
  obtain ⟨hrun, hread⟩ := @run_elements data spec.dpi { size := some (spec.widthMm, spec.heightMm) }
    5 spec.elements h.readAs
  have hfinish : ∀ parse, ((elementLines data spec.dpi spec.elements).zipIdx 5).foldlM
      (tsplSourceLine spec.dpi) { size := some (spec.widthMm, spec.heightMm) } = .ok parse →
      tsplFinish spec.dpi parse =
        .ok ⟨importedTsplSpec spec data, [], parse.sourceLineByElementId⟩ := by
    intro parse hparse
    obtain ⟨helements, hsize, hwarnings⟩ := hread parse hparse
    have hspec : parseLabelTemplate (importedTsplSpec spec data) =
        .ok (importedTsplSpec spec data) := by
      rw [parseLabelTemplate, if_pos h.imported_valid]
    unfold tsplFinish
    simp only [hsize, helements, hwarnings, List.nil_append, List.length_nil, Nat.zero_add]
    show (parseLabelTemplate (importedTsplSpec spec data) >>= _) = _
    rw [hspec]
    rfl
  have hlimit : ∀ result, parseTsplLabel (tsplText (spec.statements data)) spec.dpi = .ok result →
      (utf8Bytes (tsplText (spec.statements data))).length ≤ maxLabelCodeBytes ∧
      ∃ parse, ((elementLines data spec.dpi spec.elements).zipIdx 5).foldlM
        (tsplSourceLine spec.dpi) { size := some (spec.widthMm, spec.heightMm) } = .ok parse ∧
        tsplFinish spec.dpi parse = .ok result := by
    intro result hresult
    rw [h.parse, bind_eq_ok] at hresult
    obtain ⟨_, hbytes, hresult⟩ := hresult
    refine ⟨assertImportInputLimits_ok.1 hbytes, ?_⟩
    split at hresult
    · cases hresult
    · exact bind_eq_ok.1 hresult
  refine ⟨fun result hresult => ?_, ?_, ?_⟩
  · obtain ⟨-, parse, hparse, hfinished⟩ := hlimit result hresult
    rw [hfinish parse hparse] at hfinished
    cases hfinished
    exact ⟨rfl, rfl⟩
  · rintro ⟨result, hresult⟩
    obtain ⟨hbytes, parse, hparse, -⟩ := hlimit result hresult
    obtain ⟨htaken, hroom⟩ := hrun.1 ⟨parse, hparse⟩
    refine ⟨htaken, ?_, hbytes⟩
    rcases hroom with hnil | hroom
    · rw [hnil]
      exact Nat.zero_le _
    · simpa using hroom
  · rintro ⟨htaken, hcount, hbytes⟩
    obtain ⟨parse, hparse⟩ := hrun.2 ⟨htaken, .inr (by simpa using hcount)⟩
    have hcommands : ¬maxLabelCodeCommands < ((documentLines spec data ++ [[]]).filter
        fun l => decide (ecmaTrim l ≠ [])).length := by
      have hall := List.length_filter_le (fun l => decide (ecmaTrim l ≠ []))
        (documentLines spec data ++ [[]])
      have hlines : (documentLines spec data ++ [[]]).length = spec.elements.length + 6 := by
        simp [documentLines, length_elementLines h.readAs, tsplHeader]
      have h1000 : maxLabelCodeElements = 1000 := rfl
      have h2000 : maxLabelCodeCommands = 2000 := rfl
      omega
    refine ⟨⟨importedTsplSpec spec data, [], parse.sourceLineByElementId⟩, ?_⟩
    rw [h.parse, assertImportInputLimits_ok.2 hbytes, ok_bind, if_neg hcommands, hparse,
      ok_bind]
    exact hfinish parse hparse

end Document

/-! ## The round trip -/

/-- Import undoes export: the document is read without warnings as one element for each element, and
each is written as before. -/
def TsplRoundTrips (spec : LabelTemplateSpec) (data : LabelData) : Prop :=
  ∃ doc result, generateTspl spec data = .ok doc ∧ parseTsplLabel doc spec.dpi = .ok result ∧
    result.warnings = [] ∧
    List.Forall₂ (fun e e' =>
      tsplElementLines result.spec data {} e' = tsplElementLines spec data {} e)
      spec.elements result.spec.elements ∧
    generateTspl result.spec data = .ok doc

/-- An element that comes back: its value has no blank at its edges, a text is no number of an
alignment, and the bars of a linear barcode are two dots wide. -/
def LabelElement.ComesBack (data : LabelData) (dpi : PrinterDpi) : LabelElement → Prop
  | .text e => ecmaTrim e.text = e.text ∧ e.text ∉ [encode "1", encode "2", encode "3"]
  | .field e => ecmaTrim (displayText e data) = displayText e data ∧
      displayText e data ∉ [encode "1", encode "2", encode "3"]
  | .barcode e => ecmaTrim (resolveBarcodeSource e.data data).1 =
      (resolveBarcodeSource e.data data).1 ∧ (e.Linear → narrowDots e dpi = 2)
  | _ => True

instance (data : LabelData) (dpi : PrinterDpi) :
    (e : LabelElement) → Decidable (e.ComesBack data dpi)
  | .text _ | .field _ | .barcode _ | .line _ | .box _ | .organizationLogo _ => by
    dsimp only [LabelElement.ComesBack]
    infer_instance

section RoundTrip

variable {spec : LabelTemplateSpec} {data : LabelData} {dpi : PrinterDpi}

theorem comesBack_iff {e : LabelElement} (h : e.Exportable data dpi) :
    e.ComesBack data dpi ↔ e.Taken data ∧ e.Unchanged data dpi := by
  have htext : ∀ {value : Units}, value ≠ [] →
      (ecmaTrim value = value ∧ value ∉ [encode "1", encode "2", encode "3"] ↔
        TextTaken (ecmaTrim value) ∧ ecmaTrim value = value) := by
    intro value hne
    constructor
    · rintro ⟨htrim, hnot⟩
      rw [TextTaken, htrim]
      exact ⟨⟨hne, hnot⟩, rfl⟩
    · rintro ⟨htaken, htrim⟩
      rw [TextTaken, htrim] at htaken
      exact ⟨htrim, htaken.2⟩
  cases e with
  | text e => exact htext h.2.1
  | field e => exact htext h.2.1
  | barcode e =>
    refine ⟨fun hback => ⟨?_, hback⟩, fun hback => hback.2⟩
    show ecmaTrim (resolveBarcodeSource e.data data).1 ≠ []
    rw [hback.1]
    exact h.2.2.1
  | line e => exact iff_of_true trivial ⟨trivial, trivial⟩
  | box e => exact iff_of_true trivial ⟨trivial, trivial⟩
  | organizationLogo e => exact iff_of_true trivial ⟨trivial, trivial⟩

/-- The imported elements are written as the elements exactly when nothing was lost. -/
theorem TsplExchange.lines_iff (h : TsplExchange spec data) :
    List.Forall₂ (fun e e' => tsplElementLines (importedTsplSpec spec data) data {} e' =
      tsplElementLines spec data {} e) spec.elements (importedTsplSpec spec data).elements ↔
      ∀ e ∈ spec.elements, e.Unchanged data spec.dpi := by
  have hall : ∀ (es : List LabelElement) (k : ℕ), (∀ e ∈ es, e ∈ spec.elements) →
      (List.Forall₂ (fun e e' => tsplElementLines (importedTsplSpec spec data) data {} e' =
        tsplElementLines spec data {} e) es (importedTsplAll data spec.dpi k es) ↔
        ∀ e ∈ es, e.Unchanged data spec.dpi) := by
    intro es k hmem
    induction es generalizing k with
    | nil => simp [importedTsplAll]
    | cons e es ih =>
      have he := hmem e List.mem_cons_self
      have hdpi : (importedTsplSpec spec data).dpi = spec.dpi := rfl
      rw [importedTsplAll_cons, List.forall₂_cons, List.forall_mem_cons,
        lines_imported hdpi (h.valid.2.2.1 e he) (h.elements e he),
        ih _ fun e he => hmem e (List.mem_cons_of_mem _ he)]
  exact hall spec.elements 1 fun _ he => he

theorem generateTspl_of_lines {spec' : LabelTemplateSpec} {doc : Units}
    (hsize : spec'.widthMm = spec.widthMm ∧ spec'.heightMm = spec.heightMm)
    (h : List.Forall₂ (fun e e' => tsplElementLines spec' data {} e' =
      tsplElementLines spec data {} e) spec.elements spec'.elements)
    (hdoc : generateTspl spec data = .ok doc) : generateTspl spec' data = .ok doc := by
  have hmap : ∀ {es es' : List LabelElement},
      List.Forall₂ (fun e e' => tsplElementLines spec' data {} e' =
        tsplElementLines spec data {} e) es es' →
      es'.mapM (tsplElementLines spec' data {}) = es.mapM (tsplElementLines spec data {}) := by
    intro es es' hes
    induction hes with
    | nil => rw [List.mapM_nil, List.mapM_nil]
    | cons he _ ih => rw [List.mapM_cons, List.mapM_cons, he, ih]
  unfold generateTspl at hdoc ⊢
  rw [hmap h, hsize.1, hsize.2]
  exact hdoc

/-- **TSPL import undoes TSPL export exactly when** every element comes back and the document is
within the importer's limits: at most 1000 elements and 256 KiB. -/
theorem tspl_import_undoes_export_iff (spec : LabelTemplateSpec) (data : LabelData)
    (h : TsplExchange spec data) :
    TsplRoundTrips spec data ↔ (∀ e ∈ spec.elements, e.ComesBack data spec.dpi) ∧
      spec.elements.length ≤ maxLabelCodeElements ∧
      (utf8Bytes (tsplText (spec.statements data))).length ≤ maxLabelCodeBytes := by
  obtain ⟨hresult, hparse⟩ := h.parse_ok
  have hback : (∀ e ∈ spec.elements, e.ComesBack data spec.dpi) ↔
      (∀ e ∈ spec.elements, e.Taken data) ∧ ∀ e ∈ spec.elements, e.Unchanged data spec.dpi := by
    constructor
    · intro hall
      exact ⟨fun e he => ((comesBack_iff (h.elements e he)).1 (hall e he)).1,
        fun e he => ((comesBack_iff (h.elements e he)).1 (hall e he)).2⟩
    · intro hall e he
      exact (comesBack_iff (h.elements e he)).2 ⟨hall.1 e he, hall.2 e he⟩
  rw [hback]
  constructor
  · rintro ⟨doc, result, hdoc, hok, -, hlines, -⟩
    rw [h.generate] at hdoc
    cases hdoc
    obtain ⟨htaken, hcount, hbytes⟩ := hparse.1 ⟨result, hok⟩
    rw [(hresult result hok).1] at hlines
    exact ⟨⟨htaken, h.lines_iff.1 hlines⟩, hcount, hbytes⟩
  · rintro ⟨⟨htaken, hunchanged⟩, hcount, hbytes⟩
    obtain ⟨result, hok⟩ := hparse.2 ⟨htaken, hcount, hbytes⟩
    obtain ⟨hspec, hwarnings⟩ := hresult result hok
    have hlines := h.lines_iff.2 hunchanged
    refine ⟨_, result, h.generate, hok, hwarnings, ?_, ?_⟩
    · rw [hspec]
      exact hlines
    · have hsize : (importedTsplSpec spec data).widthMm = spec.widthMm ∧
          (importedTsplSpec spec data).heightMm = spec.heightMm := ⟨rfl, rfl⟩
      rw [hspec]
      exact generateTspl_of_lines hsize hlines h.generate

end RoundTrip

/-! ### Templates -/

namespace Sample

/-- A label with every kind of element that is printed natively. -/
def tsplSpec : LabelTemplateSpec where
  widthMm := 58
  heightMm := 40
  dpi := .dpi203
  language := .tspl
  elements := [
    .text { id := encode "title", xMm := 2, yMm := 2, fontSizePt := 10, text := encode "\"A\", 1" },
    .field { id := encode "no", xMm := 2, yMm := 8, fontSizePt := 8, field := .shiftNo },
    .barcode {
      id := encode "sscc", xMm := 2, yMm := 12, format := .code128, data := .field .sscc
      sizeMm := 10, moduleWidthMm := some (1 / 4) },
    .barcode {
      id := encode "qr", xMm := 40, yMm := 12, format := .qr, data := .literal (encode "a,b")
      sizeMm := 1 / 2 },
    .line ⟨encode "rule", 2, 30, 56, 30, 1 / 2⟩,
    .box ⟨encode "frame", 1, 1, 56, 38, 1 / 4⟩]

def tsplData : LabelData
  | .sscc => encode "046012345678901239"
  | .shiftNo => encode "No 7"
  | _ => []

def tsplTextSpec (text : Units) : LabelTemplateSpec where
  widthMm := 58
  heightMm := 40
  dpi := .dpi203
  language := .tspl
  elements := [.text { id := encode "no", xMm := 2, yMm := 2, fontSizePt := 10, text := text }]

end Sample

open Sample

/-- The text `1` is read as an alignment, and no text is left: the document is refused. -/
theorem text_read_as_alignment :
    TsplExchange (tsplTextSpec (encode "1")) tsplData ∧
      ¬TsplRoundTrips (tsplTextSpec (encode "1")) tsplData := by
  have h : TsplExchange (tsplTextSpec (encode "1")) tsplData :=
    ⟨by decide +kernel, rfl, by decide +kernel, by decide +kernel, by decide +kernel⟩
  refine ⟨h, ?_⟩
  rintro ⟨doc, result, hdoc, hok, -⟩
  rw [h.generate] at hdoc
  cases hdoc
  have htaken := (h.parse_ok.2.1 ⟨result, hok⟩).1 _ List.mem_cons_self
  have hone : ¬TextTaken (ecmaTrim (encode "1")) := by decide +kernel
  exact hone htaken

/-- The round trip of a template. -/
theorem tspl_import_undoes_export_iff_sample :
    TsplExchange tsplSpec tsplData ∧
      TsplRoundTrips tsplSpec tsplData := by
  have h : TsplExchange tsplSpec tsplData :=
    ⟨by decide +kernel, rfl, by decide +kernel, by decide +kernel, by decide +kernel⟩
  exact ⟨h, (tspl_import_undoes_export_iff _ _ h).2
    ⟨by decide +kernel, by decide +kernel, by decide +kernel⟩⟩

end Markiro
