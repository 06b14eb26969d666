import Markiro.Labels.ZplElements

/-!
# ZPL import undoes ZPL export

A document the emitter wrote is read element by element as `importedSpec`
(`parseZplLabel_importedSpec`), and the imported template prints the same document whatever the data
(`zpl_import_undoes_export`).
-/

namespace Markiro

open Utf16

/-! ## Lines -/

section Lines

variable {data : LabelData} {dpi : PrinterDpi}

theorem within_dataTokens {lead value : Units} (hlead : Within value lead) :
    ∀ t ∈ dataTokens lead value, Within value t.2 := by
  have hFS : ∀ v, Within v ([] : Units) := fun v => .const rfl
  intro t ht
  unfold dataTokens at ht
  split at ht
  · simp only [List.cons_append, List.nil_append, List.mem_cons, List.not_mem_nil, or_false] at ht
    rcases ht with rfl | rfl | rfl
    · exact .const (by decide)
    · refine hlead.append ?_
      rw [escapeSpecials_eq]
      exact within_escaped false value
    · exact hFS value
  · simp only [List.cons_append, List.nil_append, List.mem_cons, List.not_mem_nil, or_false] at ht
    rcases ht with rfl | rfl
    · exact hlead.append .self
    · exact hFS value

theorem within_textTokens (style : LabelTextStyle) (value : Units) :
    ∀ t ∈ textTokens style value dpi, Within value t.2 := by
  intro t ht
  unfold textTokens at ht
  simp only [List.mem_cons, List.mem_append] at ht
  rcases ht with rfl | rfl | ht | ht
  · exact within_pair _ _
  · exact .append (.const (by decide)) (within_pair _ _)
  · unfold blockTokens at ht
    split at ht
    · rw [List.mem_singleton.1 ht]
      refine .append (within_numberText _) (.cons (by decide) (.append (.append (.append
        (by exact_mod_cast within_numberText ((style.maxLines.getD 1 : ℕ) : ℤ))
        (.const (by decide))) ?_) (.const (by decide))))
      cases style.align with
      | none => exact .const (by decide)
      | some a => cases a <;> exact .const (by decide)
    · cases ht
  · exact within_dataTokens (.const rfl) t ht

theorem within_barcodeTokens (e : LabelBarcodeElement) (data : LabelData) :
    ∀ t ∈ barcodeTokens e data dpi, Within (barcodeValue e data) t.2 := by
  have hwidth : ∀ t ∈ barWidthTokens e dpi, Within (barcodeValue e data) t.2 := by
    intro t ht
    unfold barWidthTokens at ht
    split at ht
    · rw [List.mem_singleton.1 ht]
      exact within_numberText _
    · cases ht
  have hN : Within (barcodeValue e data) (encode "N,") := .const (by decide)
  intro t ht
  unfold barcodeTokens at ht
  rcases List.mem_cons.1 ht with rfl | ht
  · exact within_pair _ _
  cases hformat : e.format with
  | code128 =>
    simp only [hformat, List.mem_append, List.mem_cons] at ht
    rcases ht with ht | rfl | ht
    · exact hwidth t ht
    · exact .append (.append hN (within_numberText _)) (.const (by decide))
    · exact within_dataTokens (.const rfl) t ht
  | ean13 =>
    simp only [hformat, List.mem_append, List.mem_cons] at ht
    rcases ht with ht | rfl | ht
    · exact hwidth t ht
    · exact .append hN (within_numberText _)
    · exact within_dataTokens (.const rfl) t ht
  | datamatrix =>
    simp only [hformat, List.mem_cons] at ht
    rcases ht with rfl | ht
    · exact .append (.append hN (within_numberText _)) (.const (by decide))
    · split at ht
      · rename_i hkm
        have hvalue : barcodeValue e data = data .kmCode := by
          simp [barcodeValue, hkm.1, hkm.2, resolveBarcodeSource]
        simp only [List.mem_cons, List.not_mem_nil, or_false] at ht
        rcases ht with rfl | rfl | rfl
        · exact .const (by decide)
        · refine .append (.const (by decide)) ?_
          rw [replaceAll_escapeSpecials, hvalue]
          exact within_escaped true _
        · exact .const rfl
      · exact within_dataTokens (.const rfl) t ht
  | qr =>
    simp only [hformat, List.mem_cons] at ht
    rcases ht with rfl | ht
    · exact .append (.const (by decide)) (within_numberText _)
    · exact within_dataTokens (.const (by decide)) t ht

theorem Printed.within (p : Printed) : Within (p.payload data) (zplText (p.tokens data dpi)) := by
  refine within_zplText p.readable ?_
  cases p with
  | text style value => exact within_textTokens style value
  | barcode e => exact within_barcodeTokens e data
  | box x y width height thickness =>
    intro t ht
    simp only [Printed.tokens, boxTokens, List.mem_cons, List.not_mem_nil, or_false] at ht
    rcases ht with rfl | rfl | rfl
    · exact within_pair _ _
    · exact .append (within_numberText _) (.cons (by decide) (within_pair _ _))
    · exact .const rfl

theorem Printed.oneLine {p : Printed} (h : OneLine (p.payload data)) :
    OneLine (zplText (p.tokens data dpi)) := by
  intro u hu
  rcases p.within u hu with hu | hu
  · exact h u hu
  · constructor
    · rintro rfl
      exact absurd hu (by decide)
    · rintro rfl
      exact absurd hu (by decide)

end Lines

/-! ## The imported template -/

def WithinImportLimits (doc : Units) : Prop :=
  (utf8Bytes doc).length ≤ maxLabelCodeBytes ∧ doc.count 94 ≤ maxLabelCodeCommands

instance (doc : Units) : Decidable (WithinImportLimits doc) := inferInstanceAs (Decidable (_ ∧ _))

/-- A side of a page that, in whole dots, is still one the schema takes. -/
def SideFits (mm : ℚ) (dpi : PrinterDpi) : Prop :=
  10 ≤ dotsToMm (mmToDots mm dpi) dpi ∧ dotsToMm (mmToDots mm dpi) dpi ≤ 300

instance (mm : ℚ) (dpi : PrinterDpi) : Decidable (SideFits mm dpi) :=
  inferInstanceAs (Decidable (_ ∧ _))

/-- What a template's document is imported as. -/
def importedSpec (spec : LabelTemplateSpec) (data : LabelData) : LabelTemplateSpec where
  widthMm := dotsToMm (mmToDots spec.widthMm spec.dpi) spec.dpi
  heightMm := dotsToMm (mmToDots spec.heightMm spec.dpi) spec.dpi
  dpi := spec.dpi
  language := .zpl
  elements := importedAll data spec.dpi none 1 (spec.printed data)

section Import

variable {spec : LabelTemplateSpec} {data : LabelData} {doc : Units}

/-- **The importer reads what the emitter wrote** when every element is one it takes. -/
theorem parseZplLabel_importedSpec (hdoc : generateZpl spec data = .ok doc)
    (hone : ∀ p ∈ spec.printed data, OneLine (p.payload data))
    (himport : ∀ p ∈ spec.printed data, p.Importable data spec.dpi)
    (hlimits : WithinImportLimits doc)
    (hcount : (spec.printed data).length ≤ maxLabelCodeElements)
    (hwidth : SideFits spec.widthMm spec.dpi) (hheight : SideFits spec.heightMm spec.dpi) :
    ∃ result, parseZplLabel doc spec.dpi = .ok result ∧ result.spec = importedSpec spec data ∧
      result.warnings = [] := by
  obtain ⟨-, hdoc⟩ := generateZpl_ok_iff.1 hdoc
  obtain ⟨parse, hrun, helements, hwarnings, hpw, hll⟩ := @run_importedAll data spec.dpi
    (zplHeader (mmToDots spec.widthMm spec.dpi) (mmToDots spec.heightMm spec.dpi))
    (spec.printed data) 4 himport (by simpa [zplHeader] using hcount)
  have hidle := run_idle (zplHeader_idle _ _) hrun
  have hvalid : (importedSpec spec data).Valid :=
    ⟨hwidth, hheight, importedAll_valid himport (by simp), nodup_importedAll _ _ _⟩
  have hparse := parseZplLabel_document (fun p hp => Printed.oneLine (hone p hp)) hdoc
  have hcommands : ¬maxLabelCodeCommands < doc.count 94 := by
    have := hlimits.2
    omega
  refine ⟨⟨importedSpec spec data, [], parse.sourceLineByElementId⟩, ?_, rfl, rfl⟩
  rw [hparse, assertImportInputLimits_ok.2 hlimits.1]
  show (if _ then _ else _) = _
  rw [if_neg hcommands, hrun]
  show zplFinish spec.dpi { parse with ended := true } = _
  have hwarn : parse.warnings = [] := hwarnings
  have hspec : parseLabelTemplate (importedSpec spec data) = .ok (importedSpec spec data) := by
    rw [parseLabelTemplate, if_pos hvalid]
  unfold zplFinish
  simp only [hidle.started, hidle.state, hpw, hll, zplHeader, Bool.true_eq_false, or_self, if_false]
  rw [helements]
  show (parseLabelTemplate (importedSpec spec data) >>= _) = _
  rw [hspec, hwarn]
  rfl

end Import

/-! ## Printing what was imported -/

section Reprinted

variable {data : LabelData} {dpi : PrinterDpi}

/-- The narrow bar the importer gives a barcode is the barcode's own. -/
def OwnBar (dpi : PrinterDpi) (modal : Option ℚ) (p : Printed) : Prop :=
  ∀ e, p = .barcode e → e.format = .code128 ∨ e.format = .ean13 → modal = barDots e dpi

/-- What an imported element needs to be printed as the element it comes from. -/
structure Printed.Stable (dpi : PrinterDpi) (p : Printed) : Prop where
  text : ∀ style value, p = .text style value → style.Valid ∧ isRasterized style value = false
  barcode : ∀ e, p = .barcode e → ¬isKmDataMatrix e ∧ 1 ≤ mmToDots e.sizeMm dpi
  box : ∀ x y w h t, p = .box x y w h t → 1 ≤ t ∧ t ≤ w ∧ t ≤ h

theorem blockTokens_imported {style : LabelTextStyle} (hvalid : style.Valid) (id : Units) :
    blockTokens (importedStyle style dpi id) dpi = blockTokens style dpi := by
  cases hw : style.maxWidthMm with
  | none => simp [blockTokens, importedStyle, hw]
  | some width =>
    have hlines : (blockLines (style.maxLines.getD 1)).getD 1 = style.maxLines.getD 1 := by
      have hrange : 1 ≤ style.maxLines.getD 1 ∧ style.maxLines.getD 1 ≤ 16 := by
        cases hn : style.maxLines with
        | none => simp
        | some n => exact hvalid.2.2.2.2.2 n hn
      unfold blockLines
      split
      · rw [Option.getD_some]
        omega
      · rw [Option.getD_none]
        omega
    have halign : alignToJustification (some (style.align.getD .left)) =
        alignToJustification style.align := by
      cases style.align with
      | none => rfl
      | some a => rfl
    simp only [blockTokens, importedStyle, hw, Option.map_some, Option.bind_some, mmToDots_dotsToMm,
      hlines, halign]

theorem textTokens_imported {style : LabelTextStyle} (hvalid : style.Valid) (value id : Units) :
    textTokens (importedStyle style dpi id) value dpi = textTokens style value dpi := by
  have hfont : ptToDots (importedStyle style dpi id).fontSizePt dpi =
      ptToDots style.fontSizePt dpi := ptToDots_pointsFromDots hvalid.2.1.1 hvalid.2.1.2
  unfold textTokens
  rw [blockTokens_imported hvalid, hfont]
  simp only [importedStyle, mmToDots_dotsToMm]

variable {modal : Option ℚ}

theorem barcodeTokens_imported {e : LabelBarcodeElement} (data' : LabelData)
    (id : Units) (hkm : ¬isKmDataMatrix e) (hsize : 1 ≤ mmToDots e.sizeMm dpi)
    (hmodal : e.format = .code128 ∨ e.format = .ean13 → modal = barDots e dpi) :
    barcodeTokens {
        id := id
        xMm := dotsToMm (mmToDots e.xMm dpi) dpi
        yMm := dotsToMm (mmToDots e.yMm dpi) dpi
        format := e.format
        data := .literal (barcodeValue e data)
        sizeMm := max (1 / 10) (dotsToMm (barcodeDots e dpi) dpi)
        moduleWidthMm := if e.format = .code128 ∨ e.format = .ean13 then
          modal.map (dotsToMm · dpi) else none } data' dpi = barcodeTokens e data dpi := by
  have hdots : 1 ≤ barcodeDots e dpi := by
    unfold barcodeDots
    split
    · omega
    · exact hsize
  have hback := @mmToDots_max_tenth dpi _ hdots
  unfold barcodeTokens
  simp only [mmToDots_dotsToMm, hback]
  have hbars : ∀ e' : LabelBarcodeElement, e.format = .code128 ∨ e.format = .ean13 →
      e'.moduleWidthMm = modal.map (dotsToMm · dpi) →
      barWidthTokens e' dpi = barWidthTokens e dpi := by
    intro e' hlinear hwidth
    have hm := hmodal hlinear
    rw [barDots, if_pos hlinear] at hm
    cases hw : e.moduleWidthMm with
    | none =>
      rw [hw] at hm
      simp [barWidthTokens, hw, hwidth, hm]
    | some w =>
      rw [hw] at hm
      have hclamp : (max 1 (min 10 (max 1 (min 10 (mmToDots w dpi)))) : ℤ) =
          max 1 (min 10 (mmToDots w dpi)) := by omega
      simp only [barWidthTokens, hw, hwidth, hm, Option.map_some, mmToDots_dotsToMm, hclamp]
  cases hformat : e.format with
  | code128 =>
    have hd : barcodeDots e dpi = mmToDots e.sizeMm dpi := by simp [barcodeDots, hformat]
    simp only [hd]
    rw [hbars _ (.inl hformat) (by simp)]
    simp [barcodeValue, resolveBarcodeSource]
  | ean13 =>
    have hd : barcodeDots e dpi = mmToDots e.sizeMm dpi := by simp [barcodeDots, hformat]
    simp only [hd]
    rw [hbars _ (.inr hformat) (by simp)]
    simp [barcodeValue, resolveBarcodeSource]
  | datamatrix =>
    have hd : barcodeDots e dpi = mmToDots e.sizeMm dpi := by simp [barcodeDots, hformat]
    simp only [hd, hkm, if_false]
    simp [isKmDataMatrix, barcodeValue, resolveBarcodeSource]
  | qr =>
    have hd : barcodeDots e dpi = max 1 (min 10 (mmToDots e.sizeMm dpi)) := by
      simp [barcodeDots, hformat]
    have hclamp : (max 1 (min 10 (barcodeDots e dpi)) : ℤ) =
        max 1 (min 10 (mmToDots e.sizeMm dpi)) := by
      rw [hd]
      omega
    simp only [hclamp]
    simp [barcodeValue, resolveBarcodeSource]

/-- **An imported element is printed as the element it comes from.** -/
theorem importedPrinted_printed {p : Printed} (data' : LabelData) (id : Units)
    (h : p.Stable dpi) (hmodal : OwnBar dpi modal p) :
    ∃ q, (importedPrinted data dpi modal id p).printed data' dpi = some q ∧ q.Native ∧
      q.tokens data' dpi = p.tokens data dpi := by
  cases p with
  | text style value =>
    obtain ⟨hvalid, hnative⟩ := h.text style value rfl
    refine ⟨_, rfl, ?_, textTokens_imported hvalid value id⟩
    simp only [isRasterized, Bool.or_eq_false_iff] at hnative
    simp [Printed.Native, isRasterized, importedStyle, hnative.1.1]
  | barcode e =>
    obtain ⟨hkm, hsize⟩ := h.barcode e rfl
    exact ⟨_, rfl, trivial, barcodeTokens_imported data' id hkm hsize (hmodal e rfl)⟩
  | box x y width height thickness =>
    obtain ⟨ht, hw, hh⟩ := h.box x y width height thickness rfl
    have hback := @mmToDots_max_tenth dpi _ ht
    simp only [importedPrinted, graphicElement]
    split
    · refine ⟨_, rfl, trivial, ?_⟩
      have hwidth : 0 ≤ dotsToMm (width : ℚ) dpi := dotsToMm_nonneg (by exact_mod_cast (by omega))
      have hheight : 0 ≤ dotsToMm (height : ℚ) dpi := dotsToMm_nonneg (by exact_mod_cast (by omega))
      simp only [lineBox, Printed.tokens, add_sub_cancel_left, abs_of_nonneg hwidth,
        abs_of_nonneg hheight, min_eq_left (le_add_of_nonneg_right hwidth),
        min_eq_left (le_add_of_nonneg_right hheight), mmToDots_dotsToMm, hback, max_eq_left hw,
        max_eq_left hh]
    · refine ⟨_, rfl, trivial, ?_⟩
      simp only [Printed.tokens, mmToDots_dotsToMm, hback]

/-- Either every linear barcode sets its narrow bar, or none does and none is in force. -/
def BarsAgree (modal : Option ℚ) (ps : List Printed) : Prop :=
  (∀ e, Printed.barcode e ∈ ps → e.Linear → e.moduleWidthMm ≠ none) ∨
    (modal = none ∧ ∀ e, Printed.barcode e ∈ ps → e.Linear → e.moduleWidthMm = none)

variable {ps : List Printed}

theorem BarsAgree.ownBar {p : Printed}
    (h : BarsAgree modal (p :: ps)) : OwnBar dpi (p.modal dpi modal) p := by
  rintro e rfl hlinear
  have hbar : barDots e dpi = e.moduleWidthMm.map fun width =>
      ((max 1 (min 10 (mmToDots width dpi)) : ℤ) : ℚ) := if_pos hlinear
  rcases h with hset | ⟨rfl, hnone⟩
  · have hne := hset e List.mem_cons_self hlinear
    obtain ⟨w, hw⟩ := Option.ne_none_iff_exists'.1 hne
    simp [Printed.modal, hbar, hw]
  · simp [Printed.modal, hbar, hnone e List.mem_cons_self hlinear]

theorem BarsAgree.tail {p : Printed}
    (h : BarsAgree modal (p :: ps)) : BarsAgree (p.modal dpi modal) ps := by
  rcases h with hset | ⟨rfl, hnone⟩
  · exact .inl fun e he => hset e (List.mem_cons_of_mem _ he)
  · refine .inr ⟨?_, fun e he => hnone e (List.mem_cons_of_mem _ he)⟩
    cases p with
    | text style value => rfl
    | box x y width height thickness => rfl
    | barcode e =>
      simp only [Printed.modal, barDots]
      split
      · rename_i hlinear
        rw [hnone e List.mem_cons_self hlinear]
        rfl
      · rfl

def PrintsAs (dpi : PrinterDpi) (data : LabelData) (p : Printed) (e : LabelElement) : Prop :=
  ∀ data', ∃ q, e.printed data' dpi = some q ∧ q.Native ∧ q.tokens data' dpi = p.tokens data dpi

theorem importedAll_prints {k : ℕ} (h : ∀ p ∈ ps, p.Stable dpi) (hbars : BarsAgree modal ps) :
    List.Forall₂ (PrintsAs dpi data) ps (importedAll data dpi modal k ps) := by
  induction ps generalizing modal k with
  | nil => exact .nil
  | cons p ps ih =>
    refine .cons (fun data' => ?_) (ih (fun q hq => h q (List.mem_cons_of_mem _ hq)) hbars.tail)
    exact importedPrinted_printed data' _ (h p List.mem_cons_self) hbars.ownBar

theorem generateZpl_of_prints {spec' : LabelTemplateSpec}
    (h : List.Forall₂ (PrintsAs spec'.dpi data) ps spec'.elements) (data' : LabelData) :
    generateZpl spec' data' = .ok (buildZplDocument (mmToDots spec'.widthMm spec'.dpi)
      (mmToDots spec'.heightMm spec'.dpi)
      (ps.map fun p => zplText (p.tokens data spec'.dpi))) := by
  rw [generateZpl_ok_iff]
  unfold LabelTemplateSpec.printed
  generalize spec'.elements = es at h
  have hboth : (∀ p ∈ es.filterMap (·.printed data' spec'.dpi), p.Native) ∧
      (es.filterMap (·.printed data' spec'.dpi)).map (fun p => zplText (p.tokens data' spec'.dpi)) =
        ps.map fun p => zplText (p.tokens data spec'.dpi) := by
    induction h with
    | nil => simp
    | cons hp _ ih =>
      obtain ⟨q, hq, hnative, htokens⟩ := hp data'
      rw [List.filterMap_cons, hq]
      refine ⟨?_, ?_⟩
      · intro r hr
        rcases List.mem_cons.1 hr with rfl | hr
        · exact hnative
        · exact ih.1 r hr
      · rw [List.map_cons, List.map_cons, ih.2, htokens]
  exact ⟨hboth.1, by rw [hboth.2]⟩

end Reprinted

/-! ## The round trip -/

/-- A text the importer has everything of. -/
def LabelTextStyle.Exchangeable (dpi : PrinterDpi) (style : LabelTextStyle) : Prop :=
  style.lineHeight = none ∧ style.fontFamily = none ∧
    ∀ width ∈ style.maxWidthMm, 1 ≤ mmToDots width dpi

instance (dpi : PrinterDpi) (style : LabelTextStyle) : Decidable (style.Exchangeable dpi) := by
  unfold LabelTextStyle.Exchangeable
  infer_instance

/-- An element that survives export and import: its value is printable and no placeholder, its sizes
are a dot or more, and it is neither a logo nor a marking code's DataMatrix. -/
def LabelElement.Exchangeable (data : LabelData) (dpi : PrinterDpi) : LabelElement → Prop
  | .text e => e.toLabelTextStyle.Exchangeable dpi ∧ PrintableLiteral e.text
  | .field e => e.toLabelTextStyle.Exchangeable dpi ∧ PrintableLiteral (displayText e data)
  | .barcode e => ¬isKmDataMatrix e ∧ 1 ≤ mmToDots e.sizeMm dpi ∧
      PrintableLiteral (resolveBarcodeSource e.data data).1
  | .line e => 1 ≤ mmToDots e.thicknessMm dpi
  | .box e => 1 ≤ mmToDots e.thicknessMm dpi ∧
      mmToDots e.thicknessMm dpi ≤ mmToDots e.widthMm dpi ∧
      mmToDots e.thicknessMm dpi ≤ mmToDots e.heightMm dpi
  | .organizationLogo _ => False

instance (data : LabelData) (dpi : PrinterDpi) :
    (e : LabelElement) → Decidable (e.Exchangeable data dpi)
  | .text _ | .field _ | .barcode _ | .line _ | .box _ | .organizationLogo _ => by
    dsimp only [LabelElement.Exchangeable]
    infer_instance

/-- What the round trip of a template's document rests on. -/
structure Exchange (spec : LabelTemplateSpec) (data : LabelData) : Prop where
  valid : spec.Valid
  language : spec.language = .zpl
  elements : ∀ e ∈ spec.elements, e.Exchangeable data spec.dpi
  bars : (∀ e, .barcode e ∈ spec.elements → e.Linear → e.moduleWidthMm ≠ none) ∨
    ∀ e, .barcode e ∈ spec.elements → e.Linear → e.moduleWidthMm = none
  width : SideFits spec.widthMm spec.dpi
  height : SideFits spec.heightMm spec.dpi
  count : spec.elements.length ≤ maxLabelCodeElements
  limits : ∀ doc, generateZpl spec data = .ok doc → WithinImportLimits doc

section RoundTrip

variable {spec : LabelTemplateSpec} {data : LabelData} {dpi : PrinterDpi}

theorem Literal.barcodeValue {e : LabelBarcodeElement}
    (h : PrintableLiteral (resolveBarcodeSource e.data data).1) :
    Literal (Markiro.barcodeValue e data) ∧ OneLine (Markiro.barcodeValue e data) := by
  unfold Markiro.barcodeValue
  split
  · rename_i hsscc
    rw [hsscc.2] at h
    exact ⟨.append (by decide) h.2, .append (by unfold OneLine; decide)
      (oneLine_of_printable h.1)⟩
  · exact ⟨h.2, oneLine_of_printable h.1⟩

/-- What a printed element has to be for the round trip. -/
structure Printed.Exchanged (data : LabelData) (dpi : PrinterDpi) (p : Printed) : Prop where
  importable : p.Importable data dpi
  stable : p.Stable dpi
  oneLine : OneLine (p.payload data)
  native : p.Native

theorem exchanged_text {style : LabelTextStyle} {value : Units} (hvalid : style.Valid)
    (h : style.Exchangeable dpi) (hvalue : PrintableLiteral value) :
    (Printed.text style value).Exchanged data dpi := by
  have hnative : isRasterized style value = false := by
    simp [isRasterized, hvalue.1, h.1, h.2.1]
  refine ⟨⟨hvalue.2, by simp, ?_, by simp⟩, ⟨?_, by simp, by simp⟩, oneLine_of_printable hvalue.1,
    hnative⟩
  · rintro style' value' heq width hwidth
    cases heq
    have := h.2.2 width hwidth
    omega
  · rintro style' value' heq
    cases heq
    exact ⟨hvalid, hnative⟩

theorem exchanged_box {x y w h t : ℤ} (ht : 1 ≤ t) (hw : t ≤ w) (hh : t ≤ h) :
    (Printed.box x y w h t).Exchanged data dpi := by
  refine ⟨⟨.of_not_mem (by simp [Printed.payload]), by simp, by simp, ?_⟩,
    ⟨by simp, by simp, ?_⟩, ?_, trivial⟩
  · rintro x' y' w' h' t' heq
    cases heq
    omega
  · rintro x' y' w' h' t' heq
    cases heq
    exact ⟨ht, hw, hh⟩
  · simp [OneLine, Printed.payload]

theorem exists_exchanged {e : LabelElement} (hvalid : e.Valid) (h : e.Exchangeable data dpi) :
    ∃ p, e.printed data dpi = some p ∧ p.Exchanged data dpi := by
  cases e with
  | text e => exact ⟨_, rfl, exchanged_text hvalid h.1 h.2⟩
  | field e => exact ⟨_, rfl, exchanged_text hvalid.1 h.1 h.2⟩
  | barcode e =>
    obtain ⟨hkm, hsize, hvalue⟩ := h
    obtain ⟨hliteral, hone⟩ := Literal.barcodeValue hvalue
    refine ⟨_, rfl, ⟨hliteral, ?_, by simp, by simp⟩, ⟨by simp, ?_, by simp⟩, hone, trivial⟩
    · rintro e' heq
      cases heq
      exact hkm
    · rintro e' heq
      cases heq
      exact ⟨hkm, hsize⟩
  | line e =>
    exact ⟨_, rfl, exchanged_box h (le_max_right _ _) (le_max_right _ _)⟩
  | box e => exact ⟨_, rfl, exchanged_box h.1 h.2.1 h.2.2⟩
  | organizationLogo e => exact absurd h (by simp [LabelElement.Exchangeable])

theorem Exchange.printed (h : Exchange spec data) :
    List.Forall₂ (fun e p => e.printed data spec.dpi = some p ∧ p.Exchanged data spec.dpi)
      spec.elements (spec.printed data) := by
  unfold LabelTemplateSpec.printed
  have hall := fun e he => exists_exchanged (h.valid.2.2.1 e he) (h.elements e he)
  generalize spec.elements = es at hall
  induction es with
  | nil => exact .nil
  | cons e es ih =>
    obtain ⟨p, hp, hexchanged⟩ := hall e List.mem_cons_self
    rw [List.filterMap_cons, hp]
    exact .cons ⟨hp, hexchanged⟩ (ih fun e he => hall e (List.mem_cons_of_mem _ he))

theorem Exchange.barsAgree (h : Exchange spec data) : BarsAgree none (spec.printed data) := by
  have hmem : ∀ e, Printed.barcode e ∈ spec.printed data → .barcode e ∈ spec.elements := by
    intro e he
    obtain ⟨e', he', hprinted⟩ := List.mem_filterMap.1 he
    cases e' with
    | barcode b =>
      cases hprinted
      exact he'
    | _ => cases hprinted
  rcases h.bars with hset | hnone
  · exact .inl fun e he => hset e (hmem e he)
  · exact .inr ⟨rfl, fun e he => hnone e (hmem e he)⟩

theorem zplElementLines_printed {spec : LabelTemplateSpec} {data : LabelData} {e : LabelElement}
    {p : Printed} (hp : e.printed data spec.dpi = some p) (hnative : p.Native) :
    zplElementLines spec data {} e = .ok [zplText (p.tokens data spec.dpi)] := by
  rcases @zplElementLines_eq spec data e with ⟨-, h⟩ | ⟨error, h, -⟩
  · rw [h, hp]
    rfl
  · refine absurd (fun q hq => ?_) h
    rw [hp] at hq
    cases hq
    exact hnative

/-- **ZPL import undoes ZPL export**: the document is read without warnings as one element for each
element, printed alike, and the imported template gives the document again, whatever the data. -/
theorem zpl_import_undoes_export (spec : LabelTemplateSpec) (data : LabelData)
    (h : Exchange spec data) :
    ∃ doc result, generateZpl spec data = .ok doc ∧ parseZplLabel doc spec.dpi = .ok result ∧
      result.warnings = [] ∧
      List.Forall₂ (fun e e' => ∀ data',
        zplElementLines result.spec data' {} e' = zplElementLines spec data {} e)
        spec.elements result.spec.elements ∧
      ∀ data', generateZpl result.spec data' = .ok doc := by
  have hprinted := h.printed
  have hall : ∀ p ∈ spec.printed data, p.Exchanged data spec.dpi := by
    intro p hp
    obtain ⟨e, he, hep⟩ := List.mem_filterMap.1 hp
    obtain ⟨q, heq, hq⟩ := exists_exchanged (h.valid.2.2.1 e he) (h.elements e he)
    rw [heq] at hep
    cases hep
    exact hq
  have hdoc : generateZpl spec data = .ok _ :=
    generateZpl_ok_iff.2 ⟨fun p hp => (hall p hp).native, rfl⟩
  have hcount : (spec.printed data).length ≤ maxLabelCodeElements := by
    rw [← hprinted.length_eq]
    exact h.count
  obtain ⟨result, hparse, hspec, hwarnings⟩ := parseZplLabel_importedSpec hdoc
    (fun p hp => (hall p hp).oneLine) (fun p hp => (hall p hp).importable) (h.limits _ hdoc) hcount
    h.width h.height
  have hprints : List.Forall₂ (PrintsAs spec.dpi data) (spec.printed data)
      (importedSpec spec data).elements :=
    importedAll_prints (fun p hp => (hall p hp).stable) h.barsAgree
  refine ⟨_, result, hdoc, hparse, hwarnings, ?_, ?_⟩
  · rw [hspec]
    refine Results.forall₂_trans ?_ hprinted hprints
    rintro e p e' ⟨hp, hexchanged⟩ hprints data'
    obtain ⟨q, hq, hnative, htokens⟩ := hprints data'
    rw [zplElementLines_printed hp hexchanged.native]
    have hlines := @zplElementLines_printed (importedSpec spec data) data' e' q hq hnative
    rw [hlines, show (importedSpec spec data).dpi = spec.dpi from rfl, htokens]
  · intro data'
    rw [hspec, generateZpl_of_prints hprints data']
    simp only [importedSpec, mmToDots_dotsToMm]

end RoundTrip

/-! ### A template -/

namespace Sample

/-- A label with every kind of element that is printed natively. -/
def zplSpec : LabelTemplateSpec where
  widthMm := 58
  heightMm := 40
  dpi := .dpi203
  language := .zpl
  elements := [
    .text {
      id := encode "title", xMm := 2, yMm := 2, fontSizePt := 10, maxWidthMm := some 50
      maxLines := some 2, align := some .center, text := encode "Milk ^1_0~" },
    .field { id := encode "qty", xMm := 2, yMm := 8, fontSizePt := 8, field := .shiftNo },
    .barcode {
      id := encode "sscc", xMm := 2, yMm := 12, format := .code128, data := .field .sscc
      sizeMm := 10, moduleWidthMm := some (1 / 4) },
    .barcode {
      id := encode "qr", xMm := 40, yMm := 12, format := .qr, data := .literal (encode "a_b")
      sizeMm := 1 / 2 },
    .line ⟨encode "rule", 2, 30, 56, 30, 1 / 2⟩,
    .box ⟨encode "frame", 1, 1, 56, 38, 1 / 4⟩]

def zplData : LabelData
  | .sscc => encode "046012345678901235"
  | .shiftNo => encode "No 7"
  | _ => []

end Sample

open Sample

/-- The round trip of a template. -/
theorem zpl_import_undoes_export_sample : Exchange zplSpec zplData ∧
    ∃ doc result, generateZpl zplSpec zplData = .ok doc ∧
      parseZplLabel doc zplSpec.dpi = .ok result ∧ result.warnings = [] ∧
      List.Forall₂ (fun e e' => ∀ data', zplElementLines result.spec data' {} e' =
        zplElementLines zplSpec zplData {} e)
        zplSpec.elements result.spec.elements ∧
      ∀ data', generateZpl result.spec data' = .ok doc := by
  have h : Exchange zplSpec zplData := {
    valid := by decide +kernel
    language := rfl
    elements := by decide +kernel
    bars := .inl (by
      intro e he hlinear
      simp only [zplSpec, List.mem_cons, LabelElement.barcode.injEq, reduceCtorEq,
        List.not_mem_nil, or_false, false_or] at he
      rcases he with rfl | rfl
      · simp
      · exact absurd hlinear (by simp [LabelBarcodeElement.Linear]))
    width := by decide +kernel
    height := by decide +kernel
    count := by decide
    limits := by
      have hlimits : (generateZpl zplSpec zplData).toOption.all
          (fun doc => decide (WithinImportLimits doc)) = true := by decide +kernel
      intro doc hdoc
      rw [hdoc] at hlimits
      simpa [Except.toOption] using hlimits }
  exact ⟨h, zpl_import_undoes_export _ _ h⟩

end Markiro
