import Markiro.Labels.ZplReading

/-!
# Reading a whole ZPL document

The document of a template without rasterized parts is a line for each printed element
(`generateZpl_ok_iff`), and the importer goes through it element by element
(`parseZplLabel_generateZpl`).
-/

namespace Markiro

open Utf16 Results

/-! ## What is printed -/

/-- What is printed of an element: the style of a text and the text, or the value of a barcode. -/
inductive Printed where
  | text (style : LabelTextStyle) (value : Units)
  | barcode (element : LabelBarcodeElement)
  | box (x y width height thickness : ℤ)

def lineBox (e : LabelLineElement) (dpi : PrinterDpi) : Printed :=
  .box (mmToDots (min e.xMm e.x2Mm) dpi) (mmToDots (min e.yMm e.y2Mm) dpi)
    (max (mmToDots |e.x2Mm - e.xMm| dpi) (mmToDots e.thicknessMm dpi))
    (max (mmToDots |e.y2Mm - e.yMm| dpi) (mmToDots e.thicknessMm dpi))
    (mmToDots e.thicknessMm dpi)

def LabelElement.printed (data : LabelData) (dpi : PrinterDpi) : LabelElement → Option Printed
  | .text e => some (.text e.toLabelTextStyle e.text)
  | .field e => some (.text e.toLabelTextStyle (displayText e data))
  | .barcode e => some (.barcode e)
  | .line e => some (lineBox e dpi)
  | .box e => some (.box (mmToDots e.xMm dpi) (mmToDots e.yMm dpi) (mmToDots e.widthMm dpi)
      (mmToDots e.heightMm dpi) (mmToDots e.thicknessMm dpi))
  | .organizationLogo _ => none

/-- The commands of what is printed. -/
def Printed.tokens (data : LabelData) (dpi : PrinterDpi) : Printed → List ZplToken
  | .text style value => textTokens style value dpi
  | .barcode e => barcodeTokens e data dpi
  | .box x y width height thickness => boxTokens x y width height thickness

/-- Nothing of it goes to a rasterizer. -/
def Printed.Native : Printed → Prop
  | .text style value => isRasterized style value = false
  | .barcode _ => True
  | .box _ _ _ _ _ => True

section Emitted

variable {spec : LabelTemplateSpec} {data : LabelData} {doc : Units}

def LabelTemplateSpec.printed (spec : LabelTemplateSpec) (data : LabelData) : List Printed :=
  spec.elements.filterMap (·.printed data spec.dpi)

theorem zplElementLines_eq (e : LabelElement) :
    (∀ p ∈ e.printed data spec.dpi, p.Native) ∧ zplElementLines spec data {} e =
        .ok ((e.printed data spec.dpi).toList.map fun p => zplText (p.tokens data spec.dpi)) ∨
      ∃ error, ¬(∀ p ∈ e.printed data spec.dpi, p.Native) ∧
        zplElementLines spec data {} e = .error error := by
  have htext : ∀ (style : LabelTextStyle) (text : Units),
      isRasterized style text = false ∧ renderZplTextLikeElement style text spec.dpi {} =
          .ok (zplText (textTokens style text spec.dpi)) ∨
        ∃ error, ¬isRasterized style text = false ∧
          renderZplTextLikeElement style text spec.dpi {} = .error error := by
    intro style text
    by_cases h : isRasterized style text = false
    · exact .inl ⟨h, renderZplTextLikeElement_native h⟩
    · obtain ⟨error, herror⟩ : ∃ error, rasterOf {} style text spec.dpi = .error error := ⟨_, rfl⟩
      refine .inr ⟨error, h, ?_⟩
      rw [renderZplTextLikeElement]
      simp only [Bool.not_eq_false] at h
      simp only [h, if_true, herror]
      rfl
  cases e with
  | text e =>
    rcases htext e.toLabelTextStyle e.text with ⟨h, heq⟩ | ⟨error, h, heq⟩
    · refine .inl ⟨by simpa [LabelElement.printed, Printed.Native] using h, ?_⟩
      rw [zplElementLines, heq]
      rfl
    · refine .inr ⟨error, by simpa [LabelElement.printed, Printed.Native] using h, ?_⟩
      rw [zplElementLines, heq]
      rfl
  | field e =>
    rcases htext e.toLabelTextStyle (displayText e data) with ⟨h, heq⟩ | ⟨error, h, heq⟩
    · refine .inl ⟨by simpa [LabelElement.printed, Printed.Native] using h, ?_⟩
      simp only [zplElementLines, labelFieldDisplayValue_eq, heq]
      rfl
    · refine .inr ⟨error, by simpa [LabelElement.printed, Printed.Native] using h, ?_⟩
      simp only [zplElementLines, labelFieldDisplayValue_eq, heq]
      rfl
  | barcode e =>
    refine .inl ⟨by simp [LabelElement.printed, Printed.Native], ?_⟩
    have hkm : kmRasterOf {} e = none := by simp [kmRasterOf]
    rw [zplElementLines, hkm]
    simp only [renderZplBarcodeElement_eq]
    rfl
  | line e =>
    refine .inl ⟨by simp [LabelElement.printed, Printed.Native, lineBox], ?_⟩
    simp only [zplElementLines, renderZplLineElement, buildZplBox_eq]
    rfl
  | box e =>
    refine .inl ⟨by simp [LabelElement.printed, Printed.Native], ?_⟩
    simp only [zplElementLines, renderZplBoxElement, buildZplBox_eq]
    rfl
  | organizationLogo e => exact .inl ⟨by simp [LabelElement.printed], rfl⟩

/-- **A document is one line for each printed element**, when nothing needs a rasterizer. -/
theorem generateZpl_ok_iff : generateZpl spec data = .ok doc ↔
    (∀ p ∈ spec.printed data, p.Native) ∧
      doc = buildZplDocument (mmToDots spec.widthMm spec.dpi) (mmToDots spec.heightMm spec.dpi)
        ((spec.printed data).map fun p => zplText (p.tokens data spec.dpi)) := by
  unfold generateZpl LabelTemplateSpec.printed
  rw [bind_eq_ok]
  have hflatten : ∀ l : List LabelElement,
      (l.map fun e => (e.printed data spec.dpi).toList.map fun p =>
        zplText (p.tokens data spec.dpi)).flatten =
      (l.filterMap (·.printed data spec.dpi)).map fun p => zplText (p.tokens data spec.dpi) := by
    intro l
    induction l with
    | nil => rfl
    | cons e l ih =>
      rw [List.map_cons, List.flatten_cons, ih, List.filterMap_cons]
      cases e.printed data spec.dpi with
      | none => rfl
      | some p => rfl
  constructor
  · rintro ⟨lines, hlines, hdoc⟩
    have hnative : ∀ e ∈ spec.elements, ∀ p ∈ e.printed data spec.dpi, p.Native := by
      intro e he
      rcases @zplElementLines_eq spec data e with h | ⟨error, -, herror⟩
      · exact h.1
      · have h2 := mapM_eq_ok.1 hlines
        obtain ⟨i, hi, rfl⟩ := List.getElem_of_mem he
        have := h2.get hi (h2.length_eq ▸ hi)
        simp only [List.get_eq_getElem] at this
        rw [herror] at this
        cases this
    have hmap := mapM_eq_map hlines fun e he b hb => by
      rcases @zplElementLines_eq spec data e with ⟨-, h⟩ | ⟨error, h, -⟩
      · exact Except.ok.inj (h.symm.trans hb)
      · exact absurd (hnative e he) h
    refine ⟨fun p hp => ?_, ?_⟩
    · obtain ⟨e, he, hpe⟩ := List.mem_filterMap.1 hp
      exact hnative e he p hpe
    · rw [← pure_eq_ok.1 hdoc, hmap, hflatten]
  · rintro ⟨hnative, rfl⟩
    refine ⟨_, mapM_eq_ok.2 ?_, pure_eq_ok.2 (by rw [hflatten])⟩
    rw [List.forall₂_map_right_iff, List.forall₂_same]
    intro e he
    rcases @zplElementLines_eq spec data e with ⟨-, h⟩ | ⟨error, h, -⟩
    · exact h
    · exact absurd (fun p hp => hnative p (List.mem_filterMap.2 ⟨e, he, hp⟩)) h

end Emitted

/-! ## Elements -/

section Read

variable {data : LabelData} {dpi : PrinterDpi} {parse : ZplParse}

/-- What the importer does with the line of a printed element. -/
def Printed.read (data : LabelData) (dpi : PrinterDpi) (parse : ZplParse) (n : ℕ) (p : Printed) :
    Labels ZplParse :=
  let source := zplText (p.tokens data dpi)
  match p with
  | .text style value =>
    if ∃ width ∈ style.maxWidthMm, mmToDots width dpi ≤ 0 then
      importFail n source (encode "invalid ZPL field block width")
    else parse.close ((textState parse n source style dpi).withData [] value) dpi
  | .barcode e => (parse.barred e dpi).close (barcodeField parse n source e data dpi) dpi
  | .box x y width height thickness =>
    parse.close { parse.begun n source x y with graphic := some (width, height, thickness) } dpi

theorem Printed.tokens_ne_nil (p : Printed) : p.tokens data dpi ≠ [] := by
  cases p <;> simp [Printed.tokens, textTokens, barcodeTokens, boxTokens]

theorem Printed.readable (p : Printed) : ∀ t ∈ p.tokens data dpi, Readable t := by
  cases p with
  | text style value => exact readable_textTokens style value dpi
  | barcode e => exact readable_barcodeTokens e data dpi
  | box x y width height thickness => exact readable_boxTokens x y width height thickness

theorem zplSourceLine_tokens {tokens : List ZplToken} (hne : tokens ≠ [])
    (h : ∀ t ∈ tokens, Readable t) (n : ℕ) :
    zplSourceLine dpi parse (zplText tokens, n) =
      tokens.foldlM (zplToken dpi n (zplText tokens)) parse := by
  rw [zplSourceLine, zplTokens_zplText h]
  simp [hne]

/-- **A printed element's line is read as the element.** -/
theorem zplSourceLine_printed (h : Idle parse) (p : Printed) (n : ℕ) :
    zplSourceLine dpi parse (zplText (p.tokens data dpi), n) = p.read data dpi parse n := by
  rw [zplSourceLine_tokens p.tokens_ne_nil p.readable]
  cases p with
  | text style value => exact textTokens_run h style value
  | barcode e => exact barcodeTokens_run h e data
  | box x y width height thickness => exact boxTokens_run h x y width height thickness

theorem close_ok {st : ZplState} {parse' : ZplParse} (h : parse.close st dpi = .ok parse') :
    parse.elements.length < maxLabelCodeElements ∧ ∃ element,
      zplFieldElement st (importedElementId .zpl (parse.elements.length + 1)) dpi = .ok element ∧
        parse' = parse.added st element := by
  rw [ZplParse.close] at h
  split at h
  · cases h
  · rename_i hlimit
    obtain ⟨element, helement, rfl⟩ := map_eq_ok.1 h
    exact ⟨by omega, element, helement, rfl⟩

theorem Printed.read_idle {p : Printed} {n : ℕ} {parse' : ZplParse} (h : Idle parse)
    (hread : p.read data dpi parse n = .ok parse') : Idle parse' := by
  cases p with
  | text style value =>
    simp only [Printed.read] at hread
    split at hread
    · cases hread
    · obtain ⟨-, element, -, rfl⟩ := close_ok hread
      exact ⟨h.started, h.ended, h.state⟩
  | barcode e =>
    obtain ⟨-, element, -, rfl⟩ := close_ok hread
    exact ⟨h.started, h.ended, h.state⟩
  | box x y width height thickness =>
    obtain ⟨-, element, -, rfl⟩ := close_ok hread
    exact ⟨h.started, h.ended, h.state⟩

theorem run_printed (h : Idle parse) (ps : List Printed) (n : ℕ) :
    ((ps.map fun p => zplText (p.tokens data dpi)).zipIdx n).foldlM (zplSourceLine dpi) parse =
      (ps.zipIdx n).foldlM (fun parse x => x.1.read data dpi parse x.2) parse := by
  induction ps generalizing parse n with
  | nil => rfl
  | cons p ps ih =>
    rw [List.map_cons, List.zipIdx_cons, List.zipIdx_cons, List.foldlM_cons, List.foldlM_cons,
      zplSourceLine_printed h]
    cases hread : p.read data dpi parse n with
    | error e => rfl
    | ok parse' => exact ih (Printed.read_idle h hread) (n + 1)

theorem run_idle {ps : List Printed} {n : ℕ} {parse' : ZplParse} (h : Idle parse)
    (hrun : (ps.zipIdx n).foldlM (fun parse x => x.1.read data dpi parse x.2) parse = .ok parse') :
    Idle parse' := by
  induction ps generalizing parse n with
  | nil =>
    rw [← pure_eq_ok.1 hrun]
    exact h
  | cons p ps ih =>
    rw [List.zipIdx_cons, List.foldlM_cons] at hrun
    obtain ⟨mid, hmid, hrest⟩ := bind_eq_ok.1 hrun
    exact ih (Printed.read_idle h hmid) hrest

end Read

/-! ## The document -/

/-- What is known after the header. -/
def zplHeader (widthDots heightDots : ℤ) : ZplParse where
  widthDots := some widthDots
  heightDots := some heightDots
  started := true

theorem zplHeader_idle (w h : ℤ) : Idle (zplHeader w h) := ⟨rfl, rfl, rfl⟩

section Document

variable {dpi : PrinterDpi} {parse : ZplParse} {n : ℕ}

theorem line_XA : zplSourceLine dpi {} (zplText [(.XA, [])], n) =
    .ok ({ started := true } : ZplParse) := by
  rw [zplSourceLine_tokens (by simp) (by simpa [Readable] using Plain.nil), foldlM_last]
  rfl

theorem line_PW (h : Idle parse) (w : ℤ) : zplSourceLine dpi parse
    (zplText [(.PW, numberText w)], n) =
    .ok { parse with widthDots := some (w : ℚ) } := by
  obtain ⟨values, hvalues, hrequired⟩ :=
    @parseNumbers_one n (zplText [(.PW, numberText w)]) w [] (by simp)
  rw [List.append_nil] at hvalues
  rw [zplSourceLine_tokens (by simp) (by simpa [Readable] using plain_numberText w), foldlM_last,
    h.step]
  simp only [zplCommand, hvalues]
  show (requiredNumber values 0 n _ >>= _) = _
  rw [hrequired]
  rfl

theorem line_LL (h : Idle parse) (w : ℤ) : zplSourceLine dpi parse
    (zplText [(.LL, numberText w)], n) =
    .ok { parse with heightDots := some (w : ℚ) } := by
  obtain ⟨values, hvalues, hrequired⟩ :=
    @parseNumbers_one n (zplText [(.LL, numberText w)]) w [] (by simp)
  rw [List.append_nil] at hvalues
  rw [zplSourceLine_tokens (by simp) (by simpa [Readable] using plain_numberText w), foldlM_last,
    h.step]
  simp only [zplCommand, hvalues]
  show (requiredNumber values 0 n _ >>= _) = _
  rw [hrequired]
  rfl

theorem line_XZ (h : Idle parse) : zplSourceLine dpi parse (zplText [(.XZ, [])], n) =
    .ok { parse with ended := true } := by
  rw [zplSourceLine_tokens (by simp) (by simpa [Readable] using Plain.nil), foldlM_last, h.step]
  simp [zplCommand, h.started, h.ended, h.state]

theorem line_empty : zplSourceLine dpi parse ([], n) = .ok parse := rfl

/-- **The importer goes through the document element by element.** -/
theorem parseZplLabel_document {data : LabelData} {w h : ℤ} {ps : List Printed}
    (hlines : ∀ p ∈ ps, OneLine (zplText (p.tokens data dpi))) {doc : Units}
    (hdoc : doc = buildZplDocument w h (ps.map fun p => zplText (p.tokens data dpi))) :
    parseZplLabel doc dpi = (do
      assertImportInputLimits doc
      if maxLabelCodeCommands < doc.count 94 then
        labelFail .labelCodeLimit (encode "label code exceeds 2000 commands")
      else
        let parse ← (ps.zipIdx 4).foldlM (fun parse x => x.1.read data dpi parse x.2)
          (zplHeader w h)
        zplFinish dpi { parse with ended := true }) := by
  have hXA : encode "^XA" = zplText [(.XA, [])] := by decide
  have hXZ : encode "^XZ" = zplText [(.XZ, [])] := by decide
  have hPW : encode "^PW" ++ numberText w = zplText [(.PW, numberText w)] := by
    rw [show encode "^PW" = 94 :: ZplName.PW.text by decide]
    simp
  have hLL : encode "^LL" ++ numberText h = zplText [(.LL, numberText h)] := by
    rw [show encode "^LL" = 94 :: ZplName.LL.text by decide]
    simp
  have hsplit : splitLines doc = encode "^XA" :: (encode "^PW" ++ numberText w) ::
      (encode "^LL" ++ numberText h) :: ((ps.map fun p => zplText (p.tokens data dpi)) ++
        [encode "^XZ", []]) := by
    rw [hdoc, buildZplDocument, splitLines_join (by simp)]
    · simp
    · intro l hl
      simp only [List.cons_append, List.nil_append, List.mem_cons, List.mem_append, List.mem_map,
        List.not_mem_nil, or_false] at hl
      rcases hl with rfl | rfl | rfl | ⟨p, hp, rfl⟩ | rfl
      · unfold OneLine; decide
      · exact .append (by unfold OneLine; decide) (oneLine_numberText w)
      · exact .append (by unfold OneLine; decide) (oneLine_numberText h)
      · exact hlines p hp
      · unfold OneLine; decide
  have hrun : ((splitLines doc).zipIdx 1).foldlM (zplSourceLine dpi) {} =
      (do
        let parse ← (ps.zipIdx 4).foldlM (fun parse x => x.1.read data dpi parse x.2)
          (zplHeader w h)
        return { parse with ended := true }) := by
    have hstart : Idle ({ started := true } : ZplParse) := ⟨rfl, rfl, rfl⟩
    rw [hsplit, List.zipIdx_cons, hXA, foldlM_ok line_XA, List.zipIdx_cons, hPW,
      foldlM_ok (line_PW hstart w), List.zipIdx_cons, hLL,
      foldlM_ok (line_LL ⟨rfl, rfl, rfl⟩ h), List.zipIdx_append, List.foldlM_append]
    show (List.foldlM _ (zplHeader w h) _ >>= _) = _
    rw [run_printed (zplHeader_idle w h)]
    cases hr : (ps.zipIdx 4).foldlM (fun parse x => x.1.read data dpi parse x.2)
        (zplHeader w h) with
    | error e => rfl
    | ok parse =>
      have hidle := run_idle (zplHeader_idle w h) hr
      rw [hXZ]
      show List.foldlM _ parse (List.zipIdx _ _) = _
      rw [List.zipIdx_cons, foldlM_ok (line_XZ hidle), List.zipIdx_cons, List.zipIdx_nil,
        foldlM_last, line_empty]
      rfl
  rw [parseZplLabel, hrun]
  cases assertImportInputLimits doc with
  | error e => rfl
  | ok u =>
    show (if _ then _ else _) = (if _ then _ else _)
    split
    · rfl
    · cases (ps.zipIdx 4).foldlM (fun parse x => x.1.read data dpi parse x.2) (zplHeader w h) with
      | error e => rfl
      | ok parse => rfl

end Document

end Markiro
