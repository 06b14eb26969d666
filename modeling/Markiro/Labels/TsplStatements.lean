import Markiro.Domain.Tspl
import Markiro.Labels.Common

/-!
# The statements of a TSPL document

What the emitter writes without rasters is a sequence of statements, a line each: a command, numbers
and strings in which quotes are doubled (`generateTspl_native`).
-/

namespace Markiro

open Utf16

/-! ## Statements -/

/-- An argument: as it stands, or in quotes. -/
inductive TsplArg where
  | word (text : Units)
  | string (value : Units)
  deriving DecidableEq

def TsplArg.written : TsplArg → Units
  | .word text => text
  | .string value => tsplQuote :: (escapeTsplString value ++ [tsplQuote])

/-- A command and its arguments. -/
abbrev TsplStatement := Units × List TsplArg

def TsplStatement.written (st : TsplStatement) : Units :=
  if st.2 = [] then st.1 else st.1 ++ 32 :: joinWith [44] (st.2.map TsplArg.written)

/-- A whole number as an argument. -/
def dots (n : ℤ) : TsplArg := .word (numberText n)

/-- A document of statements. -/
def tsplText (statements : List TsplStatement) : Units :=
  statements.flatMap fun st => st.written ++ [lineFeed]

def textStatements (style : LabelTextStyle) (value : Units) (dpi : PrinterDpi) :
    List TsplStatement :=
  (wrapNativeText style value).zipIdx.map fun (line, i) => (encode "TEXT",
    [dots (mmToDots style.xMm dpi + nativeAlignOffsetDots style line
      (style.maxWidthMm.map (mmToDots · dpi)) dpi),
      dots (mmToDots style.yMm dpi + i * mmToDots (ptToMm style.fontSizePt * (3 / 2)) dpi),
      .string (encode "0"), .word (encode "0"), .word (numberText style.fontSizePt),
      .word (numberText style.fontSizePt), .string line])

def narrowDots (e : LabelBarcodeElement) (dpi : PrinterDpi) : ℤ :=
  match e.moduleWidthMm with
  | none => 2
  | some width => max 1 (mmToDots width dpi)

def tsplBarcodeValue (e : LabelBarcodeElement) (data : LabelData) : Units :=
  if e.format = .code128 ∧ e.data = .field .sscc then encode "00" ++ data .sscc
  else (resolveBarcodeSource e.data data).1

def linearStatement (type : Units) (e : LabelBarcodeElement) (data : LabelData) (dpi : PrinterDpi) :
    TsplStatement :=
  (encode "BARCODE", [dots (mmToDots e.xMm dpi), dots (mmToDots e.yMm dpi), .string type,
    dots (mmToDots e.sizeMm dpi), .word (encode "0"), .word (encode "0"), dots (narrowDots e dpi),
    dots (narrowDots e dpi), .string (tsplBarcodeValue e data)])

def barcodeStatement (e : LabelBarcodeElement) (data : LabelData) (dpi : PrinterDpi) :
    TsplStatement :=
  match e.format with
  | .code128 =>
    linearStatement (if e.data = .field .sscc then encode "EAN128" else encode "128") e data dpi
  | .ean13 => linearStatement (encode "EAN13") e data dpi
  | .datamatrix => (encode "DMATRIX", [dots (mmToDots e.xMm dpi), dots (mmToDots e.yMm dpi),
      dots (mmToDots e.sizeMm dpi), dots (mmToDots e.sizeMm dpi),
      .string (tsplBarcodeValue e data)])
  | .qr => (encode "QRCODE", [dots (mmToDots e.xMm dpi), dots (mmToDots e.yMm dpi),
      .word (encode "M"), dots (max 1 (min 10 (mmToDots e.sizeMm dpi))), .word (encode "A"),
      .word (encode "0"), .string (tsplBarcodeValue e data)])

def barStatement (x y width height : ℤ) : TsplStatement :=
  (encode "BAR", [dots x, dots y, dots width, dots height])

def boxStatement (x y width height thickness : ℤ) : TsplStatement :=
  (encode "BOX", [dots x, dots y, dots (x + width), dots (y + height), dots thickness])

def LabelElement.statements (data : LabelData) (dpi : PrinterDpi) :
    LabelElement → List TsplStatement
  | .text e => textStatements e.toLabelTextStyle e.text dpi
  | .field e => textStatements e.toLabelTextStyle (displayText e data) dpi
  | .barcode e => [barcodeStatement e data dpi]
  | .line e =>
    let thicknessDots := mmToDots e.thicknessMm dpi
    [barStatement (mmToDots (min e.xMm e.x2Mm) dpi) (mmToDots (min e.yMm e.y2Mm) dpi)
      (max (mmToDots |e.x2Mm - e.xMm| dpi) thicknessDots)
      (max (mmToDots |e.y2Mm - e.yMm| dpi) thicknessDots)]
  | .box e => [boxStatement (mmToDots e.xMm dpi) (mmToDots e.yMm dpi) (mmToDots e.widthMm dpi)
      (mmToDots e.heightMm dpi) (mmToDots e.thicknessMm dpi)]
  | .organizationLogo _ => []

/-- The statements before the elements. -/
def tsplHeader (widthMm heightMm : ℚ) : List TsplStatement :=
  [(encode "SIZE", [.word (numberText widthMm ++ encode " mm"),
      .word (encode " " ++ numberText heightMm ++ encode " mm")]),
    (encode "GAP", [.word (encode "2 mm"), .word (encode " 0 mm")]),
    (encode "DIRECTION", [.word (encode "1")]), (encode "CLS", [])]

def tsplFooter : TsplStatement := (encode "PRINT", [.word (encode "1")])

/-- The statements of a template that is printed natively. -/
def LabelTemplateSpec.statements (spec : LabelTemplateSpec) (data : LabelData) :
    List TsplStatement :=
  tsplHeader spec.widthMm spec.heightMm ++ spec.elements.flatMap (·.statements data spec.dpi) ++
    [tsplFooter]

/-! ## What is written -/

section Written

variable {data : LabelData} {dpi : PrinterDpi} {deps : EmitDeps}

@[simp] theorem join_singleton (sep s : Units) : joinWith sep [s] = s := by simp [joinWith]

@[simp] theorem join_cons_cons (sep s t : Units) (rest : List Units) :
    joinWith sep (s :: t :: rest) = s ++ (sep ++ joinWith sep (t :: rest)) := by
  simp [joinWith]

theorem TsplStatement.written_cons (name : Units) (a : TsplArg) (args : List TsplArg) :
    TsplStatement.written (name, a :: args) =
      name ++ 32 :: joinWith [44] ((a :: args).map TsplArg.written) := by
  rw [TsplStatement.written, if_neg (by simp)]

theorem encode_quote : encode "\"" = [tsplQuote] := by decide

theorem encode_tsplComma : encode "," = [44] := by decide

theorem encode_openString : encode ",\"" = [44, tsplQuote] := by decide

theorem encode_closeString : encode "\"," = [tsplQuote, 44] := by decide

theorem tsplTextCommand_eq (x y : ℤ) (size : ℚ) (line : Units) :
    tsplTextCommand x y size line = TsplStatement.written (encode "TEXT",
      [dots x, dots y, .string (encode "0"), .word (encode "0"), .word (numberText size),
        .word (numberText size), .string line]) := by
  have hname : encode "TEXT " = encode "TEXT" ++ [32] := by decide
  have hfont : encode ",\"0\",0," = 44 :: tsplQuote :: (escapeTsplString (encode "0") ++
      [tsplQuote, 44] ++ encode "0" ++ [44]) := by decide
  rw [tsplTextCommand, TsplStatement.written_cons, hname, hfont, encode_tsplComma, encode_openString,
    encode_quote]
  simp [TsplArg.written, dots]

theorem buildTsplBar_eq (x y width height : ℤ) :
    buildTsplBar x y width height = (barStatement x y width height).written := by
  have hname : encode "BAR " = encode "BAR" ++ [32] := by decide
  rw [buildTsplBar, barStatement, TsplStatement.written_cons, hname, encode_tsplComma]
  simp [TsplArg.written, dots]

theorem buildTsplBox_eq (x y width height thickness : ℤ) :
    buildTsplBox x y width height thickness =
      (boxStatement x y width height thickness).written := by
  have hname : encode "BOX " = encode "BOX" ++ [32] := by decide
  rw [buildTsplBox, boxStatement, TsplStatement.written_cons, hname, encode_tsplComma]
  simp [TsplArg.written, dots]

theorem barWidthParams_eq (e : LabelBarcodeElement) :
    barWidthParams e dpi = numberText (narrowDots e dpi) ++ 44 :: numberText
    (narrowDots e dpi) := by
  rw [barWidthParams, encode_tsplComma, narrowDots]
  cases e.moduleWidthMm with
  | none => simp
  | some width => simp

theorem renderTsplBarcodeElement_eq (e : LabelBarcodeElement) :
    renderTsplBarcodeElement e data dpi = (barcodeStatement e data dpi).written := by
  have hbarcode : encode "BARCODE " = encode "BARCODE" ++ [32] := by decide
  have hdmatrix : encode "DMATRIX " = encode "DMATRIX" ++ [32] := by decide
  have hqrcode : encode "QRCODE " = encode "QRCODE" ++ [32] := by decide
  have hzeros : encode ",0,0," = 44 :: (encode "0" ++ 44 :: (encode "0" ++ [44])) := by decide
  have hM : encode ",M," = 44 :: (encode "M" ++ [44]) := by decide
  have hA : encode ",A,0,\"" = 44 :: (encode "A" ++ 44 :: (encode "0" ++ [44, tsplQuote])) := by
    decide
  have hean : encode ",\"EAN13\"," = 44 :: tsplQuote :: (escapeTsplString (encode "EAN13") ++
      [tsplQuote, 44]) := by decide
  unfold renderTsplBarcodeElement barcodeStatement
  cases hformat : e.format with
  | code128 =>
    by_cases hsscc : e.data = .field .sscc
    · have hvalue : tsplBarcodeValue e data = encode "00" ++ data .sscc := if_pos ⟨hformat, hsscc⟩
      have htype : escapeTsplString (encode "EAN128") = encode "EAN128" := by decide
      simp only [linearStatement, TsplStatement.written_cons, hvalue, hsscc, resolveBarcodeSource,
        if_true, hbarcode, hzeros, encode_tsplComma, encode_openString, encode_closeString,
        encode_quote, barWidthParams_eq]
      simp [TsplArg.written, dots, htype]
    · have hvalue : tsplBarcodeValue e data = (resolveBarcodeSource e.data data).1 :=
        if_neg fun h => hsscc h.2
      have hfield : (resolveBarcodeSource e.data data).2 ≠ some .sscc := by
        cases hd : e.data with
        | literal text => simp [resolveBarcodeSource]
        | field f =>
          intro hf
          rw [resolveBarcodeSource, Option.some.injEq] at hf
          exact hsscc (by rw [hd, hf])
      have htype : escapeTsplString (encode "128") = encode "128" := by decide
      simp only [linearStatement, TsplStatement.written_cons, hvalue, hsscc, hfield, if_false,
        hbarcode, hzeros, encode_tsplComma, encode_openString, encode_closeString, encode_quote,
        barWidthParams_eq]
      simp [TsplArg.written, dots, htype]
  | ean13 =>
    have hvalue : tsplBarcodeValue e data = (resolveBarcodeSource e.data data).1 :=
      if_neg fun h => by simp [hformat] at h
    simp only [linearStatement, TsplStatement.written_cons, hvalue, hbarcode, hzeros, hean,
      encode_tsplComma, encode_openString, encode_quote, barWidthParams_eq]
    simp [TsplArg.written, dots]
  | datamatrix =>
    have hvalue : tsplBarcodeValue e data = (resolveBarcodeSource e.data data).1 :=
      if_neg fun h => by simp [hformat] at h
    simp only [TsplStatement.written_cons, hvalue, hdmatrix, encode_tsplComma, encode_openString,
      encode_quote]
    simp [TsplArg.written, dots]
  | qr =>
    have hvalue : tsplBarcodeValue e data = (resolveBarcodeSource e.data data).1 :=
      if_neg fun h => by simp [hformat] at h
    simp only [TsplStatement.written_cons, hvalue, hqrcode, hM, hA, encode_tsplComma, encode_quote]
    simp [TsplArg.written, dots]

theorem wrapTextToWidth_ne_nil (text : Units) (measure : Units → ℚ) (maxWidth : ℚ) (n : ℚ) :
    wrapTextToWidth text measure maxWidth n ≠ [] := by
  unfold wrapTextToWidth
  split
  · simp
  simp only
  split
  · simp
  split
  · simp
  split
  · assumption
  · simp

theorem wrapNativeText_ne_nil (style : LabelTextStyle) (text : Units) :
    wrapNativeText style text ≠ [] := by
  unfold wrapNativeText
  split
  · simp
  · exact wrapTextToWidth_ne_nil _ _ _ _

structure PrintedNatively (deps : EmitDeps) (dpi : PrinterDpi) (data : LabelData)
    (e : LabelElement) : Prop where
  choice : rasterChoice deps dpi data e = none
  logo : ∀ l, e = .organizationLogo l → deps.logo = none

theorem renderTsplTextLikeElement_native {style : LabelTextStyle} {text : Units}
    (h : isRasterized style text = false) :
    ∃ line, renderTsplTextLikeElement style text dpi deps = .ok line ∧
      line ++ [lineFeed] = tsplText (textStatements style text dpi) := by
  have hjoin : joinWith [lineFeed] ((textStatements style text dpi).map TsplStatement.written) ++
      [lineFeed] = tsplText (textStatements style text dpi) := by
    rw [join_eq_flatMap (by simp [textStatements, wrapNativeText_ne_nil]), tsplText,
      List.flatMap_map]
  refine ⟨_, ?_, hjoin⟩
  unfold renderTsplTextLikeElement textStatements
  simp only [h, Bool.false_eq_true, if_false, List.map_map, tsplTextCommand_eq]
  rfl

theorem tsplElementLines_native {spec : LabelTemplateSpec} {e : LabelElement}
    (h : PrintedNatively deps spec.dpi data e) :
    ∃ lines, tsplElementLines spec data deps e = .ok lines ∧
      lines.flatMap (· ++ [lineFeed]) = tsplText (e.statements data spec.dpi) := by
  have hchoice := h.choice
  cases e with
  | organizationLogo l =>
    refine ⟨[], ?_, rfl⟩
    rw [tsplElementLines, h.logo l rfl]
  | text e =>
    have hnative : isRasterized e.toLabelTextStyle e.text = false := by
      simpa [rasterChoice] using hchoice
    obtain ⟨line, hline, htext⟩ := @renderTsplTextLikeElement_native spec.dpi deps _ _ hnative
    refine ⟨[line], ?_, by simpa [LabelElement.statements] using htext⟩
    rw [tsplElementLines, hline]
    rfl
  | field e =>
    have hnative : isRasterized e.toLabelTextStyle (displayText e data) = false := by
      simpa [rasterChoice] using hchoice
    obtain ⟨line, hline, htext⟩ := @renderTsplTextLikeElement_native spec.dpi deps _ _ hnative
    refine ⟨[line], ?_, by simpa [LabelElement.statements] using htext⟩
    simp only [tsplElementLines, labelFieldDisplayValue_eq, hline]
    rfl
  | barcode e =>
    have hkm : kmRasterOf deps e = none := by simpa [rasterChoice] using hchoice
    refine ⟨[(barcodeStatement e data spec.dpi).written], ?_, rfl⟩
    rw [tsplElementLines, hkm]
    simp only [renderTsplBarcodeElement_eq]
  | line e =>
    refine ⟨_, rfl, ?_⟩
    simp only [renderTsplLineElement, buildTsplBar_eq]
    rfl
  | box e =>
    refine ⟨_, rfl, ?_⟩
    simp only [renderTsplBoxElement, buildTsplBox_eq]
    rfl

theorem tsplText_append (a b : List TsplStatement) :
    tsplText (a ++ b) = tsplText a ++ tsplText b := List.flatMap_append

theorem tsplHeader_written (widthMm heightMm : ℚ) :
    [encode "SIZE " ++ numberText widthMm ++ encode " mm, " ++ numberText heightMm ++
      encode " mm", encode "GAP 2 mm, 0 mm", encode "DIRECTION 1", encode "CLS"] =
      (tsplHeader widthMm heightMm).map TsplStatement.written := by
  have hsize : encode "SIZE " = encode "SIZE" ++ [32] := by decide
  have hmm : encode " mm, " = encode " mm" ++ 44 :: encode " " := by decide
  have hgap : encode "GAP 2 mm, 0 mm" = encode "GAP" ++ 32 :: (encode "2 mm" ++ 44 ::
      encode " 0 mm") := by decide
  have hdirection : encode "DIRECTION 1" = encode "DIRECTION" ++ 32 :: encode "1" := by
    decide
  rw [tsplHeader, hsize, hmm, hgap, hdirection]
  simp [TsplStatement.written, TsplArg.written]

/-- **A document without rasters is the statements of its template.** -/
theorem generateTspl_native {spec : LabelTemplateSpec}
    (h : ∀ e ∈ spec.elements, PrintedNatively deps spec.dpi data e) :
    generateTspl spec data deps = .ok (tsplText (spec.statements data)) := by
  have helements : ∀ es : List LabelElement, (∀ e ∈ es, PrintedNatively deps spec.dpi data e) →
      ∃ lines, es.mapM (tsplElementLines spec data deps) = .ok lines ∧
        lines.flatten.flatMap (· ++ [lineFeed]) =
          tsplText (es.flatMap (·.statements data spec.dpi)) := by
    intro es hes
    induction es with
    | nil => exact ⟨[], rfl, rfl⟩
    | cons e es ih =>
      obtain ⟨lines, hlines, htext⟩ := tsplElementLines_native (hes e List.mem_cons_self)
      obtain ⟨rest, hrest, htexts⟩ := ih fun e he => hes e (List.mem_cons_of_mem _ he)
      refine ⟨lines :: rest, Results.mapM_eq_ok.2 (.cons hlines (Results.mapM_eq_ok.1 hrest)), ?_⟩
      rw [List.flatten_cons, List.flatMap_append, htext, htexts, List.flatMap_cons, tsplText_append]
  obtain ⟨lines, hlines, htext⟩ := helements spec.elements h
  have hfooter : encode "PRINT 1" = tsplFooter.written := by decide
  rw [generateTspl, hlines]
  show Except.ok _ = Except.ok _
  rw [buildTsplDocument, join_eq_flatMap (by simp), tsplHeader_written, hfooter,
    List.flatMap_append, List.flatMap_append, htext, LabelTemplateSpec.statements, tsplText_append,
    tsplText_append]
  simp [tsplText, List.flatMap_map]

end Written

end Markiro
