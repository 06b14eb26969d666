import Markiro.Labels.ZplElements

/-!
# Label data stays data

A printer takes a ZPL document as commands, each begun by `^` or `~`, and the data of a `^FD` after an
`^FH` by the hexadecimal rule (`readZpl`). Read so, a document is its template's commands with the
bound values in their places (`readZpl_generateZpl`), whatever the values are.
-/

namespace Markiro

open Utf16 Results

/-! ## Reading as a printer -/

/-- What a printer takes: a command with its arguments, or data, with the FNC1 flag or without. -/
inductive ZplItem where
  | command (text : Units)
  | data (fnc1 : Bool) (value : Units)
  deriving DecidableEq

/-- The data is left out. -/
def ZplItem.blank : ZplItem → ZplItem
  | .command text => .command text
  | .data fnc1 _ => .data fnc1 []

/-- `^` and `~` begin a command. -/
def isCommandMark (u : UInt16) : Bool := u == 94 || u == 126

/-- The commands of a document, each with its arguments. -/
def zplCommandTexts (doc : Units) : List Units := (doc.splitOnP isCommandMark).drop 1

def hexRule (indicator : UInt16) : Units → Units
  | u :: a :: b :: rest =>
    if u = indicator ∧ isHexDigit a = true ∧ isHexDigit b = true then
      UInt16.ofNat ((hexValue a).getD 0 * 16 + (hexValue b).getD 0) :: hexRule indicator rest
    else u :: hexRule indicator (a :: b :: rest)
  | short => short

/-- Data under an indicator: the indicator and a `1` at the beginning are the FNC1 flag. -/
def readData (indicator : UInt16) (data : Units) : ZplItem :=
  if [indicator, 49].isPrefixOf data then .data true (hexRule indicator (data.drop 2))
  else .data false (hexRule indicator data)

/-- Whether a command has a name. -/
def isNamed (name : ZplName) (text : Units) : Bool := name.text.isPrefixOf text

/-- The items of a list of commands: an `^FH` belongs to the `^FD` it stands before. -/
def readItems : List Units → List ZplItem
  | c :: d :: rest =>
    if isNamed .FH c && isNamed .FD d then
      readData ((c.drop 2).headD 95) (d.drop 2) :: readItems rest
    else (if isNamed .FD c then .data false (c.drop 2) else .command c) :: readItems (d :: rest)
  | [c] => [if isNamed .FD c then .data false (c.drop 2) else .command c]
  | [] => []

def readZpl (doc : Units) : List ZplItem := readItems (zplCommandTexts doc)

/-! ## A template's fields -/

structure ZplField where
  setup : List ZplToken
  data : Option (Bool × Units)

/-- The commands of data. -/
def fieldData : Option (Bool × Units) → List ZplToken
  | none => []
  | some (true, value) =>
    [(.FH, [95]), (.FD, encode "_1" ++ value.flatMap (escapeUnit true))]
  | some (false, value) =>
    if value.any isSpecial then [(.FH, [95]), (.FD, escapeSpecials value)] else [(.FD, value)]

def ZplField.tokens (f : ZplField) : List ZplToken := f.setup ++ fieldData f.data ++ [(.FS, [])]

def rasterField (x y : ℤ) (r : RasterResult) : ZplField where
  setup := [(.FO, pair x y), (.other (encode "GF"), encode "A," ++ numberText r.totalBytes ++
    44 :: (numberText r.totalBytes ++ 44 :: (numberText r.bytesPerRow ++ 44 :: r.hex)))]
  data := none

def textField (style : LabelTextStyle) (value : Units) (dpi : PrinterDpi) : ZplField where
  setup := (.FO, pair (mmToDots style.xMm dpi) (mmToDots style.yMm dpi)) ::
    (.A0, encode "N," ++ pair (ptToDots style.fontSizePt dpi) (ptToDots style.fontSizePt dpi)) ::
    blockTokens style dpi
  data := some (false, value)

/-- The commands of a barcode before its data. -/
def barcodeSetup (e : LabelBarcodeElement) (dpi : PrinterDpi) : List ZplToken :=
  let size := mmToDots e.sizeMm dpi
  (.FO, pair (mmToDots e.xMm dpi) (mmToDots e.yMm dpi)) ::
    match e.format with
    | .code128 => barWidthTokens e dpi ++ [(.BC, encode "N," ++ numberText size ++ encode ",N,N,N")]
    | .ean13 => barWidthTokens e dpi ++ [(.BE, encode "N," ++ numberText size)]
    | .datamatrix => [(.BX, encode "N," ++ numberText size ++ encode ",200,,,,_")]
    | .qr => [(.BQ, encode "N,2," ++ numberText (max 1 (min 10 size) : ℤ))]

/-- What the format puts before a barcode's value, besides the FNC1 flag. -/
def barcodeLead (e : LabelBarcodeElement) : Units :=
  match e.format with
  | .code128 => if e.data = .field .sscc then encode ">;>800" else []
  | .qr => encode "QA,"
  | _ => []

def barcodeZplField (e : LabelBarcodeElement) (data : LabelData) (dpi : PrinterDpi) : ZplField where
  setup := barcodeSetup e dpi
  data := some (decide (isKmDataMatrix e), barcodeLead e ++ (resolveBarcodeSource e.data data).1)

def boxField (x y width height thickness : ℤ) : ZplField where
  setup := [(.FO, pair x y), (.GB, numberText width ++ 44 :: pair height thickness)]
  data := none

def textZplField (style : LabelTextStyle) (value : Units) (dpi : PrinterDpi) (deps : EmitDeps) :
    Labels ZplField :=
  if isRasterized style value then do
    let raster ← rasterOf deps style value dpi
    return rasterField (mmToDots style.xMm dpi + rasterAlignOffsetDots style.align
      (style.maxWidthMm.map (mmToDots · dpi)) raster.width) (mmToDots style.yMm dpi) raster
  else .ok (textField style value dpi)

def zplFields (dpi : PrinterDpi) (data : LabelData) (deps : EmitDeps) :
    LabelElement → Labels (List ZplField)
  | .organizationLogo e =>
    match deps.logo with
    | none => .ok []
    | some renderLabelLogo => do
      let (xDots, yDots, raster) ← renderLabelLogo e dpi
      return [rasterField xDots yDots raster]
  | .text e => (textZplField e.toLabelTextStyle e.text dpi deps).map fun f => [f]
  | .field e => (textZplField e.toLabelTextStyle (displayText e data) dpi deps).map fun f => [f]
  | .barcode e =>
    match kmRasterOf deps e with
    | some rasterizeGs1DataMatrix =>
      (rasterizeGs1DataMatrix (data .kmCode) (mmToDots e.sizeMm dpi)).map fun raster =>
        [rasterField (mmToDots e.xMm dpi) (mmToDots e.yMm dpi) raster]
    | none => .ok [barcodeZplField e data dpi]
  | .line e =>
    let thicknessDots := mmToDots e.thicknessMm dpi
    .ok [boxField (mmToDots (min e.xMm e.x2Mm) dpi) (mmToDots (min e.yMm e.y2Mm) dpi)
      (max (mmToDots |e.x2Mm - e.xMm| dpi) thicknessDots)
      (max (mmToDots |e.y2Mm - e.yMm| dpi) thicknessDots) thicknessDots]
  | .box e => .ok [boxField (mmToDots e.xMm dpi) (mmToDots e.yMm dpi) (mmToDots e.widthMm dpi)
      (mmToDots e.heightMm dpi) (mmToDots e.thicknessMm dpi)]

/-! ## The emitter writes the fields -/

section Written

variable {data : LabelData} {dpi : PrinterDpi} {deps : EmitDeps}

theorem dataTokens_eq {lead : Units} (hlead : lead.any isSpecial = false) (value : Units) :
    dataTokens lead value = fieldData (some (false, lead ++ value)) ++ [(.FS, [])] := by
  by_cases h : value.any isSpecial = true
  · simp [dataTokens, fieldData, hlead, h, escapeSpecials_append, escapeSpecials_plain hlead]
  · simp [dataTokens, fieldData, hlead, h]

theorem textTokens_eq (style : LabelTextStyle) (value : Units) :
    textTokens style value dpi = (textField style value dpi).tokens := by
  rw [textTokens, dataTokens_eq rfl]
  simp [ZplField.tokens, textField]

theorem barcodeTokens_eq (e : LabelBarcodeElement) :
    barcodeTokens e data dpi = (barcodeZplField e data dpi).tokens := by
  unfold barcodeTokens ZplField.tokens barcodeZplField barcodeSetup
  cases hformat : e.format with
  | code128 =>
    have hkm : ¬isKmDataMatrix e := fun h => by simp [h.1] at hformat
    have hvalue : barcodeLead e ++ (resolveBarcodeSource e.data data).1 = barcodeValue e data := by
      unfold barcodeLead barcodeValue
      by_cases hs : e.data = .field .sscc
      · simp [hformat, hs, resolveBarcodeSource]
      · simp [hformat, hs]
    simp only [hvalue, dataTokens_eq (show ([] : Units).any isSpecial = false from rfl)]
    simp [hkm]
  | ean13 =>
    have hkm : ¬isKmDataMatrix e := fun h => by simp [h.1] at hformat
    have hvalue : barcodeLead e ++ (resolveBarcodeSource e.data data).1 = barcodeValue e data := by
      simp [barcodeLead, barcodeValue, hformat]
    simp only [hvalue, dataTokens_eq (show ([] : Units).any isSpecial = false from rfl)]
    simp [hkm]
  | datamatrix =>
    have hvalue : barcodeLead e ++ (resolveBarcodeSource e.data data).1 = barcodeValue e data := by
      simp [barcodeLead, barcodeValue, hformat]
    by_cases hkm : isKmDataMatrix e
    · have hcode : barcodeValue e data = data .kmCode := by
        simp [barcodeValue, hkm.1, hkm.2, resolveBarcodeSource]
      simp only [hvalue, hcode, hkm, decide_true, if_true, fieldData, replaceAll_escapeSpecials]
      rfl
    · simp only [hvalue, dataTokens_eq (show ([] : Units).any isSpecial = false from rfl)]
      simp [hkm]
  | qr =>
    have hkm : ¬isKmDataMatrix e := fun h => by simp [h.1] at hformat
    have hvalue : barcodeLead e ++ (resolveBarcodeSource e.data data).1 =
        encode "QA," ++ barcodeValue e data := by
      simp [barcodeLead, barcodeValue, hformat]
    simp only [hvalue, dataTokens_eq (show (encode "QA,").any isSpecial = false by decide)]
    simp [hkm]

theorem rasterField_text (x y : ℤ) (r : RasterResult) :
    fieldOrigin x y ++ buildGfaCommand r ++ encode "^FS" = zplText (rasterField x y r).tokens := by
  have hGF : encode "^GFA," = 94 :: (encode "GF" ++ encode "A,") := by decide
  rw [fieldOrigin_eq, buildGfaCommand, hGF, encode_FS, encode_comma]
  simp [ZplField.tokens, rasterField, fieldData, ZplName.text]

theorem textZplField_text (style : LabelTextStyle) (value : Units) :
    renderZplTextLikeElement style value dpi deps =
      (textZplField style value dpi deps).map fun f => zplText f.tokens := by
  by_cases h : isRasterized style value = true
  · rw [renderZplTextLikeElement, textZplField]
    simp only [h, if_true]
    cases rasterOf deps style value dpi with
    | error e => rfl
    | ok raster =>
      show Except.ok _ = Except.ok _
      rw [rasterField_text]
  · rw [Bool.not_eq_true] at h
    rw [renderZplTextLikeElement_native h, textZplField, textTokens_eq]
    simp only [h, Bool.false_eq_true, if_false]
    rfl

/-- **The lines of an element are those of its fields.** -/
theorem zplElementLines_fields (spec : LabelTemplateSpec) (e : LabelElement) :
    zplElementLines spec data deps e =
      (zplFields spec.dpi data deps e).map (List.map fun f => zplText f.tokens) := by
  cases e with
  | organizationLogo e =>
    rw [zplElementLines, zplFields]
    cases deps.logo with
    | none => rfl
    | some renderLabelLogo =>
      simp only
      cases renderLabelLogo e spec.dpi with
      | error error => rfl
      | ok place =>
        show Except.ok _ = Except.ok _
        rw [rasterField_text]
        rfl
  | text e =>
    rw [zplElementLines, zplFields, textZplField_text]
    cases textZplField e.toLabelTextStyle e.text spec.dpi deps with
    | error error => rfl
    | ok f => rfl
  | field e =>
    simp only [zplElementLines, zplFields, labelFieldDisplayValue_eq, textZplField_text]
    cases textZplField e.toLabelTextStyle (displayText e data) spec.dpi deps with
    | error error => rfl
    | ok f => rfl
  | barcode e =>
    rw [zplElementLines, zplFields]
    cases kmRasterOf deps e with
    | none =>
      simp only [renderZplBarcodeElement_eq, barcodeTokens_eq]
      rfl
    | some rasterizeGs1DataMatrix =>
      simp only
      cases rasterizeGs1DataMatrix (data .kmCode) (mmToDots e.sizeMm spec.dpi) with
      | error error => rfl
      | ok raster =>
        show Except.ok _ = Except.ok _
        rw [rasterField_text]
        rfl
  | line e =>
    simp only [zplElementLines, zplFields, renderZplLineElement, buildZplBox_eq]
    rfl
  | box e =>
    simp only [zplElementLines, zplFields, renderZplBoxElement, buildZplBox_eq]
    rfl

end Written

/-! ## Reading the fields -/

/-- A command of the template: a name of two letters that is neither `FH` nor `FD`, and arguments in
which no command begins. -/
structure Setup (t : ZplToken) : Prop where
  name : t.1 ∈ supportedZplNames ∨ t.1 = .other (encode "GF")
  notData : t.1 ≠ .FH ∧ t.1 ≠ .FD
  plain : Plain t.2

/-- A command as a printer reads it. -/
def ZplToken.item (t : ZplToken) : ZplItem := .command (t.1.text ++ t.2)

def ZplField.items (f : ZplField) : List ZplItem :=
  f.setup.map ZplToken.item ++ (f.data.map fun d => .data d.1 d.2).toList ++
    [.command (ZplName.FS.text ++ [lineFeed])]

section Reading

theorem hexRule_escapeUnit (gs : Bool) (u : UInt16) (rest : Units) :
    hexRule 95 (escapeUnit gs u ++ rest) = u :: hexRule 95 rest := by
  have hhex : ∀ a b, isHexDigit a = true → isHexDigit b = true →
      hexRule 95 (95 :: a :: b :: rest) =
        UInt16.ofNat ((hexValue a).getD 0 * 16 + (hexValue b).getD 0) :: hexRule 95 rest := by
    intro a b ha hb
    rw [hexRule, if_pos ⟨rfl, ha, hb⟩]
  unfold escapeUnit
  split
  · rename_i h
    rcases isSpecial_cases h with rfl | rfl | rfl
    · exact hhex 53 69 (by decide) (by decide)
    · exact hhex 55 69 (by decide) (by decide)
    · exact hhex 53 70 (by decide) (by decide)
  · rename_i h
    split
    · rename_i hg
      have hu : u = GS := by
        rw [Bool.and_eq_true, beq_iff_eq] at hg
        exact hg.2
      have h1D : encode "_1D" = [95, 49, 68] := by decide
      rw [hu, h1D]
      exact hhex 49 68 (by decide) (by decide)
    · have hne : u ≠ 95 := by
        rintro rfl
        exact h (by decide)
      rw [List.singleton_append]
      match rest with
      | [] => rfl
      | [_] => rfl
      | a :: b :: rest => rw [hexRule, if_neg fun hc => hne hc.1]

theorem hexRule_escaped (gs : Bool) (s : Units) : hexRule 95 (s.flatMap (escapeUnit gs)) = s := by
  induction s with
  | nil => rfl
  | cons u s ih => rw [List.flatMap_cons, hexRule_escapeUnit, ih]

/-- No value is taken for the FNC1 flag. -/
theorem escaped_not_fnc1 (s : Units) :
    ([95, 49] : Units).isPrefixOf (s.flatMap (escapeUnit false)) = false := by
  cases s with
  | nil => rfl
  | cons u s =>
    have hunit : ∀ rest, ([95, 49] : Units).isPrefixOf (escapeUnit false u ++ rest) = false := by
      intro rest
      unfold escapeUnit
      split
      · rename_i h
        rcases isSpecial_cases h with rfl | rfl | rfl
        · rfl
        · rfl
        · rfl
      · rename_i h
        have hne : u ≠ 95 := by
          rintro rfl
          exact h (by decide)
        simp only [Bool.false_and, Bool.false_eq_true, if_false, List.singleton_append,
          List.isPrefixOf, Bool.and_eq_false_iff, beq_eq_false_iff_ne]
        exact .inl fun h95 => hne h95.symm
    rw [List.flatMap_cons]
    exact hunit _

theorem readData_escaped (value : Units) :
    readData 95 (escapeSpecials value) = .data false value := by
  rw [readData, escapeSpecials_eq, escaped_not_fnc1, hexRule_escaped]
  rfl

theorem readData_fnc1 (value : Units) :
    readData 95 (encode "_1" ++ value.flatMap (escapeUnit true)) = .data true value := by
  have h1 : encode "_1" = [95, 49] := by decide
  rw [readData, h1]
  simp [hexRule_escaped]

theorem readItems_cons {c : Units} (h : isNamed .FH c = false) (rest : List Units) :
    readItems (c :: rest) =
      (if isNamed .FD c then .data false (c.drop 2) else .command c) :: readItems rest := by
  cases rest with
  | nil => rfl
  | cons d rest => simp only [readItems, h, Bool.false_and, Bool.false_eq_true, if_false]

theorem isNamed_self (name : ZplName) (args : Units) : isNamed name (name.text ++ args) = true :=
  List.isPrefixOf_iff_prefix.2 (List.prefix_append _ _)

/-- The name of a command of the template is not that of data. -/
theorem Setup.isNamed {t : ZplToken} (h : Setup t) :
    isNamed .FH (t.1.text ++ t.2) = false ∧ isNamed .FD (t.1.text ++ t.2) = false := by
  have hall : ∀ name ∈ supportedZplNames, name ≠ .FH → name ≠ .FD →
      ∃ a ∈ name.text.head?, ∃ b ∈ name.text.getLast?, name.text = [a, b] ∧
        ¬(a = 70 ∧ b = 72) ∧ ¬(a = 70 ∧ b = 68) := by
    decide
  have hpair : ∃ a b, t.1.text = [a, b] ∧ ¬(a = 70 ∧ b = 72) ∧ ¬(a = 70 ∧ b = 68) := by
    rcases h.name with hname | hname
    · obtain ⟨a, -, b, -, htext, h1, h2⟩ := hall _ hname h.notData.1 h.notData.2
      exact ⟨a, b, htext, h1, h2⟩
    · rw [hname]
      exact ⟨71, 70, by decide, by decide, by decide⟩
  obtain ⟨a, b, htext, h1, h2⟩ := hpair
  have hFH : ZplName.FH.text = [70, 72] := by decide
  have hFD : ZplName.FD.text = [70, 68] := by decide
  rw [Markiro.isNamed, Markiro.isNamed, htext, hFH, hFD]
  constructor
  · rw [Bool.eq_false_iff]
    intro hp
    simp only [List.cons_append, List.isPrefixOf, Bool.and_eq_true, beq_iff_eq] at hp
    exact h1 ⟨hp.1.symm, hp.2.1.symm⟩
  · rw [Bool.eq_false_iff]
    intro hp
    simp only [List.cons_append, List.isPrefixOf, Bool.and_eq_true, beq_iff_eq] at hp
    exact h2 ⟨hp.1.symm, hp.2.1.symm⟩

theorem readItems_setup {setup : List ZplToken} (h : ∀ t ∈ setup, Setup t) (rest : List Units) :
    readItems (setup.map (fun t => t.1.text ++ t.2) ++ rest) =
      setup.map ZplToken.item ++ readItems rest := by
  induction setup with
  | nil => rfl
  | cons t setup ih =>
    obtain ⟨hFH, hFD⟩ := (h t List.mem_cons_self).isNamed
    rw [List.map_cons, List.cons_append, readItems_cons hFH, hFD,
      ih fun t ht => h t (List.mem_cons_of_mem _ ht)]
    rfl

theorem readItems_fieldData (d : Option (Bool × Units)) (rest : List Units) :
    readItems ((fieldData d).map (fun t => t.1.text ++ t.2) ++ rest) =
      (d.map fun d => ZplItem.data d.1 d.2).toList ++ readItems rest := by
  have hlength : ZplName.FD.text.length = 2 ∧ ZplName.FH.text.length = 2 := by decide
  have hdrop : ∀ args : Units, (ZplName.FD.text ++ args).drop 2 = args := fun args =>
    List.drop_left' hlength.1
  have hmark : ((ZplName.FH.text ++ [95]).drop 2).headD 95 = 95 := by decide
  match d with
  | none => rfl
  | some (true, value) =>
    simp only [fieldData, List.map_cons, List.map_nil, List.cons_append, List.nil_append, readItems,
      isNamed_self, Bool.and_self, if_true, hmark, hdrop, readData_fnc1]
    rfl
  | some (false, value) =>
    by_cases h : value.any isSpecial = true
    · simp only [fieldData, h, if_true, List.map_cons, List.map_nil, List.cons_append,
        List.nil_append, readItems, isNamed_self, Bool.and_self, hmark, hdrop, readData_escaped]
      rfl
    · have hFH : isNamed .FH (ZplName.FD.text ++ value) = false := by
        have hFD : ZplName.FD.text = [70, 68] := by decide
        have hFH : ZplName.FH.text = [70, 72] := by decide
        rw [isNamed, hFD, hFH]
        rfl
      simp only [fieldData, h, if_false, List.map_cons, List.map_nil, List.cons_append,
        List.nil_append, Bool.false_eq_true]
      rw [readItems_cons hFH, isNamed_self, if_pos rfl, hdrop]
      rfl

def ZplField.ended (f : ZplField) : List ZplToken :=
  f.setup ++ fieldData f.data ++ [(.FS, [lineFeed])]

theorem readItems_fields {fields : List ZplField} (h : ∀ f ∈ fields, ∀ t ∈ f.setup, Setup t)
    (rest : List Units) :
    readItems ((fields.flatMap ZplField.ended).map (fun t => t.1.text ++ t.2) ++ rest) =
      fields.flatMap ZplField.items ++ readItems rest := by
  induction fields with
  | nil => rfl
  | cons f fields ih =>
    have hFS : ∀ t ∈ [((.FS, [lineFeed]) : ZplToken)], Setup t := by
      intro t ht
      rw [List.mem_singleton.1 ht]
      exact ⟨by decide, by decide, by unfold Plain; decide⟩
    rw [List.flatMap_cons, List.flatMap_cons, List.map_append, List.append_assoc, ZplField.ended,
      List.map_append, List.map_append, List.append_assoc, List.append_assoc,
      readItems_setup (h f List.mem_cons_self), readItems_fieldData, readItems_setup hFS,
      ih fun g hg => h g (List.mem_cons_of_mem _ hg)]
    simp [ZplField.items, ZplToken.item]

end Reading

/-! ## The document -/

/-- What the rasterizers give is hexadecimal digits, or at least no command. -/
structure HexRasters (deps : EmitDeps) : Prop where
  text : ∀ rasterize ∈ deps.rasterizeText, ∀ text options, Plain (rasterize text options).hex
  logo : ∀ render ∈ deps.logo, ∀ e dpi x y r, render e dpi = .ok (x, y, r) → Plain r.hex
  km : ∀ rasterize ∈ deps.kmDataMatrix, ∀ code size r, rasterize code size = .ok r → Plain r.hex

/-- What is read of a document: the page, the fields in turn, and the end. -/
def zplItems (widthDots heightDots : ℤ) (fields : List ZplField) : List ZplItem :=
  [.command (ZplName.XA.text ++ [lineFeed]),
    .command (ZplName.PW.text ++ (numberText widthDots ++ [lineFeed])),
    .command (ZplName.LL.text ++ (numberText heightDots ++ [lineFeed]))] ++
  fields.flatMap ZplField.items ++ [.command (ZplName.XZ.text ++ [lineFeed])]

section Document

variable {data : LabelData} {dpi : PrinterDpi} {deps : EmitDeps}

theorem setup_of_readable {t : ZplToken} (h : Readable t) (hne : t.1 ≠ .FH ∧ t.1 ≠ .FD) :
    Setup t := ⟨.inl (mem_supported h.1), hne, h.2⟩

theorem setup_rasterField {r : RasterResult} (h : Plain r.hex) (x y : ℤ) :
    ∀ t ∈ (rasterField x y r).setup, Setup t := by
  intro t ht
  simp only [rasterField, List.mem_cons, List.not_mem_nil, or_false] at ht
  rcases ht with rfl | rfl
  · exact ⟨.inl (by simp [supportedZplNames]), by simp, plain_pair x y⟩
  · refine ⟨.inr rfl, by simp, .append (.append (by unfold Plain; decide)
      (plain_numberText _)) (.cons (by decide) (.append (plain_numberText _) (.cons (by decide)
        (.append (plain_numberText _) (.cons (by decide) h)))))⟩

theorem setup_textField (style : LabelTextStyle) (value : Units) :
    ∀ t ∈ (textField style value dpi).setup, Setup t := by
  intro t ht
  refine setup_of_readable (readable_textTokens style value dpi t ?_) ?_
  · rw [textTokens_eq, ZplField.tokens, List.append_assoc]
    exact List.mem_append_left _ ht
  · simp only [textField, List.mem_cons] at ht
    rcases ht with rfl | rfl | ht
    · simp
    · simp
    · unfold blockTokens at ht
      split at ht
      · rw [List.mem_singleton.1 ht]
        simp
      · cases ht

theorem setup_barcodeField (e : LabelBarcodeElement) :
    ∀ t ∈ (barcodeZplField e data dpi).setup, Setup t := by
  have hwidth : ∀ t ∈ barWidthTokens e dpi, t.1 ≠ .FH ∧ t.1 ≠ .FD := by
    intro t ht
    unfold barWidthTokens at ht
    split at ht
    · rw [List.mem_singleton.1 ht]
      simp
    · cases ht
  intro t ht
  refine setup_of_readable (readable_barcodeTokens e data dpi t ?_) ?_
  · rw [barcodeTokens_eq, ZplField.tokens, List.append_assoc]
    exact List.mem_append_left _ ht
  · simp only [barcodeZplField, barcodeSetup, List.mem_cons] at ht
    rcases ht with rfl | ht
    · simp
    cases hformat : e.format with
    | code128 =>
      simp only [hformat, List.mem_append, List.mem_singleton] at ht
      rcases ht with ht | rfl
      · exact hwidth t ht
      · simp
    | ean13 =>
      simp only [hformat, List.mem_append, List.mem_singleton] at ht
      rcases ht with ht | rfl
      · exact hwidth t ht
      · simp
    | datamatrix =>
      simp only [hformat, List.mem_singleton] at ht
      rw [ht]
      simp
    | qr =>
      simp only [hformat, List.mem_singleton] at ht
      rw [ht]
      simp

theorem setup_boxField (x y width height thickness : ℤ) :
    ∀ t ∈ (boxField x y width height thickness).setup, Setup t := by
  intro t ht
  simp only [boxField, List.mem_cons, List.not_mem_nil, or_false] at ht
  rcases ht with rfl | rfl
  · exact ⟨.inl (by simp [supportedZplNames]), by simp, plain_pair x y⟩
  · exact ⟨.inl (by simp [supportedZplNames]), by simp,
      .append (plain_numberText _) (.cons (by decide) (plain_pair _ _))⟩

theorem setup_textZplField (hdeps : HexRasters deps) {style : LabelTextStyle} {value : Units}
    {f : ZplField} (h : textZplField style value dpi deps = .ok f) : ∀ t ∈ f.setup, Setup t := by
  unfold textZplField at h
  split at h
  · obtain ⟨raster, hraster, hf⟩ := bind_eq_ok.1 h
    obtain rfl := pure_eq_ok.1 hf
    refine setup_rasterField ?_ _ _
    unfold rasterOf at hraster
    split at hraster
    · cases hraster
    · rename_i rasterize hrasterize
      cases hraster
      exact hdeps.text rasterize hrasterize _ _
  · cases h
    exact setup_textField style value

/-- The commands of an element's fields are the template's. -/
theorem setup_zplFields (hdeps : HexRasters deps) {e : LabelElement} {fields : List ZplField}
    (h : zplFields dpi data deps e = .ok fields) : ∀ f ∈ fields, ∀ t ∈ f.setup, Setup t := by
  intro f hf
  cases e with
  | organizationLogo e =>
    rw [zplFields] at h
    split at h
    · cases h
      cases hf
    · rename_i renderLabelLogo hlogo
      obtain ⟨⟨x, y, raster⟩, hraster, hfields⟩ := bind_eq_ok.1 h
      obtain rfl := pure_eq_ok.1 hfields
      rw [List.mem_singleton.1 hf]
      exact setup_rasterField (hdeps.logo _ hlogo e dpi x y raster hraster) x y
  | text e =>
    obtain ⟨g, hg, rfl⟩ := map_eq_ok.1 h
    rw [List.mem_singleton.1 hf]
    exact setup_textZplField hdeps hg
  | field e =>
    obtain ⟨g, hg, rfl⟩ := map_eq_ok.1 h
    rw [List.mem_singleton.1 hf]
    exact setup_textZplField hdeps hg
  | barcode e =>
    rw [zplFields] at h
    split at h
    · rename_i rasterizeGs1DataMatrix hkm
      obtain ⟨raster, hraster, rfl⟩ := map_eq_ok.1 h
      rw [List.mem_singleton.1 hf]
      refine setup_rasterField (hdeps.km rasterizeGs1DataMatrix ?_ _ _ raster hraster) _ _
      unfold kmRasterOf at hkm
      split at hkm
      · exact hkm
      · cases hkm
    · cases h
      rw [List.mem_singleton.1 hf]
      exact setup_barcodeField e
  | line e =>
    cases h
    rw [List.mem_singleton.1 hf]
    exact setup_boxField _ _ _ _ _
  | box e =>
    cases h
    rw [List.mem_singleton.1 hf]
    exact setup_boxField _ _ _ _ _

theorem plain_fieldData (d : Option (Bool × Units)) :
    ∀ t ∈ fieldData d, t.1 ∈ supportedZplNames ∧ Plain t.2 := by
  intro t ht
  match d with
  | none => cases ht
  | some (true, value) =>
    simp only [fieldData, List.mem_cons, List.not_mem_nil, or_false] at ht
    rcases ht with rfl | rfl
    · exact ⟨by simp [supportedZplNames], by unfold Plain; decide⟩
    · exact ⟨by simp [supportedZplNames], .append (by unfold Plain; decide)
        (plain_escaped true value)⟩
  | some (false, value) =>
    by_cases h : value.any isSpecial = true
    · simp only [fieldData, h, if_true, List.mem_cons, List.not_mem_nil, or_false] at ht
      rcases ht with rfl | rfl
      · exact ⟨by simp [supportedZplNames], by unfold Plain; decide⟩
      · refine ⟨by simp [supportedZplNames], ?_⟩
        rw [escapeSpecials_eq]
        exact plain_escaped false value
    · simp only [fieldData, h, Bool.false_eq_true, if_false, List.mem_singleton] at ht
      rw [ht]
      exact ⟨by simp [supportedZplNames], plain_of_not_special (by simpa using h)⟩

/-- The commands of a document. -/
def documentTokens (widthDots heightDots : ℤ) (fields : List ZplField) : List ZplToken :=
  [(.XA, [lineFeed]), (.PW, numberText widthDots ++ [lineFeed]),
    (.LL, numberText heightDots ++ [lineFeed])] ++ fields.flatMap ZplField.ended ++
    [(.XZ, [lineFeed])]

theorem buildZplDocument_tokens (w h : ℤ) (fields : List ZplField) :
    buildZplDocument w h (fields.map fun f => zplText f.tokens) =
      zplText (documentTokens w h fields) := by
  have hXA : encode "^XA" = 94 :: ZplName.XA.text := by decide
  have hXZ : encode "^XZ" = 94 :: ZplName.XZ.text := by decide
  have hPW : encode "^PW" = 94 :: ZplName.PW.text := by decide
  have hLL : encode "^LL" = 94 :: ZplName.LL.text := by decide
  have hfields : (fields.map fun f => zplText f.tokens).flatMap (· ++ [lineFeed]) =
      zplText (fields.flatMap ZplField.ended) := by
    induction fields with
    | nil => rfl
    | cons f fields ih =>
      rw [List.map_cons, List.flatMap_cons, ih, List.flatMap_cons, zplText_append]
      simp [ZplField.tokens, ZplField.ended]
  rw [buildZplDocument, join_eq_flatMap (by simp), documentTokens, hXA, hXZ, hPW, hLL]
  simp only [List.flatMap_append, List.flatMap_cons, List.flatMap_nil, hfields, zplText_append,
    zplText_cons, zplText_nil]
  simp

/-- **The commands of a text of commands** are those it was made of. -/
theorem zplCommandTexts_zplText {tokens : List ZplToken}
    (h : ∀ t ∈ tokens, Plain t.1.text ∧ Plain t.2) :
    zplCommandTexts (zplText tokens) = tokens.map fun t => t.1.text ++ t.2 := by
  have hsplit := @Segments.splitOnP_begun UInt16 ZplToken isCommandMark 94
    (fun t => t.1.text ++ t.2) tokens (by decide) (fun t ht u hu => by
      have hplain := (h t ht).1.append (h t ht).2 u hu
      simp [isCommandMark, hplain.1, hplain.2]) [] (by simp)
  rw [List.nil_append] at hsplit
  rw [zplCommandTexts]
  show ((List.flatMap (fun t => 94 :: (t.1.text ++ t.2)) tokens).splitOnP _ |>.drop 1) = _
  rw [hsplit, List.drop_one, List.tail_cons]

theorem plain_name {name : ZplName}
    (h : name ∈ supportedZplNames ∨ name = .other (encode "GF")) : Plain name.text := by
  have hall : ∀ name ∈ supportedZplNames, name.text.all (fun u => decide (u ≠ 94 ∧ u ≠ 126)) = true :=
    by decide
  rcases h with h | rfl
  · intro u hu
    simpa using List.all_eq_true.1 (hall name h) u hu
  · unfold Plain
    decide

theorem plain_documentTokens {fields : List ZplField} (h : ∀ f ∈ fields, ∀ t ∈ f.setup, Setup t)
    (width height : ℤ) :
    ∀ t ∈ documentTokens width height fields, Plain t.1.text ∧ Plain t.2 := by
  have hfeed : Plain [lineFeed] := by unfold Plain; decide
  have hname : ∀ name ∈ supportedZplNames, Plain name.text := fun name hn => plain_name (.inl hn)
  intro t ht
  simp only [documentTokens, List.mem_append, List.mem_cons, List.not_mem_nil, or_false,
    List.mem_flatMap, ZplField.ended] at ht
  rcases ht with ((rfl | rfl | rfl) | ⟨f, hf, (ht | ht) | rfl⟩) | rfl
  · exact ⟨hname _ (by simp [supportedZplNames]), hfeed⟩
  · exact ⟨hname _ (by simp [supportedZplNames]), .append (plain_numberText _) hfeed⟩
  · exact ⟨hname _ (by simp [supportedZplNames]), .append (plain_numberText _) hfeed⟩
  · exact ⟨plain_name (h f hf t ht).name, (h f hf t ht).plain⟩
  · exact ⟨hname _ (plain_fieldData f.data t ht).1, (plain_fieldData f.data t ht).2⟩
  · exact ⟨hname _ (by simp [supportedZplNames]), hfeed⟩
  · exact ⟨hname _ (by simp [supportedZplNames]), hfeed⟩

theorem readItems_document {fields : List ZplField} (h : ∀ f ∈ fields, ∀ t ∈ f.setup, Setup t)
    (width height : ℤ) :
    readItems ((documentTokens width height fields).map fun t => t.1.text ++ t.2) =
      zplItems width height fields := by
  have hfeed : Plain [lineFeed] := by unfold Plain; decide
  have hheader : ∀ t ∈ ([(.XA, [lineFeed]), (.PW, numberText width ++ [lineFeed]),
      (.LL, numberText height ++ [lineFeed])] : List ZplToken), Setup t := by
    intro t ht
    simp only [List.mem_cons, List.not_mem_nil, or_false] at ht
    rcases ht with rfl | rfl | rfl
    · exact ⟨.inl (by simp [supportedZplNames]), by simp, hfeed⟩
    · exact ⟨.inl (by simp [supportedZplNames]), by simp, .append (plain_numberText _) hfeed⟩
    · exact ⟨.inl (by simp [supportedZplNames]), by simp, .append (plain_numberText _) hfeed⟩
  have hend : ∀ t ∈ ([(.XZ, [lineFeed])] : List ZplToken), Setup t := by
    intro t ht
    rw [List.mem_singleton.1 ht]
    exact ⟨.inl (by simp [supportedZplNames]), by simp, hfeed⟩
  have hlast := readItems_setup hend []
  rw [List.append_nil] at hlast
  rw [documentTokens, List.map_append, List.map_append, List.append_assoc, readItems_setup hheader,
    readItems_fields h, hlast, zplItems, List.append_assoc]
  rfl

theorem generateZpl_fields {spec : LabelTemplateSpec} {doc : Units}
    (hdoc : generateZpl spec data deps = .ok doc) :
    ∃ fields, spec.elements.mapM (zplFields spec.dpi data deps) = .ok fields ∧
      doc = zplText (documentTokens (mmToDots spec.widthMm spec.dpi)
        (mmToDots spec.heightMm spec.dpi) fields.flatten) := by
  obtain ⟨lines, hlines, hbuilt⟩ := bind_eq_ok.1 hdoc
  obtain rfl := pure_eq_ok.1 hbuilt
  have hall := mapM_eq_ok.1 hlines
  have hfields : ∃ fields, List.Forall₂ (fun e fs => zplFields spec.dpi data deps e = .ok fs)
      spec.elements fields ∧ lines = fields.map (List.map fun f => zplText f.tokens) := by
    clear hlines hdoc hbuilt
    generalize spec.elements = es at hall
    induction hall with
    | nil => exact ⟨[], .nil, rfl⟩
    | @cons e line _ _ he _ ih =>
      obtain ⟨fields, hfields, rfl⟩ := ih
      rw [zplElementLines_fields] at he
      obtain ⟨fs, hfs, rfl⟩ := map_eq_ok.1 he
      exact ⟨fs :: fields, .cons hfs hfields, rfl⟩
  obtain ⟨fields, hfields, rfl⟩ := hfields
  refine ⟨fields, mapM_eq_ok.2 hfields, ?_⟩
  rw [← buildZplDocument_tokens, List.map_flatten]

/-- **A document is read as the template's fields with the bound values.** -/
theorem readZpl_generateZpl (hdeps : HexRasters deps) {spec : LabelTemplateSpec} {doc : Units}
    (hdoc : generateZpl spec data deps = .ok doc) :
    ∃ fields, spec.elements.mapM (zplFields spec.dpi data deps) = .ok fields ∧
      readZpl doc = zplItems (mmToDots spec.widthMm spec.dpi) (mmToDots spec.heightMm spec.dpi)
        fields.flatten ∧ 126 ∉ doc ∧ doc.head? = some 94 := by
  obtain ⟨fields, hfields, rfl⟩ := generateZpl_fields hdoc
  have hsetup : ∀ f ∈ fields.flatten, ∀ t ∈ f.setup, Setup t := by
    intro f hf
    obtain ⟨fs, hfs, hf⟩ := List.mem_flatten.1 hf
    have h2 := mapM_eq_ok.1 hfields
    obtain ⟨i, hi, rfl⟩ := List.getElem_of_mem hfs
    exact setup_zplFields hdeps (h2.get (h2.length_eq ▸ hi) hi) f hf
  have hplain := plain_documentTokens hsetup (mmToDots spec.widthMm spec.dpi)
    (mmToDots spec.heightMm spec.dpi)
  refine ⟨fields, hfields, ?_, ?_, rfl⟩
  · rw [readZpl, zplCommandTexts_zplText hplain, readItems_document hsetup]
  · intro hmem
    obtain ⟨t, ht, hut⟩ := List.mem_flatMap.1 hmem
    rcases List.mem_cons.1 hut with h | h
    · exact absurd h (by decide)
    · exact ((hplain t ht).1.append (hplain t ht).2 126 h).2 rfl

end Document

/-! ## Two records -/

section TwoRecords

variable {spec : LabelTemplateSpec} {data data' : LabelData} {dpi : PrinterDpi} {deps : EmitDeps}

theorem textZplField_blank {style : LabelTextStyle} {value value' : Units} {f f' : ZplField}
    (hsame : (if isRasterized style value then some (rasterOf deps style value dpi) else none) =
      if isRasterized style value' then some (rasterOf deps style value' dpi) else none)
    (h : textZplField style value dpi deps = .ok f)
    (h' : textZplField style value' dpi deps = .ok f') :
    f.items.map ZplItem.blank = f'.items.map ZplItem.blank := by
  unfold textZplField at h h'
  by_cases hr : isRasterized style value = true
  · by_cases hr' : isRasterized style value' = true
    · simp only [hr, hr', if_true, Option.some.injEq] at hsame h h'
      rw [hsame, h'] at h
      cases h
      rfl
    · simp [hr, hr'] at hsame
  · by_cases hr' : isRasterized style value' = true
    · simp [hr, hr'] at hsame
    · simp only [hr, hr', Bool.false_eq_true, if_false] at h h'
      cases h
      cases h'
      simp [ZplField.items, textField, ZplItem.blank]

theorem zplFields_blank {e : LabelElement} {fs fs' : List ZplField}
    (hsame : rasterChoice deps dpi data e = rasterChoice deps dpi data' e)
    (h : zplFields dpi data deps e = .ok fs) (h' : zplFields dpi data' deps e = .ok fs') :
    (fs.flatMap ZplField.items).map ZplItem.blank =
      (fs'.flatMap ZplField.items).map ZplItem.blank := by
  cases e with
  | organizationLogo e =>
    rw [zplFields] at h h'
    rw [h] at h'
    cases h'
    rfl
  | text e =>
    obtain ⟨f, hf, rfl⟩ := map_eq_ok.1 h
    obtain ⟨f', hf', rfl⟩ := map_eq_ok.1 h'
    simpa using textZplField_blank rfl hf hf'
  | field e =>
    obtain ⟨f, hf, rfl⟩ := map_eq_ok.1 h
    obtain ⟨f', hf', rfl⟩ := map_eq_ok.1 h'
    simpa using textZplField_blank hsame hf hf'
  | barcode e =>
    rw [zplFields] at h h'
    rw [rasterChoice, rasterChoice] at hsame
    cases hkm : kmRasterOf deps e with
    | none =>
      rw [hkm] at h h'
      cases h
      cases h'
      simp [ZplField.items, barcodeZplField, ZplItem.blank]
    | some rasterize =>
      rw [hkm] at h h' hsame
      simp only [Option.map_some, Option.some.injEq] at hsame
      simp only [hsame] at h h'
      rw [h'] at h
      cases h
      rfl
  | line e =>
    cases h
    cases h'
    rfl
  | box e =>
    cases h
    cases h'
    rfl

end TwoRecords

/-! ### Two operators -/

namespace Sample

/-- A label with the operator's name. -/
def operatorSpec : LabelTemplateSpec where
  widthMm := 58
  heightMm := 40
  dpi := .dpi203
  language := .zpl
  elements := [.field {
    id := encode "operator", xMm := 2, yMm := 2, fontSizePt := 10, field := .operator }]

def operatorData (name : Units) : LabelData
  | .operator => name
  | _ => []

end Sample

open Sample

end Markiro
