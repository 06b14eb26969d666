import Markiro.Domain.Wrap

/-!
# TSPL

The emitter (`labels/tspl.ts`) and the importer (`labels/tspl-import.ts`) of the TSC language.
-/

namespace Markiro

open Utf16

/-! ## The emitter -/

/-- A quote in a string is doubled. -/
def escapeTsplString (text : Units) : Units := replaceAll 34 [34, 34] text

def nativeAlignOffsetDots (element : LabelTextStyle) (line : Units) (maxWidthDots : Option ℤ)
    (dpi : PrinterDpi) : ℤ :=
  rasterAlignOffsetDots element.align maxWidthDots
    (mmToDots (estimatedTextWidthMm line element.fontSizePt) dpi)

def wrapNativeText (element : LabelTextStyle) (text : Units) : List Units :=
  match element.maxWidthMm with
  | none => [text]
  | some width =>
    wrapTextToWidth text (estimatedTextWidthMm · element.fontSizePt) width
      (element.maxLines.getD 1)

/-- The byte of two hexadecimal digits, inverted; a bad digit makes it `NaN`, which inverts to 255. -/
def invertHexByte (a b : UInt16) : UInt16 :=
  match hexValue a, hexValue b with
  | some x, some y => UInt16.ofNat (255 - (x * 16 + y))
  | some x, none => UInt16.ofNat (255 - x)
  | none, _ => 255

def invertHexToTsplBytes : Units → Units
  | a :: b :: rest => invertHexByte a b :: invertHexToTsplBytes rest
  | [a] => [match hexValue a with | some x => UInt16.ofNat (255 - x) | none => 255]
  | [] => []

def buildBitmapCommand (x y : ℤ) (r : RasterResult) : Units :=
  encode "BITMAP " ++ numberText x ++ encode "," ++ numberText y ++ encode "," ++
    numberText r.bytesPerRow ++ encode "," ++ numberText r.height ++ encode ",0," ++
    invertHexToTsplBytes r.hex

/-- One `TEXT` at a place. -/
def tsplTextCommand (x y : ℤ) (size : ℚ) (line : Units) : Units :=
  encode "TEXT " ++ numberText x ++ encode "," ++ numberText y ++ encode ",\"0\",0," ++
    numberText size ++ encode "," ++ numberText size ++ encode ",\"" ++ escapeTsplString line ++
    encode "\""

def renderTsplTextLikeElement (element : LabelTextStyle) (text : Units) (dpi : PrinterDpi)
    (deps : EmitDeps) : Labels Units :=
  let x := mmToDots element.xMm dpi
  let y := mmToDots element.yMm dpi
  let maxWidthDots := element.maxWidthMm.map (mmToDots · dpi)
  if isRasterized element text then do
    let raster ← rasterOf deps element text dpi
    return buildBitmapCommand (x + rasterAlignOffsetDots element.align maxWidthDots raster.width) y
      raster
  else
    let lineStepDots := mmToDots (ptToMm element.fontSizePt * (3 / 2)) dpi
    .ok (joinWith [lineFeed] ((wrapNativeText element text).zipIdx.map fun (line, i) =>
      tsplTextCommand (x + nativeAlignOffsetDots element line maxWidthDots dpi)
        (y + i * lineStepDots) element.fontSizePt line))

def barWidthParams (element : LabelBarcodeElement) (dpi : PrinterDpi) : Units :=
  let narrow : ℤ :=
    match element.moduleWidthMm with
    | none => 2
    | some width => max 1 (mmToDots width dpi)
  numberText narrow ++ encode "," ++ numberText narrow

def renderTsplBarcodeElement (element : LabelBarcodeElement) (data : LabelData) (dpi : PrinterDpi) :
    Units :=
  let x := mmToDots element.xMm dpi
  let y := mmToDots element.yMm dpi
  let (value, field) := resolveBarcodeSource element.data data
  let sizeDots := mmToDots element.sizeMm dpi
  match element.format with
  | .code128 =>
    let barcodeType := if field = some .sscc then encode "EAN128" else encode "128"
    let payload := if field = some .sscc then encode "00" ++ value else value
    encode "BARCODE " ++ numberText x ++ encode "," ++ numberText y ++ encode ",\"" ++ barcodeType ++
      encode "\"," ++ numberText sizeDots ++ encode ",0,0," ++ barWidthParams element dpi ++
      encode ",\"" ++ escapeTsplString payload ++ encode "\""
  | .ean13 =>
    encode "BARCODE " ++ numberText x ++ encode "," ++ numberText y ++ encode ",\"EAN13\"," ++
      numberText sizeDots ++ encode ",0,0," ++ barWidthParams element dpi ++ encode ",\"" ++
      escapeTsplString value ++ encode "\""
  | .datamatrix =>
    encode "DMATRIX " ++ numberText x ++ encode "," ++ numberText y ++ encode "," ++
      numberText sizeDots ++ encode "," ++ numberText sizeDots ++ encode ",\"" ++
      escapeTsplString value ++ encode "\""
  | .qr =>
    let cellDots := max 1 (min 10 sizeDots)
    encode "QRCODE " ++ numberText x ++ encode "," ++ numberText y ++ encode ",M," ++
      numberText cellDots ++ encode ",A,0,\"" ++ escapeTsplString value ++ encode "\""

def buildTsplBar (x y width height : ℤ) : Units :=
  encode "BAR " ++ numberText x ++ encode "," ++ numberText y ++ encode "," ++ numberText width ++
    encode "," ++ numberText height

def buildTsplBox (x y width height thickness : ℤ) : Units :=
  encode "BOX " ++ numberText x ++ encode "," ++ numberText y ++ encode "," ++
    numberText (x + width : ℤ) ++ encode "," ++ numberText (y + height : ℤ) ++ encode "," ++
    numberText thickness

/-- A line is a filled rectangle; a diagonal one comes out as its bounding box. -/
def renderTsplLineElement (element : LabelLineElement) (dpi : PrinterDpi) : Units :=
  let thicknessDots := mmToDots element.thicknessMm dpi
  let spanXDots := mmToDots |element.x2Mm - element.xMm| dpi
  let spanYDots := mmToDots |element.y2Mm - element.yMm| dpi
  buildTsplBar (mmToDots (min element.xMm element.x2Mm) dpi)
    (mmToDots (min element.yMm element.y2Mm) dpi) (max spanXDots thicknessDots)
    (max spanYDots thicknessDots)

def renderTsplBoxElement (element : LabelBoxElement) (dpi : PrinterDpi) : Units :=
  buildTsplBox (mmToDots element.xMm dpi) (mmToDots element.yMm dpi) (mmToDots element.widthMm dpi)
    (mmToDots element.heightMm dpi) (mmToDots element.thicknessMm dpi)

def buildTsplDocument (widthMm heightMm : ℚ) (commands : List Units) : Units :=
  joinWith [lineFeed] ([encode "SIZE " ++ numberText widthMm ++ encode " mm, " ++ numberText heightMm ++
    encode " mm", encode "GAP 2 mm, 0 mm", encode "DIRECTION 1", encode "CLS"] ++ commands ++
    [encode "PRINT 1"]) ++ [lineFeed]

/-- What an element adds to the lines; a logo without a bitmap adds nothing. -/
def tsplElementLines (spec : LabelTemplateSpec) (data : LabelData) (deps : EmitDeps) :
    LabelElement → Labels (List Units)
  | .organizationLogo e =>
    match deps.logo with
    | none => .ok []
    | some renderLabelLogo => do
      let (xDots, yDots, raster) ← renderLabelLogo e spec.dpi
      return [buildBitmapCommand xDots yDots raster]
  | .text e => do
    let line ← renderTsplTextLikeElement e.toLabelTextStyle e.text spec.dpi deps
    return [line]
  | .field e =>
    match labelFieldDisplayValue e.field data e.textFormat with
    | .error error => .error (.domain error)
    | .ok text => do
      let line ← renderTsplTextLikeElement e.toLabelTextStyle text spec.dpi deps
      return [line]
  | .barcode e =>
    match kmRasterOf deps e with
    | some rasterizeGs1DataMatrix => do
      let raster ← rasterizeGs1DataMatrix (data .kmCode) (mmToDots e.sizeMm spec.dpi)
      return [buildBitmapCommand (mmToDots e.xMm spec.dpi) (mmToDots e.yMm spec.dpi) raster]
    | none => .ok [renderTsplBarcodeElement e data spec.dpi]
  | .line e => .ok [renderTsplLineElement e spec.dpi]
  | .box e => .ok [renderTsplBoxElement e spec.dpi]

def generateTspl (spec : LabelTemplateSpec) (data : LabelData) (deps : EmitDeps := {}) :
    Labels Units := do
  let lines ← spec.elements.mapM (tsplElementLines spec data deps)
  return buildTsplDocument spec.widthMm spec.heightMm lines.flatten

/-! ## The importer -/

def tsplQuote : UInt16 := 34

/-- The arguments of a statement from a place on: `current` is the one begun. No answer is an
unterminated string. -/
def splitArgumentsFrom (isQuoted : Bool) (current : Units) : Units → Option (List Units)
  | [] => if isQuoted then none else some [ecmaTrim current]
  | u :: rest =>
    if u = tsplQuote then
      match rest with
      | [] => if isQuoted then some [ecmaTrim current] else none
      | v :: tail =>
        if isQuoted && v == tsplQuote then splitArgumentsFrom true (current ++ [tsplQuote]) tail
        else splitArgumentsFrom (!isQuoted) current (v :: tail)
    else if u = 44 ∧ isQuoted = false then
      (splitArgumentsFrom false [] rest).map (ecmaTrim current :: ·)
    else splitArgumentsFrom isQuoted (current ++ [u]) rest

def splitTsplArguments (source : Units) (line : ℕ) : Labels (List Units) :=
  match splitArgumentsFrom false [] source with
  | none => importFail line source (encode "unterminated TSPL quoted argument")
  | some values => .ok values

def requiredArgument (values : List Units) (index line : ℕ) (source : Units) : Labels Units :=
  match values[index]? with
  | some value =>
    if value = [] then importFail line source (encode "missing TSPL argument") else .ok value
  | none => importFail line source (encode "missing TSPL argument")

def numberAt (values : List Units) (index line : ℕ) (source : Units) : Labels ℚ := do
  match numberOf (← requiredArgument values index line source) with
  | some value => .ok value
  | none => importFail line source (encode "invalid numeric TSPL argument")

/-- `toUpperCase` where it matters: of the letters a keyword is made of. -/
def asciiUpper (s : Units) : Units := s.map fun u => if 97 ≤ u && u ≤ 122 then u - 32 else u

def sizeOf (value : Units) : Option ℚ :=
  let s := ecmaTrim value
  let whole := s.takeWhile isDigit
  let (fraction, rest) := readFraction (s.dropWhile isDigit)
  if whole = [] ∨ (s.dropWhile isDigit).head? = some 46 ∧ fraction = [] then none
  else if asciiUpper (rest.dropWhile isEcmaWhitespace) = encode "MM" then
    some ((readNumber (whole ++ fraction) : ℚ) * (10 : ℚ) ^ (-(fraction.length : ℤ)))
  else none

def parseSize (value : Units) (line : ℕ) (source : Units) : Labels ℚ :=
  match sizeOf value with
  | some size => .ok size
  | none => importFail line source (encode "TSPL SIZE must use millimetres")

/-- The alignment an argument stands for. -/
def tsplAlignment (value : Option Units) : Option LabelAlign :=
  if value = some (encode "1") then some .left
  else if value = some (encode "2") then some .center
  else if value = some (encode "3") then some .right
  else none

def parseText (args : List Units) (line : ℕ) (source : Units) (dpi : PrinterDpi) (ordinal : ℕ) :
    Labels LabelElement := do
  let xDots ← numberAt args 0 line source
  let yDots ← numberAt args 1 line source
  let font ← requiredArgument args 2 line source
  if font ≠ encode "0" then importFail line source (encode "only TSPL font \"0\" is supported")
  else
    let rotation ← numberAt args 3 line source
    if rotation ≠ 0 then
      importFail line source (encode "only non-rotated TSPL text is supported")
    else
      let height ← numberAt args 4 line source
      let widthScale ← numberAt args 5 line source
      if widthScale ≤ 0 then importFail line source (encode "TSPL text scale must be positive")
      else
        let align := tsplAlignment args[6]?
        let payload ← requiredArgument args (if align.isSome then 7 else 6) line source
        let style : LabelTextStyle := {
          id := importedElementId .tspl ordinal
          xMm := dotsToMm xDots dpi
          yMm := dotsToMm yDots dpi
          fontSizePt := max 4 (min 72 height)
          align := align }
        match ← parseTemplatePayload payload line with
        | .field f => return .field { toLabelTextStyle := style, field := f }
        | .literal text => return .text { toLabelTextStyle := style, text := text }

def ean128Data (payload : Units) (line : ℕ) (source : Units) : Labels BarcodeSource :=
  if payload = encode "\x7b\x7bsscc\x7d\x7d" ∨ payload = encode "00\x7b\x7bsscc\x7d\x7d" then
    .ok (.field .sscc)
  else if (encode "00").isPrefixOf payload = true ∧ isValidSscc (payload.drop 2) = true then
    .ok (.field .sscc)
  else importFail line source (encode "TSPL EAN128 is read only as an SSCC: AI 00 and 18 digits")

/-- The symbology of a `BARCODE` by its type in capitals. -/
def tsplBarcodeFormat (type : Units) : Option BarcodeFormat :=
  if type = encode "128" ∨ type = encode "EAN128" then some .code128
  else if type = encode "EAN13" then some .ean13
  else none

def parseBarcode (args : List Units) (line : ℕ) (source : Units) (dpi : PrinterDpi)
    (ordinal : ℕ) : Labels LabelElement := do
  let xDots ← numberAt args 0 line source
  let yDots ← numberAt args 1 line source
  let type := asciiUpper (← requiredArgument args 2 line source)
  match tsplBarcodeFormat type with
  | none => importFail line source (encode "unsupported TSPL barcode type " ++ type)
  | some format =>
    let size ← numberAt args 3 line source
    let rotation ← numberAt args 5 line source
    if rotation ≠ 0 then
      importFail line source (encode "only non-rotated TSPL barcodes are supported")
    else
      let payload ← requiredArgument args 8 line source
      let data ← if type = encode "EAN128" then ean128Data payload line source
        else parseTemplatePayload payload line
      return .barcode {
        id := importedElementId .tspl ordinal
        xMm := dotsToMm xDots dpi
        yMm := dotsToMm yDots dpi
        format := format
        data := data
        sizeMm := max (1 / 10) (dotsToMm size dpi) }

/-- A matrix code: where its size and its payload stand differs. -/
def matrixElement (format : BarcodeFormat) (dpi : PrinterDpi) (ordinal line : ℕ)
    (xDots yDots size : ℚ)
    (payload : Units) : Labels LabelElement := do
  let data ← parseTemplatePayload payload line
  return .barcode {
    id := importedElementId .tspl ordinal
    xMm := dotsToMm xDots dpi
    yMm := dotsToMm yDots dpi
    format := format
    data := data
    sizeMm := max (1 / 10) (dotsToMm size dpi) }

def parseDmatrix (args : List Units) (line : ℕ) (source : Units) (dpi : PrinterDpi)
    (ordinal : ℕ) : Labels LabelElement := do
  let xDots ← numberAt args 0 line source
  let yDots ← numberAt args 1 line source
  let size ← numberAt args 2 line source
  let payload ← requiredArgument args 4 line source
  matrixElement .datamatrix dpi ordinal line xDots yDots size payload

/-- The size is read last, after the payload. -/
def parseQrcode (args : List Units) (line : ℕ) (source : Units) (dpi : PrinterDpi)
    (ordinal : ℕ) : Labels LabelElement := do
  let xDots ← numberAt args 0 line source
  let yDots ← numberAt args 1 line source
  let rotation ← numberAt args 5 line source
  if rotation ≠ 0 then
    importFail line source (encode "only non-rotated TSPL QR codes are supported")
  else
    let payload ← requiredArgument args 6 line source
    let _ ← parseTemplatePayload payload line
    let size ← numberAt args 3 line source
    matrixElement .qr dpi ordinal line xDots yDots size payload

def parseBar (args : List Units) (line : ℕ) (source : Units) (dpi : PrinterDpi) (ordinal : ℕ) :
    Labels LabelElement := do
  let xMm := dotsToMm (← numberAt args 0 line source) dpi
  let yMm := dotsToMm (← numberAt args 1 line source) dpi
  let widthMm := dotsToMm (← numberAt args 2 line source) dpi
  let heightMm := dotsToMm (← numberAt args 3 line source) dpi
  if widthMm ≤ 0 ∨ heightMm ≤ 0 then
    importFail line source (encode "TSPL BAR dimensions must be positive")
  else
    let id := importedElementId .tspl ordinal
    return .line (if heightMm ≤ widthMm then ⟨id, xMm, yMm, xMm + widthMm, yMm, min widthMm heightMm⟩
      else ⟨id, xMm, yMm, xMm, yMm + heightMm, min widthMm heightMm⟩)

def parseBox (args : List Units) (line : ℕ) (source : Units) (dpi : PrinterDpi) (ordinal : ℕ) :
    Labels LabelElement := do
  let xMm := dotsToMm (← numberAt args 0 line source) dpi
  let yMm := dotsToMm (← numberAt args 1 line source) dpi
  let width := dotsToMm (← numberAt args 2 line source) dpi - xMm
  let height := dotsToMm (← numberAt args 3 line source) dpi - yMm
  if width ≤ 0 ∨ height ≤ 0 then
    importFail line source (encode "TSPL BOX end must be below and right of start")
  else
    let thickness ← numberAt args 4 line source
    return .box ⟨importedElementId .tspl ordinal, xMm, yMm, width, height,
      max (1 / 10) (dotsToMm thickness dpi)⟩

/-- The variables of `parseTsplLabel`; a `SIZE` sets both sides. -/
structure TsplParse where
  size : Option (ℚ × ℚ) := none
  elements : List LabelElement := []
  sourceLineByElementId : List (Units × ℕ) := []
  warnings : List LabelImportWarning := []

def addElement (parse : TsplParse) (element : LabelElement) (line : ℕ) : Labels TsplParse :=
  if maxLabelCodeElements ≤ parse.elements.length then
    labelFail .labelCodeLimit (encode "label code exceeds 1000 elements")
  else .ok { parse with
    elements := parse.elements ++ [element]
    sourceLineByElementId := parse.sourceLineByElementId ++ [(element.id, line)] }

def isLetter (u : UInt16) : Bool := (65 ≤ u && u ≤ 90) || (97 ≤ u && u ≤ 122)

/-- What `.` does not match. -/
def isLineTerminator (u : UInt16) : Bool := u == 10 || u == 13 || u == 0x2028 || u == 0x2029

/-- The command word in capitals and the text of its arguments. -/
def tsplStatement (trimmed : Units) : Option (Units × Units) :=
  let command := trimmed.takeWhile isLetter
  let rest := (trimmed.dropWhile isLetter).dropWhile isEcmaWhitespace
  if command = [] ∨ (rest.drop 1).any isLineTerminator = true then none
  else some (asciiUpper command, rest)

/-- What the commands that make an element are read with. -/
def tsplElementParser (command : Units) :
    Option (List Units → ℕ → Units → PrinterDpi → ℕ → Labels LabelElement) :=
  if command = encode "TEXT" then some parseText
  else if command = encode "BARCODE" then some parseBarcode
  else if command = encode "DMATRIX" then some parseDmatrix
  else if command = encode "QRCODE" then some parseQrcode
  else if command = encode "BAR" then some parseBar
  else if command = encode "BOX" then some parseBox
  else none

def ignoredTsplCommands : List Units :=
  [encode "GAP", encode "DIRECTION", encode "REFERENCE", encode "CLS", encode "PRINT"]

def tsplCommand (dpi : PrinterDpi) (parse : TsplParse) (line : ℕ) (source command : Units)
    (args : List Units) : Labels TsplParse :=
  if command = encode "SIZE" then
    if parse.size.isSome then
      importFail line source (encode "TSPL source contains multiple SIZE statements")
    else do
      let width ← parseSize (← requiredArgument args 0 line source) line source
      let height ← parseSize (← requiredArgument args 1 line source) line source
      return { parse with size := some (width, height) }
  else if command ∈ ignoredTsplCommands then .ok parse
  else
    match tsplElementParser command with
    | some read => do
      let element ← read args line source dpi (parse.elements.length + 1)
      addElement parse element line
    | none => .ok { parse with warnings := parse.warnings ++
        [⟨line, source, encode "unsupported TSPL command " ++ command⟩] }

def tsplSourceLine (dpi : PrinterDpi) (parse : TsplParse) (entry : Units × ℕ) : Labels TsplParse :=
  let trimmed := ecmaTrim entry.1
  if trimmed = [] then .ok parse
  else
    match tsplStatement trimmed with
    | none => importFail entry.2 entry.1 (encode "invalid TSPL statement")
    | some (command, text) => do
      let args ← splitTsplArguments text entry.2
      tsplCommand dpi parse entry.2 entry.1 command args

/-- What is checked when all lines are read. -/
def tsplFinish (dpi : PrinterDpi) (parse : TsplParse) : Labels LabelImportResult :=
  match parse.size with
  | none => labelFail .labelCodeInvalid (encode "TSPL source must include SIZE")
  | some (widthMm, heightMm) => do
    let spec ← parseLabelTemplate {
      widthMm := widthMm
      heightMm := heightMm
      dpi := dpi
      language := .tspl
      elements := parse.elements }
    return ⟨spec, parse.warnings, parse.sourceLineByElementId⟩

def parseTsplLabel (input : Units) (dpi : PrinterDpi) : Labels LabelImportResult := do
  assertImportInputLimits input
  let lines := splitLines input
  if maxLabelCodeCommands < (lines.filter fun l => decide (ecmaTrim l ≠ [])).length then
    labelFail .labelCodeLimit (encode "label code exceeds 2000 commands")
  else
    let parse ← (lines.zipIdx 1).foldlM (tsplSourceLine dpi) {}
    tsplFinish dpi parse

end Markiro
