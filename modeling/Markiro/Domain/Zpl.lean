import Markiro.Domain.Labels

/-!
# ZPL

The emitter (`labels/zpl.ts`, `printer-commands.ts`) and the importer (`labels/zpl-import.ts`) of the
Zebra language.
-/

namespace Markiro

open Utf16

/-! ## The emitter -/

/-- An upper-case hexadecimal digit. -/
def hexDigit (n : ℕ) : UInt16 := if n < 10 then UInt16.ofNat (48 + n) else UInt16.ofNat (55 + n)

/-- `_` and two hexadecimal digits; it is used for units below 256. -/
def hexEscapeByte (u : UInt16) : Units := [95, hexDigit (u.toNat / 16), hexDigit (u.toNat % 16)]

/-- `/[\^~_]/`. -/
def isSpecial (u : UInt16) : Bool := u == 94 || u == 126 || u == 95

def escapeSpecials (text : Units) : Units :=
  text.flatMap fun u => if isSpecial u then hexEscapeByte u else [u]

/-- The `^FH` command, when it is needed, and the data. -/
def escapeFdData (text : Units) : Units × Units :=
  if text.any isSpecial then (encode "^FH_", escapeSpecials text) else ([], text)

/-- The tail of a marking code's DataMatrix: FNC1, then the code with its specials and then its
separators escaped. -/
def renderGs1DataMatrixTail (raw : Units) : Units :=
  encode "^FH_^FD_1" ++ replaceAll GS (encode "_1D") (escapeSpecials raw) ++ encode "^FS"

def alignToJustification : Option LabelAlign → Units
  | some .center => encode "C"
  | some .right => encode "R"
  | _ => encode "L"

def buildGfaCommand (r : RasterResult) : Units :=
  encode "^GFA," ++ numberText r.totalBytes ++ encode "," ++ numberText r.totalBytes ++ encode "," ++
    numberText r.bytesPerRow ++ encode "," ++ r.hex

/-- `^FO` at a place. -/
def fieldOrigin (x y : ℤ) : Units := encode "^FO" ++ numberText x ++ encode "," ++ numberText y

def zplFieldBlock (element : LabelTextStyle) (dpi : PrinterDpi) : Units :=
  match element.maxWidthMm with
  | some width => encode "^FB" ++ numberText (mmToDots width dpi) ++ encode "," ++
      numberText (element.maxLines.getD 1 : ℕ) ++ encode ",0," ++
      alignToJustification element.align ++ encode ",0"
  | none => []

def renderZplTextLikeElement (element : LabelTextStyle) (text : Units) (dpi : PrinterDpi)
    (deps : EmitDeps) : Labels Units :=
  let x := mmToDots element.xMm dpi
  let y := mmToDots element.yMm dpi
  if isRasterized element text then do
    let raster ← rasterOf deps element text dpi
    let offsetXDots := rasterAlignOffsetDots element.align (element.maxWidthMm.map (mmToDots · dpi))
      raster.width
    return fieldOrigin (x + offsetXDots) y ++ buildGfaCommand raster ++ encode "^FS"
  else
    let heightDots := ptToDots element.fontSizePt dpi
    let font := encode "^A0N," ++ numberText heightDots ++ encode "," ++ numberText heightDots
    let (fh, data) := escapeFdData text
    .ok (fieldOrigin x y ++ font ++ zplFieldBlock element dpi ++ fh ++ encode "^FD" ++ data ++
      encode "^FS")

/-- `^BY` of a linear barcode that states its narrow bar. -/
def barWidthCommand (element : LabelBarcodeElement) (dpi : PrinterDpi) : Units :=
  match element.moduleWidthMm with
  | none => []
  | some width => encode "^BY" ++ numberText (max 1 (min 10 (mmToDots width dpi)) : ℤ)

def renderZplBarcodeElement (element : LabelBarcodeElement) (data : LabelData) (dpi : PrinterDpi) :
    Units :=
  let x := mmToDots element.xMm dpi
  let y := mmToDots element.yMm dpi
  let (value, field) := resolveBarcodeSource element.data data
  let sizeDots := mmToDots element.sizeMm dpi
  match element.format with
  | .code128 =>
    let payload := if field = some .sscc then encode ">;>800" ++ value else value
    let (fh, escaped) := escapeFdData payload
    fieldOrigin x y ++ barWidthCommand element dpi ++ encode "^BCN," ++ numberText sizeDots ++
      encode ",N,N,N" ++ fh ++ encode "^FD" ++ escaped ++ encode "^FS"
  | .ean13 =>
    let (fh, escaped) := escapeFdData value
    fieldOrigin x y ++ barWidthCommand element dpi ++ encode "^BEN," ++ numberText sizeDots ++ fh ++
      encode "^FD" ++ escaped ++ encode "^FS"
  | .datamatrix =>
    if field = some .kmCode then
      fieldOrigin x y ++ encode "^BXN," ++ numberText sizeDots ++ encode ",200,,,,_" ++
        renderGs1DataMatrixTail value
    else
      let (fh, escaped) := escapeFdData value
      fieldOrigin x y ++ encode "^BXN," ++ numberText sizeDots ++ encode ",200,,,,_" ++ fh ++
        encode "^FD" ++ escaped ++ encode "^FS"
  | .qr =>
    let mag := max 1 (min 10 sizeDots)
    let (fh, escaped) := escapeFdData value
    fieldOrigin x y ++ encode "^BQN,2," ++ numberText mag ++ fh ++ encode "^FDQA," ++ escaped ++
      encode "^FS"

def buildZplBox (x y width height thickness : ℤ) : Units :=
  fieldOrigin x y ++ encode "^GB" ++ numberText width ++ encode "," ++ numberText height ++
    encode "," ++ numberText thickness ++ encode "^FS"

/-- A line is a thin box; a diagonal one comes out as its bounding box. -/
def renderZplLineElement (element : LabelLineElement) (dpi : PrinterDpi) : Units :=
  let thicknessDots := mmToDots element.thicknessMm dpi
  let spanXDots := mmToDots |element.x2Mm - element.xMm| dpi
  let spanYDots := mmToDots |element.y2Mm - element.yMm| dpi
  buildZplBox (mmToDots (min element.xMm element.x2Mm) dpi)
    (mmToDots (min element.yMm element.y2Mm) dpi) (max spanXDots thicknessDots)
    (max spanYDots thicknessDots) thicknessDots

def renderZplBoxElement (element : LabelBoxElement) (dpi : PrinterDpi) : Units :=
  buildZplBox (mmToDots element.xMm dpi) (mmToDots element.yMm dpi) (mmToDots element.widthMm dpi)
    (mmToDots element.heightMm dpi) (mmToDots element.thicknessMm dpi)

def buildZplDocument (widthDots heightDots : ℤ) (commands : List Units) : Units :=
  joinWith [lineFeed] ([encode "^XA", encode "^PW" ++ numberText widthDots,
    encode "^LL" ++ numberText heightDots] ++ commands ++ [encode "^XZ"]) ++ [lineFeed]

def zplElementLines (spec : LabelTemplateSpec) (data : LabelData) (deps : EmitDeps) :
    LabelElement → Labels (List Units)
  | .organizationLogo e =>
    match deps.logo with
    | none => .ok []
    | some renderLabelLogo => do
      let (xDots, yDots, raster) ← renderLabelLogo e spec.dpi
      return [fieldOrigin xDots yDots ++ buildGfaCommand raster ++ encode "^FS"]
  | .text e => do
    let line ← renderZplTextLikeElement e.toLabelTextStyle e.text spec.dpi deps
    return [line]
  | .field e =>
    match labelFieldDisplayValue e.field data e.textFormat with
    | .error error => .error (.domain error)
    | .ok text => do
      let line ← renderZplTextLikeElement e.toLabelTextStyle text spec.dpi deps
      return [line]
  | .barcode e =>
    match kmRasterOf deps e with
    | some rasterizeGs1DataMatrix => do
      let raster ← rasterizeGs1DataMatrix (data .kmCode) (mmToDots e.sizeMm spec.dpi)
      return [fieldOrigin (mmToDots e.xMm spec.dpi) (mmToDots e.yMm spec.dpi) ++
        buildGfaCommand raster ++ encode "^FS"]
    | none => .ok [renderZplBarcodeElement e data spec.dpi]
  | .line e => .ok [renderZplLineElement e spec.dpi]
  | .box e => .ok [renderZplBoxElement e spec.dpi]

def generateZpl (spec : LabelTemplateSpec) (data : LabelData) (deps : EmitDeps := {}) :
    Labels Units := do
  let lines ← spec.elements.mapM (zplElementLines spec data deps)
  return buildZplDocument (mmToDots spec.widthMm spec.dpi) (mmToDots spec.heightMm spec.dpi)
    lines.flatten

/-! ## The importer -/

/-- The commands the importer reads, and any other. -/
inductive ZplName where
  | XA | XZ | PW | LL | FO | A0 | FB | FD | FS | FH | BC | BY | BE | BX | BQ | GB
  | other (name : Units)
  deriving DecidableEq

def ZplName.text : ZplName → Units
  | .XA => encode "XA"
  | .XZ => encode "XZ"
  | .PW => encode "PW"
  | .LL => encode "LL"
  | .FO => encode "FO"
  | .A0 => encode "A0"
  | .FB => encode "FB"
  | .FD => encode "FD"
  | .FS => encode "FS"
  | .FH => encode "FH"
  | .BC => encode "BC"
  | .BY => encode "BY"
  | .BE => encode "BE"
  | .BX => encode "BX"
  | .BQ => encode "BQ"
  | .GB => encode "GB"
  | .other name => name

def supportedZplNames : List ZplName :=
  [.XA, .XZ, .PW, .LL, .FO, .A0, .FB, .FD, .FS, .FH, .BC, .BY, .BE, .BX, .BQ, .GB]

def zplNameOf (text : Units) : ZplName :=
  (supportedZplNames.find? fun name => name.text = text).getD (.other text)

def isUpper (u : UInt16) : Bool := 65 ≤ u && u ≤ 90

/-- How many units the name of a command has: three for `GFA`, else one or two. -/
def zplNameLength : Units → Option ℕ
  | [] => none
  | [u] => if isUpper u then some 1 else none
  | u :: v :: rest =>
    if (encode "GFA").isPrefixOf (u :: v :: rest) then some 3
    else if isUpper u then if isUpper v || isDigit v then some 2 else some 1
    else none

/-- A command and its arguments. -/
abbrev ZplToken := ZplName × Units

def zplTokenOf (segment : Units) : Option ZplToken :=
  (zplNameLength segment).map fun n => (zplNameOf (segment.take n), segment.drop n)

/-- `matchAll(TOKEN_RE)`: what follows a `^`, up to the next, when it begins with a name. -/
def zplTokens (source : Units) : List ZplToken :=
  ((source.splitOn 94).drop 1).filterMap zplTokenOf

def maxFieldBlockLines : ℚ := 16

def parseNumbers (value : Units) (count line : ℕ) (source : Units) : Labels (List (Option ℚ)) :=
  let values := (splitCommas value).map fun part => numberOf (ecmaTrim part)
  if values.length < count ∨ (values.take count).any (·.isNone) = true then
    importFail line source (encode "invalid numeric ZPL arguments: " ++ value)
  else .ok values

/-- A number that `parseNumbers` has checked. -/
def requiredNumber (values : List (Option ℚ)) (index line : ℕ) (source : Units) : Labels ℚ :=
  match values[index]? with
  | some (some value) => .ok value
  | _ => importFail line source (encode "missing numeric ZPL argument")

def isHexDigit (u : UInt16) : Bool := (hexValue u).isSome

/-- A text with `indicator` escapes, read from its beginning; `skip` units are done with. -/
def decodeFrom (indicator : UInt16) : ℕ → Units → Units
  | _, [] => []
  | skip + 1, _ :: rest => decodeFrom indicator skip rest
  | 0, u :: rest =>
    if u = indicator then
      if rest = [49] then decodeFrom indicator 1 rest
      else
        match rest with
        | a :: b :: tail =>
          if isHexDigit a && isHexDigit b then
            UInt16.ofNat ((hexValue a).getD 0 * 16 + (hexValue b).getD 0) ::
              decodeFrom indicator 2 (a :: b :: tail)
          else u :: decodeFrom indicator 0 (a :: b :: tail)
        | other => u :: decodeFrom indicator 0 other
    else u :: decodeFrom indicator 0 rest

def decodeFieldData (value : Units) (indicator : Option UInt16) : Units :=
  match indicator with
  | none => value
  | some u => decodeFrom u 0 value

def pointsFromDots (dots : ℚ) (dpi : PrinterDpi) : ℚ := max 4 (min 72 (dots * 72 / dpi.value))

def barcodeSize (args : Units) (line : ℕ) (source : Units) : Labels ℚ := do
  let trimmed := ecmaTrim args
  let withoutOrientation :=
    match trimmed with
    | u :: v :: rest => if isUpper u then if v = 44 then rest else v :: rest else u :: v :: rest
    | [u] => if isUpper u then [] else [u]
    | [] => []
  requiredNumber (← parseNumbers withoutOrientation 1 line source) 0 line source

def alignFromZpl (value : Option Units) : Option LabelAlign :=
  if value = some (encode "C") then some .center
  else if value = some (encode "R") then some .right
  else if value = some (encode "L") then some .left
  else none

structure ZplState where
  line : ℕ
  source : Units
  xDots : ℚ
  yDots : ℚ
  fontHeightDots : ℚ := 24
  align : Option LabelAlign := none
  maxWidthDots : Option ℚ := none
  maxLines : Option ℕ := none
  hexIndicator : Option UInt16 := none
  moduleWidthDots : Option ℚ := none
  barcode : Option (BarcodeFormat × ℚ) := none
  graphic : Option (ℚ × ℚ × ℚ) := none
  data : Option Units := none
  deriving DecidableEq

/-- What a graphic box is read as: a line when it is no wider or no higher than its border. -/
def graphicElement (id : Units) (xMm yMm widthDots heightDots thicknessDots : ℚ)
    (dpi : PrinterDpi) : LabelElement :=
  let widthMm := dotsToMm widthDots dpi
  let heightMm := dotsToMm heightDots dpi
  let thicknessMm := max (1 / 10) (dotsToMm thicknessDots dpi)
  if widthDots ≤ thicknessDots ∨ heightDots ≤ thicknessDots then
    .line ⟨id, xMm, yMm, xMm + widthMm, yMm + heightMm, thicknessMm⟩
  else .box ⟨id, xMm, yMm, widthMm, heightMm, thicknessMm⟩

def barcodeElementOf (state : ZplState) (id : Units) (format : BarcodeFormat) (sizeDots : ℚ)
    (dpi : PrinterDpi) : Labels LabelElement := do
  let decoded := decodeFieldData (state.data.getD []) state.hexIndicator
  let payload := if format = .qr ∧ (encode "QA,").isPrefixOf decoded = true then decoded.drop 3
    else decoded
  let source ← parseTemplatePayload payload state.line
  return .barcode {
    id := id
    xMm := dotsToMm state.xDots dpi
    yMm := dotsToMm state.yDots dpi
    format := format
    data := source
    sizeMm := max (1 / 10) (dotsToMm sizeDots dpi)
    moduleWidthMm := if format = .code128 ∨ format = .ean13 then
      state.moduleWidthDots.map (dotsToMm · dpi) else none }

def textElementOf (state : ZplState) (id : Units) (dpi : PrinterDpi) : Labels LabelElement := do
  let style : LabelTextStyle := {
    id := id
    xMm := dotsToMm state.xDots dpi
    yMm := dotsToMm state.yDots dpi
    fontSizePt := pointsFromDots state.fontHeightDots dpi
    maxWidthMm := state.maxWidthDots.map (dotsToMm · dpi)
    maxLines := state.maxLines
    align := state.align }
  match ← parseTemplatePayload (decodeFieldData (state.data.getD []) state.hexIndicator)
      state.line with
  | .field f => return .field { toLabelTextStyle := style, field := f }
  | .literal text => return .text { toLabelTextStyle := style, text := text }

def zplFieldElement (state : ZplState) (id : Units) (dpi : PrinterDpi) : Labels LabelElement :=
  match state.graphic with
  | some (width, height, thickness) =>
    .ok (graphicElement id (dotsToMm state.xDots dpi) (dotsToMm state.yDots dpi) width height
      thickness dpi)
  | none =>
    match state.barcode with
    | some (format, sizeDots) => barcodeElementOf state id format sizeDots dpi
    | none => textElementOf state id dpi

structure ZplParse where
  widthDots : Option ℚ := none
  heightDots : Option ℚ := none
  elements : List LabelElement := []
  sourceLineByElementId : List (Units × ℕ) := []
  warnings : List LabelImportWarning := []
  state : Option ZplState := none
  moduleWidthDots : Option ℚ := none
  started : Bool := false
  ended : Bool := false
  deriving DecidableEq

def finalizeField (parse : ZplParse) (state : ZplState) (dpi : PrinterDpi) : Labels ZplParse :=
  if state.data = none ∧ state.barcode = none ∧ state.graphic = none then .ok parse
  else
    let ordinal := parse.elements.length + 1
    if maxLabelCodeElements < ordinal then
      labelFail .labelCodeLimit (encode "label code exceeds 1000 elements")
    else do
      let id := importedElementId .zpl ordinal
      let element ← zplFieldElement state id dpi
      return { parse with
        elements := parse.elements ++ [element]
        sourceLineByElementId := parse.sourceLineByElementId ++ [(id, state.line)] }

/-- A command that needs a field begun. -/
def inField (parse : ZplParse) (line : ℕ) (source message : Units)
    (update : ZplState → Labels ZplState) : Labels ZplParse :=
  match parse.state with
  | none => importFail line source message
  | some state => do
    let state ← update state
    return { parse with state := some state }

def firstUnit (args : Units) (default : UInt16) : UInt16 := (ecmaTrim args).headD default

/-- One supported command. -/
def zplCommand (dpi : PrinterDpi) (line : ℕ) (source : Units) (parse : ZplParse) (args : Units) :
    ZplName → Labels ZplParse
  | .PW => do
    let width ← requiredNumber (← parseNumbers args 1 line source) 0 line source
    return { parse with widthDots := some width }
  | .LL => do
    let height ← requiredNumber (← parseNumbers args 1 line source) 0 line source
    return { parse with heightDots := some height }
  | .FO =>
    if parse.state.isSome then importFail line source (encode "ZPL field is missing ^FS")
    else do
      let numbers ← parseNumbers args 2 line source
      let xDots ← requiredNumber numbers 0 line source
      let yDots ← requiredNumber numbers 1 line source
      return { parse with state := some {
        line := line, source := source, xDots := xDots, yDots := yDots,
        moduleWidthDots := parse.moduleWidthDots } }
  | .A0 => inField parse line source (encode "ZPL font command requires ^FO") fun state =>
    if firstUnit args 78 ≠ 78 then
      importFail line source (encode "only non-rotated ZPL text is supported")
    else do
      let rest := (ecmaTrim args).drop 1
      let numbers ← parseNumbers (if rest.head? = some 44 then rest.drop 1 else rest) 2 line source
      let height ← requiredNumber numbers 0 line source
      let _ ← requiredNumber numbers 1 line source
      return { state with fontHeightDots := height }
  | .FB => inField parse line source (encode "ZPL field block requires ^FO") fun state =>
    let parts := splitCommas args
    match numberOf (parts.headD []) with
    | none => importFail line source (encode "invalid ZPL field block width")
    | some width =>
      if width ≤ 0 then importFail line source (encode "invalid ZPL field block width")
      else
        let lines := parts[1]?.bind numberOf
        .ok { state with
          maxWidthDots := some width
          maxLines := match lines with
            | some n => if n.isInt = true ∧ 2 ≤ n then some (min n maxFieldBlockLines).num.toNat
              else state.maxLines
            | none => state.maxLines
          align := ((alignFromZpl (parts[3]?.map ecmaTrim)).orElse fun _ => state.align) }
  | .FH => inField parse line source (encode "ZPL hex field command requires ^FO") fun state =>
    .ok { state with hexIndicator := some (firstUnit args 95) }
  | .FD => inField parse line source (encode "ZPL data command requires ^FO") fun state =>
    .ok { state with data := some args }
  | .BY =>
    match numberOf ((splitCommas args).headD []) with
    | none =>
      importFail line source (encode "ZPL module width must be an integer from 1 to 10 dots")
    | some width =>
      if width.isInt = false ∨ width < 1 ∨ 10 < width then
        importFail line source (encode "ZPL module width must be an integer from 1 to 10 dots")
      else .ok { parse with
        moduleWidthDots := some width
        state := parse.state.map fun state => { state with moduleWidthDots := some width } }
  | .BC => inField parse line source (encode "ZPL barcode command requires ^FO") fun state => do
    let size ← barcodeSize args line source
    return { state with barcode := some (.code128, size) }
  | .BE => inField parse line source (encode "ZPL barcode command requires ^FO") fun state => do
    let size ← barcodeSize args line source
    return { state with barcode := some (.ean13, size) }
  | .BX => inField parse line source (encode "ZPL barcode command requires ^FO") fun state => do
    let size ← barcodeSize args line source
    return { state with barcode := some (.datamatrix, size) }
  | .BQ => inField parse line source (encode "ZPL barcode command requires ^FO") fun state => do
    let size ← requiredNumber
      (← parseNumbers ((splitCommas args).getLastD []) 1 line source) 0 line source
    return { state with barcode := some (.qr, size) }
  | .GB => inField parse line source (encode "ZPL graphic box command requires ^FO") fun state => do
    let numbers ← parseNumbers args 3 line source
    let width ← requiredNumber numbers 0 line source
    let height ← requiredNumber numbers 1 line source
    let thickness ← requiredNumber numbers 2 line source
    return { state with graphic := some (width, height, thickness) }
  | .FS =>
    match parse.state with
    | none => .ok parse
    | some state => do
      let parse ← finalizeField parse state dpi
      return { parse with state := none }
  | .XA =>
    if parse.started then
      importFail line source (encode "ZPL source must contain exactly one ^XA document")
    else .ok { parse with started := true }
  | .XZ =>
    if parse.started = false ∨ parse.ended then
      importFail line source (encode "invalid ZPL document framing")
    else if parse.state.isSome then
      importFail line source (encode "ZPL source ended with an active field missing ^FS")
    else .ok { parse with ended := true }
  | .other name =>
    if parse.state.isSome then
      importFail line source (encode "unsupported ZPL command ^" ++ name ++
        encode " inside an active field")
    else .ok { parse with warnings := parse.warnings ++
      [⟨line, source, encode "unsupported ZPL command ^" ++ name⟩] }

def zplToken (dpi : PrinterDpi) (line : ℕ) (source : Units) (parse : ZplParse) (token : ZplToken) :
    Labels ZplParse :=
  if parse.ended then importFail line source (encode "ZPL commands cannot appear after ^XZ")
  else if token.1 ≠ .XA ∧ parse.started = false then
    importFail line source (encode "ZPL source must start with ^XA")
  else zplCommand dpi line source parse token.2 token.1

def zplSourceLine (dpi : PrinterDpi) (parse : ZplParse) (entry : Units × ℕ) : Labels ZplParse :=
  let tokens := zplTokens entry.1
  if tokens = [] then
    .ok (if ecmaTrim entry.1 = [] then parse else { parse with warnings := parse.warnings ++
      [⟨entry.2, entry.1, encode "unsupported ZPL line"⟩] })
  else tokens.foldlM (zplToken dpi entry.2 entry.1) parse

/-- What is checked when all lines are read. -/
def zplFinish (dpi : PrinterDpi) (parse : ZplParse) : Labels LabelImportResult :=
  if parse.started = false ∨ parse.ended = false then
    labelFail .labelCodeInvalid (encode "ZPL source must contain one ^XA...^XZ document")
  else
    match parse.state with
    | some state => importFail state.line state.source
        (encode "ZPL source ended with an active field missing ^FS")
    | none =>
      match parse.widthDots, parse.heightDots with
      | some widthDots, some heightDots => do
        let spec ← parseLabelTemplate {
          widthMm := dotsToMm widthDots dpi
          heightMm := dotsToMm heightDots dpi
          dpi := dpi
          language := .zpl
          elements := parse.elements }
        return ⟨spec, parse.warnings, parse.sourceLineByElementId⟩
      | _, _ => labelFail .labelCodeInvalid (encode "ZPL source must include ^PW and ^LL")

def parseZplLabel (input : Units) (dpi : PrinterDpi) : Labels LabelImportResult := do
  assertImportInputLimits input
  if maxLabelCodeCommands < input.count 94 then
    labelFail .labelCodeLimit (encode "label code exceeds 2000 commands")
  else
    let parse ← ((splitLines input).zipIdx 1).foldlM (zplSourceLine dpi) {}
    zplFinish dpi parse

end Markiro
