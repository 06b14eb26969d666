import Markiro.Domain.Numbers
import Markiro.Lib.Lines

/-!
# Label templates

The label model (`labels/model.ts`) with what the two printer languages share: the choice between
native and rasterized text (`text.ts`, `raster-types.ts`) and the limits and results of an import
(`import.ts`). Numbers are exact.
-/

namespace Markiro

open Utf16

/-! ## Failures -/

inductive LabelErrorCode where
  | rasterRequired | labelInvalid | labelCodeInvalid | labelCodeLimit | labelCodeTooLarge
  deriving DecidableEq

/-- A `DomainError` of the label functions; the cause of an import's error is a line and its text. -/
inductive LabelError where
  | domain (error : DomainError)
  | label (code : LabelErrorCode) (message : Units) (cause : Option (ℕ × Units))
  deriving DecidableEq

abbrev Labels := Except LabelError

def labelFail {α : Type} (code : LabelErrorCode) (message : Units) : Labels α :=
  .error (.label code message none)

/-- `fail(line, source, message)` of both importers. -/
def importFail {α : Type} (line : ℕ) (source message : Units) : Labels α :=
  .error (.label .labelCodeInvalid message (some (line, source)))

/-! ## The model -/

/-- What a text or a barcode can be bound to. -/
inductive LabelField where
  | productName | productPrintName | productGtin | productEgais | kmCode | sscc | shiftNo | date
  | expiry | qty | qtyBoxes | operator | counterpartyName
  deriving DecidableEq

def LabelField.text : LabelField → Units
  | .productName => encode "product.name"
  | .productPrintName => encode "product.printName"
  | .productGtin => encode "product.gtin"
  | .productEgais => encode "product.egais"
  | .kmCode => encode "km.code"
  | .sscc => encode "sscc"
  | .shiftNo => encode "shift.no"
  | .date => encode "date"
  | .expiry => encode "expiry"
  | .qty => encode "qty"
  | .qtyBoxes => encode "qty.boxes"
  | .operator => encode "operator"
  | .counterpartyName => encode "counterparty.name"

def labelFields : List LabelField := [.productName, .productPrintName, .productGtin, .productEgais,
  .kmCode, .sscc, .shiftNo, .date, .expiry, .qty, .qtyBoxes, .operator, .counterpartyName]

abbrev LabelData := LabelField → Units

inductive LabelAlign where
  | left | center | right
  deriving DecidableEq

inductive FontFamily where
  | sansSerif | monospace
  deriving DecidableEq

/-- Placement and type of a text: `maxWidthMm` is a hard limit, `maxLines` is 1 when absent. -/
structure LabelTextStyle where
  id : Units
  xMm : ℚ
  yMm : ℚ
  fontSizePt : ℚ
  minFontSizePt : Option ℚ := none
  bold : Option Bool := none
  fontFamily : Option FontFamily := none
  lineHeight : Option ℚ := none
  align : Option LabelAlign := none
  maxWidthMm : Option ℚ := none
  maxLines : Option ℕ := none
  deriving DecidableEq

structure LabelTextElement extends LabelTextStyle where
  text : Units
  deriving DecidableEq

inductive LabelTextFormat where
  | kmWithoutCrypto | quantityNumber | ssccWithTitle | ssccSpaced
  deriving DecidableEq

structure LabelFieldElement extends LabelTextStyle where
  field : LabelField
  textFormat : Option LabelTextFormat := none
  deriving DecidableEq

inductive BarcodeFormat where
  | datamatrix | code128 | ean13 | qr
  deriving DecidableEq

inductive BarcodeSource where
  | field (field : LabelField)
  | literal (text : Units)
  deriving DecidableEq

/-- `sizeMm` is the height of a linear barcode and the module of a matrix code; `moduleWidthMm` is
the narrow bar of a linear one. -/
structure LabelBarcodeElement where
  id : Units
  xMm : ℚ
  yMm : ℚ
  format : BarcodeFormat
  data : BarcodeSource
  sizeMm : ℚ
  moduleWidthMm : Option ℚ := none
  deriving DecidableEq

structure LabelLineElement where
  id : Units
  xMm : ℚ
  yMm : ℚ
  x2Mm : ℚ
  y2Mm : ℚ
  thicknessMm : ℚ
  deriving DecidableEq

structure LabelBoxElement where
  id : Units
  xMm : ℚ
  yMm : ℚ
  widthMm : ℚ
  heightMm : ℚ
  thicknessMm : ℚ
  deriving DecidableEq

structure LabelOrganizationLogoElement where
  id : Units
  xMm : ℚ
  yMm : ℚ
  widthMm : ℚ
  heightMm : ℚ
  deriving DecidableEq

inductive LabelElement where
  | text (element : LabelTextElement)
  | field (element : LabelFieldElement)
  | barcode (element : LabelBarcodeElement)
  | line (element : LabelLineElement)
  | box (element : LabelBoxElement)
  | organizationLogo (element : LabelOrganizationLogoElement)
  deriving DecidableEq

def LabelElement.id : LabelElement → Units
  | .text e => e.id
  | .field e => e.id
  | .barcode e => e.id
  | .line e => e.id
  | .box e => e.id
  | .organizationLogo e => e.id

inductive PrinterDpi where
  | dpi203 | dpi300
  deriving DecidableEq

def PrinterDpi.value : PrinterDpi → ℚ
  | .dpi203 => 203
  | .dpi300 => 300

inductive LabelLanguage where
  | zpl | tspl
  deriving DecidableEq

structure LabelTemplateSpec where
  widthMm : ℚ
  heightMm : ℚ
  dpi : PrinterDpi
  language : LabelLanguage
  elements : List LabelElement
  deriving DecidableEq

/-! ### What the schema accepts -/

def LabelTextStyle.Valid (e : LabelTextStyle) : Prop :=
  e.id ≠ [] ∧ (4 ≤ e.fontSizePt ∧ e.fontSizePt ≤ 72) ∧
    (∀ m ∈ e.minFontSizePt, 4 ≤ m ∧ m ≤ 72 ∧ m ≤ e.fontSizePt) ∧
    (∀ h ∈ e.lineHeight, 1 ≤ h ∧ h ≤ 2) ∧ (∀ w ∈ e.maxWidthMm, 0 < w) ∧
    ∀ n ∈ e.maxLines, 1 ≤ n ∧ n ≤ 16

instance (e : LabelTextStyle) : Decidable e.Valid := by unfold LabelTextStyle.Valid; infer_instance

def LabelTextFormat.Fits (format : LabelTextFormat) (field : LabelField) : Prop :=
  match format with
  | .kmWithoutCrypto => field = .kmCode
  | .quantityNumber => field = .qty ∨ field = .qtyBoxes
  | .ssccWithTitle | .ssccSpaced => field = .sscc

instance (format : LabelTextFormat) (field : LabelField) : Decidable (format.Fits field) := by
  unfold LabelTextFormat.Fits
  cases format <;> infer_instance

def LabelElement.Valid : LabelElement → Prop
  | .text e => e.Valid
  | .field e => e.Valid ∧ ∀ f ∈ e.textFormat, f.Fits e.field
  | .barcode e => e.id ≠ [] ∧ 0 < e.sizeMm ∧ ∀ w ∈ e.moduleWidthMm, 0 < w
  | .line e => e.id ≠ [] ∧ 0 < e.thicknessMm
  | .box e => e.id ≠ [] ∧ 0 < e.widthMm ∧ 0 < e.heightMm ∧ 0 < e.thicknessMm
  | .organizationLogo e => e.id ≠ [] ∧ (0 < e.widthMm ∧ e.widthMm ≤ 100) ∧
      0 < e.heightMm ∧ e.heightMm ≤ 50

instance (e : LabelElement) : Decidable e.Valid := by
  unfold LabelElement.Valid
  cases e <;> infer_instance

/-- Everything the schema and its refinement check. -/
def LabelTemplateSpec.Valid (spec : LabelTemplateSpec) : Prop :=
  (10 ≤ spec.widthMm ∧ spec.widthMm ≤ 300) ∧ (10 ≤ spec.heightMm ∧ spec.heightMm ≤ 300) ∧
    (∀ e ∈ spec.elements, e.Valid) ∧ (spec.elements.map (·.id)).Nodup

instance (spec : LabelTemplateSpec) : Decidable spec.Valid := by
  unfold LabelTemplateSpec.Valid
  infer_instance

/-- The message, that of the schema's first issue, is left out. -/
def parseLabelTemplate (spec : LabelTemplateSpec) : Labels LabelTemplateSpec :=
  if spec.Valid then .ok spec else labelFail .labelInvalid []

/-! ### Units -/

def mmToDots (mm : ℚ) (dpi : PrinterDpi) : ℤ := mathRound (mm * dpi.value / (254 / 10))

def ptToDots (pt : ℚ) (dpi : PrinterDpi) : ℤ := mathRound (pt / 72 * dpi.value)

/-- `dotsToMm` of both importers. -/
def dotsToMm (dots : ℚ) (dpi : PrinterDpi) : ℚ := dots * (254 / 10) / dpi.value

/-! ### Display values -/

def labelFieldDisplayValue (field : LabelField) (data : LabelData)
    (textFormat : Option LabelTextFormat) : Domain Units :=
  let value := data field
  if field = .kmCode ∧ textFormat = some .kmWithoutCrypto then
    match canonicalizeKm value with
    | .ok km => .ok (encode "01" ++ km.gtin14 ++ encode "21" ++ km.serial)
    | .error _ => .ok []
  else if (field = .qty ∨ field = .qtyBoxes) ∧ textFormat = some .quantityNumber then
    .ok (ecmaTrim value)
  else if field = .sscc ∧ isDigits 18 value = true then
    if textFormat = some .ssccWithTitle then .ok (encode "SSCC  (00) " ++ value)
    else if textFormat = some .ssccSpaced then .ok (encode "(00) " ++ value)
    else formatSsccHri value
  else if (field = .qty ∨ field = .qtyBoxes) ∧
      (ecmaTrim value ≠ [] ∧ (ecmaTrim value).all isDigit = true) then
    .ok (ecmaTrim value ++ encode (if field = .qty then " шт." else " кор."))
  else .ok value

/-! ## Native and rasterized text -/

/-- A unit outside printable ASCII; the parts of a surrogate pair are outside too. -/
def needsImageRendering (text : Units) : Bool := text.any fun u => u < 0x20 || 0x7e < u

structure RasterResult where
  hex : Units
  totalBytes : ℤ
  bytesPerRow : ℤ
  width : ℤ
  height : ℤ
  deriving DecidableEq

structure RasterizeTextOptions where
  fontFamily : FontFamily
  fontSizePx : ℤ
  bold : Bool
  maxWidthPx : Option ℤ
  maxLines : ℕ
  lineHeight : Option ℚ
  minFontSizePx : Option ℤ
  deriving DecidableEq

/-- What an emitter is given: the rasterizers of texts, of a logo (`renderLabelLogo` with the logo's
bitmap: the place in dots and the raster) and of a marking code, which only a raster layout uses. -/
structure EmitDeps where
  rasterizeText : Option (Units → RasterizeTextOptions → RasterResult) := none
  logo : Option (LabelOrganizationLogoElement → PrinterDpi → Labels (ℤ × ℤ × RasterResult)) := none
  kmDataMatrix : Option (Units → ℤ → Labels RasterResult) := none

def rasterAlignOffsetDots (align : Option LabelAlign) (maxWidthDots : Option ℤ)
    (rasterWidthDots : ℤ) : ℤ :=
  match maxWidthDots with
  | none => 0
  | some width =>
    let leftover := width - rasterWidthDots
    match align with
    | some .center => max 0 (mathRound ((leftover : ℚ) / 2))
    | some .right => max 0 leftover
    | _ => 0

/-- Whether a text goes to the rasterizer. -/
def isRasterized (element : LabelTextStyle) (text : Units) : Bool :=
  needsImageRendering text || element.lineHeight.isSome || element.fontFamily.isSome

/-- What the rasterizer is asked for. -/
def rasterizeOptions (element : LabelTextStyle) (dpi : PrinterDpi) : RasterizeTextOptions where
  fontFamily := element.fontFamily.getD .sansSerif
  fontSizePx := ptToDots element.fontSizePt dpi
  bold := element.bold.getD false
  maxWidthPx := element.maxWidthMm.map (mmToDots · dpi)
  maxLines := element.maxLines.getD 1
  lineHeight := element.lineHeight
  minFontSizePx := element.minFontSizePt.map (ptToDots · dpi)

def rasterOf (deps : EmitDeps) (element : LabelTextStyle) (text : Units) (dpi : PrinterDpi) :
    Labels RasterResult :=
  match deps.rasterizeText with
  | none => labelFail .rasterRequired (encode "label text " ++ quoted text ++
      encode " contains characters outside printable ASCII and needs image rendering, but no rasterizeText dependency was provided")
  | some rasterize => .ok (rasterize text (rasterizeOptions element dpi))

/-- The value of a barcode and the field it comes from. -/
def resolveBarcodeSource (source : BarcodeSource) (data : LabelData) : Units × Option LabelField :=
  match source with
  | .field f => (data f, some f)
  | .literal text => (text, none)

/-- The raster of a marking code, in a layout that asks for it. -/
def kmRasterOf (deps : EmitDeps) (element : LabelBarcodeElement) :
    Option (Units → ℤ → Labels RasterResult) :=
  if element.format = .datamatrix ∧ element.data = .field .kmCode then deps.kmDataMatrix else none

/-! ## Imports -/

def maxLabelCodeBytes : ℕ := 256 * 1024

def maxLabelCodeCommands : ℕ := 2000

def maxLabelCodeElements : ℕ := 1000

structure LabelImportWarning where
  line : ℕ
  source : Units
  message : Units
  deriving DecidableEq

structure LabelImportResult where
  spec : LabelTemplateSpec
  warnings : List LabelImportWarning
  sourceLineByElementId : List (Units × ℕ)
  deriving DecidableEq

def assertImportInputLimits (input : Units) : Labels Unit :=
  if maxLabelCodeBytes < (utf8Bytes input).length then
    labelFail .labelCodeTooLarge (encode "label code exceeds 262144 bytes")
  else .ok ()

def importedElementId (language : LabelLanguage) (ordinal : ℕ) : Units :=
  encode "import-" ++ (match language with | .zpl => encode "zpl" | .tspl => encode "tspl") ++
    encode "-" ++ numeral ordinal

/-- Whether two equal units stand side by side. -/
def hasDouble (u : UInt16) : Units → Bool
  | [] => false
  | [_] => false
  | a :: b :: rest => (decide (a = u) && decide (b = u)) || hasDouble u (b :: rest)

/-- The inside of `{{…}}` without braces in it. -/
def placeholderOf (value : Units) : Option Units :=
  let inner := (value.drop 2).take (value.length - 4)
  if 4 < value.length ∧ value = encode "\x7b\x7b" ++ inner ++ encode "\x7d\x7d" ∧
      inner.all (fun u => decide (u ≠ 123 ∧ u ≠ 125)) = true then some inner
  else none

/-- A placeholder is a field, and anything without double braces a literal. -/
def parseTemplatePayload (value : Units) (line : ℕ) : Labels BarcodeSource :=
  match placeholderOf value with
  | some candidate =>
    match labelFields.find? fun f => f.text = candidate with
    | some field => .ok (.field field)
    | none => importFail line value
        (encode "unknown label field placeholder " ++ quoted candidate)
  | none =>
    if hasDouble 123 value ∨ hasDouble 125 value then
      importFail line value (encode "mixed or malformed label field placeholder")
    else .ok (.literal value)

/-- `split(/\r?\n/)`. -/
def splitLines (input : Units) : List Units :=
  let segments := input.splitOn lineFeed
  (segments.dropLast.map fun s => if s.getLast? = some 13 then s.dropLast else s) ++
    segments.getLast?.toList

/-- `split(",")`. -/
def splitCommas (s : Units) : List Units := s.splitOn 44

end Markiro
