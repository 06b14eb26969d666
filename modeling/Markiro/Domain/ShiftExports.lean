import Markiro.Domain.Documents

/-!
# Shift exports

The files of a closed shift (`shift-exports.ts`): the registered formats, the blocks a source is cut
into, the parts under a line limit and the file of each part.
-/

namespace Markiro

open Utf16

/-! ## Formats -/

inductive ShiftExportFormatId where
  | shiftTxtFlat | shiftTxtBoxes | shiftTxtBoxesReversed | shiftCsvFlat | shiftCsvBoxes
  | shiftXmlGismtAggregation | shiftTxtPallets | shiftCsvPallets
  | shiftXmlGismtAggregationPallets | shiftTxtPalletBoxes | shiftXmlGismtPalletBoxes
  deriving DecidableEq

/-- How a format groups the shift's codes. -/
inductive ShiftExportBoxMode where
  | flat | boxes | pallets | palletBoxes
  deriving DecidableEq

inductive ExportExtension where
  | txt | csv | xml
  deriving DecidableEq

def ExportExtension.text : ExportExtension → String
  | .txt => "txt"
  | .csv => "csv"
  | .xml => "xml"

structure ShiftExportFormatDescriptor where
  id : ShiftExportFormatId
  version : ℕ
  extension : ExportExtension
  boxMode : ShiftExportBoxMode
  deriving DecidableEq

def ShiftExportFormatDescriptor.mimeType (d : ShiftExportFormatDescriptor) : String :=
  match d.extension with
  | .txt => "text/plain; charset=utf-8"
  | .csv => "text/csv; charset=utf-8"
  | .xml => "application/xml; charset=utf-8"

def shiftExportFormats : List ShiftExportFormatDescriptor := [
  ⟨.shiftTxtFlat, 1, .txt, .flat⟩,
  ⟨.shiftTxtBoxes, 2, .txt, .boxes⟩,
  ⟨.shiftTxtBoxesReversed, 1, .txt, .boxes⟩,
  ⟨.shiftCsvFlat, 1, .csv, .flat⟩,
  ⟨.shiftCsvBoxes, 2, .csv, .boxes⟩,
  ⟨.shiftXmlGismtAggregation, 1, .xml, .boxes⟩,
  ⟨.shiftTxtPallets, 1, .txt, .pallets⟩,
  ⟨.shiftCsvPallets, 1, .csv, .pallets⟩,
  ⟨.shiftXmlGismtAggregationPallets, 1, .xml, .pallets⟩,
  ⟨.shiftTxtPalletBoxes, 1, .txt, .palletBoxes⟩,
  ⟨.shiftXmlGismtPalletBoxes, 1, .xml, .palletBoxes⟩]

/-- The first versions of the boxes formats: the only ones that write the bare 18-digit SSCC. -/
def legacyShiftExportFormats : List ShiftExportFormatDescriptor := [
  ⟨.shiftTxtBoxes, 1, .txt, .boxes⟩,
  ⟨.shiftCsvBoxes, 1, .csv, .boxes⟩]

/-! ## Inputs and results -/

structure ShiftExportPalletGroup where
  sscc : Units
  boxes : List GismtAggregationBox
  deriving DecidableEq

inductive ShiftExportSource where
  | flat (codes : List Units)
  | boxes (boxes : List GismtAggregationBox)
  | pallets (pallets : List ShiftExportPalletGroup) (looseBoxes : List GismtAggregationBox)

inductive ShiftExportSourceMode where
  | flat | boxes | pallets
  deriving DecidableEq

def ShiftExportSource.mode : ShiftExportSource → ShiftExportSourceMode
  | .flat _ => .flat
  | .boxes _ => .boxes
  | .pallets _ _ => .pallets

def shiftExportSourceModeFor : ShiftExportBoxMode → ShiftExportSourceMode
  | .flat => .flat
  | .boxes => .boxes
  | .pallets => .pallets
  | .palletBoxes => .pallets

structure ShiftExportDocumentMetadata where
  documentId : Units
  documentNumber : Units
  fileDateTime : Units
  operationDateTime : Units

structure RenderShiftExportInput where
  formatId : ShiftExportFormatId
  formatVersion : ℚ
  productName : Units
  shiftDate : Units
  maxLines : Option ℚ
  source : ShiftExportSource
  organizationInn : Option Units
  organizationName : Option Units
  document : Option ShiftExportDocumentMetadata

structure ShiftExportPart where
  partNumber : ℕ
  physicalLineCount : ℕ
  codeCount : ℕ
  boxCount : ℕ
  palletCount : ℕ
  filename : Units
  mimeType : String
  bytes : List UInt8

inductive ShiftExportDomainErrorCode where
  | formatNotFound | formatSourceMismatch | emptySource | invalidLineLimit | boxExceedsLineLimit
  | palletExceedsLineLimit | invalidBoxSscc | invalidCis | invalidOrgInn | invalidDocumentMetadata
  | orgInnMissing | orgNameMissing | documentMetadataMissing
  deriving DecidableEq

inductive ExportError where
  | domain (code : ShiftExportDomainErrorCode)
  | plain (message : String)
  deriving DecidableEq

abbrev Export := Except ExportError

def exportFail {α : Type} (code : ShiftExportDomainErrorCode) : Export α := .error (.domain code)

def getShiftExportFormat (id : ShiftExportFormatId) (version : ℚ) :
    Export ShiftExportFormatDescriptor :=
  match (shiftExportFormats ++ legacyShiftExportFormats).find? fun candidate =>
      candidate.id = id ∧ (candidate.version : ℚ) = version with
  | some descriptor => .ok descriptor
  | none => exportFail .formatNotFound

def isLegacyShiftExportFormat (d : ShiftExportFormatDescriptor) : Bool :=
  legacyShiftExportFormats.any fun legacy => legacy.id = d.id ∧ legacy.version = d.version

def validateLineLimit (maxLines : Option ℚ) : Export Unit :=
  match maxLines with
  | none => .ok ()
  | some n =>
    if n.isInt = false ∨ n < 2 ∨ 1000000 < n then exportFail .invalidLineLimit else .ok ()

/-! ## Blocks -/

/-- What is never cut in two: a code, a box or a pallet with its boxes. -/
structure ShiftExportBlock where
  lines : Option (List Units) := none
  csvRows : Option (List (List Units)) := none
  xmlBox : Option GismtAggregationBox := none
  xmlBoxes : Option (List GismtAggregationBox) := none
  xmlPallet : Option GismtAggregationPallet := none
  isPalletGroup : Bool := false
  physicalLineCount : ℕ
  codeCount : ℕ
  boxCount : ℕ
  palletCount : Option ℕ := none

def countCsvPhysicalLines : Units → ℕ
  | [] => 1
  | u :: rest =>
    if u = 13 then
      match rest with
      | [] => 2
      | v :: rest => if v = lineFeed then countCsvPhysicalLines rest + 1
        else countCsvPhysicalLines (v :: rest) + 1
    else if u = lineFeed then countCsvPhysicalLines rest + 1
    else countCsvPhysicalLines rest

def csvRowPhysicalLineCount (fields : List Units) : ℕ :=
  (fields.map countCsvPhysicalLines).sum - (fields.length - 1)

def formatBoxSscc (sscc : Units) : Export Units :=
  match formatGismtAggregationSscc sscc with
  | .ok text => .ok text
  | .error _ => exportFail .invalidBoxSscc

def palletModeBoxBlock (d : ShiftExportFormatDescriptor) (box : GismtAggregationBox)
    (palletColumn : Units) : Export ShiftExportBlock :=
  if d.extension = .xml then
    .ok {
      xmlBox := some box
      physicalLineCount := gismtAggregationBoxLineCount box
      codeCount := box.codes.length
      boxCount := 1 }
  else do
    let ssccOut ← formatBoxSscc box.sscc
    if d.extension = .txt then
      let lines := ssccOut :: box.codes ++ [[]]
      return {
        lines := some lines
        physicalLineCount := lines.length
        codeCount := box.codes.length
        boxCount := 1 }
    else
      return {
        csvRows := some (box.codes.map fun code => [palletColumn, ssccOut, code])
        physicalLineCount :=
          (box.codes.map fun code => csvRowPhysicalLineCount [palletColumn, ssccOut, code]).sum
        codeCount := box.codes.length
        boxCount := 1 }

def requireXmlBox (block : ShiftExportBlock) : Export GismtAggregationBox :=
  match block.xmlBox with
  | some box => .ok box
  | none => .error (.plain "Missing XML aggregation box")

/-- The first column of a pallet's rows. -/
def palletColumnOf (d : ShiftExportFormatDescriptor) (pallet : ShiftExportPalletGroup) :
    Export Units :=
  if d.extension = .csv then formatBoxSscc pallet.sscc else .ok []

def buildPalletGroupBlock (d : ShiftExportFormatDescriptor) (pallet : ShiftExportPalletGroup) :
    Export ShiftExportBlock := do
  let palletColumn ← palletColumnOf d pallet
  let boxBlocks ← pallet.boxes.mapM fun box => palletModeBoxBlock d box palletColumn
  let codeCount := (boxBlocks.map (·.codeCount)).sum
  let boxCount := boxBlocks.length
  let physicalLineCountOfBoxes := (boxBlocks.map (·.physicalLineCount)).sum
  if d.extension = .xml then
    let xmlPallet : GismtAggregationPallet := ⟨pallet.sscc, pallet.boxes.map (·.sscc)⟩
    let xmlBoxes ← boxBlocks.mapM requireXmlBox
    return {
      xmlBoxes := some xmlBoxes
      xmlPallet := some xmlPallet
      isPalletGroup := true
      palletCount := some 1
      physicalLineCount := physicalLineCountOfBoxes + gismtAggregationPalletLineCount xmlPallet
      codeCount := codeCount
      boxCount := boxCount }
  else if d.extension = .txt then
    let sscc ← formatBoxSscc pallet.sscc
    return {
      lines := some (sscc :: boxBlocks.flatMap fun block => block.lines.getD [])
      isPalletGroup := true
      palletCount := some 1
      physicalLineCount := 1 + physicalLineCountOfBoxes
      codeCount := codeCount
      boxCount := boxCount }
  else
    return {
      csvRows := some (boxBlocks.flatMap fun block => block.csvRows.getD [])
      isPalletGroup := true
      palletCount := some 1
      physicalLineCount := physicalLineCountOfBoxes
      codeCount := codeCount
      boxCount := boxCount }

def buildPalletBoxesBlock (d : ShiftExportFormatDescriptor) (pallet : ShiftExportPalletGroup) :
    Export ShiftExportBlock :=
  let codeCount := (pallet.boxes.map fun box => box.codes.length).sum
  let boxCount := pallet.boxes.length
  if d.extension = .xml then
    let xmlPallet : GismtAggregationPallet := ⟨pallet.sscc, pallet.boxes.map (·.sscc)⟩
    .ok {
      xmlBoxes := some []
      xmlPallet := some xmlPallet
      isPalletGroup := true
      palletCount := some 1
      physicalLineCount := gismtAggregationPalletLineCount xmlPallet
      codeCount := codeCount
      boxCount := boxCount }
  else do
    let sscc ← formatBoxSscc pallet.sscc
    let members ← pallet.boxes.mapM fun box => formatBoxSscc box.sscc
    let lines := sscc :: members ++ [[]]
    return {
      lines := some lines
      isPalletGroup := true
      palletCount := some 1
      physicalLineCount := lines.length
      codeCount := codeCount
      boxCount := boxCount }

def flatBlock (d : ShiftExportFormatDescriptor) (code : Units) : ShiftExportBlock where
  lines := if d.extension = .csv then none else some [code]
  csvRows := if d.extension = .csv then some [[code]] else none
  physicalLineCount := if d.extension = .csv then countCsvPhysicalLines code else 1
  codeCount := 1
  boxCount := 0

def ssccOutOf (d : ShiftExportFormatDescriptor) (box : GismtAggregationBox) : Export Units :=
  if isLegacyShiftExportFormat d then .ok box.sscc else formatBoxSscc box.sscc

def boxBlock (d : ShiftExportFormatDescriptor) (box : GismtAggregationBox) :
    Export ShiftExportBlock :=
  if d.extension = .xml then
    .ok {
      xmlBox := some box
      physicalLineCount := gismtAggregationBoxLineCount box
      codeCount := box.codes.length
      boxCount := 1 }
  else do
    let ssccOut ← ssccOutOf d box
    if d.extension = .txt then
      let lines := if d.id = .shiftTxtBoxesReversed then box.codes ++ [ssccOut, []]
        else ssccOut :: box.codes ++ [[]]
      return {
        lines := some lines
        physicalLineCount := lines.length
        codeCount := box.codes.length
        boxCount := 1 }
    else
      return {
        csvRows := some (box.codes.map fun code => [ssccOut, code])
        physicalLineCount := box.codes.foldl (fun total code =>
          total + countCsvPhysicalLines ssccOut + countCsvPhysicalLines code - 1) 0
        codeCount := box.codes.length
        boxCount := 1 }

/-- Pallets come first, loose boxes after them; a pallet-to-box export leaves loose boxes out. -/
def createBlocks (d : ShiftExportFormatDescriptor) : ShiftExportSource → Export
    (List ShiftExportBlock)
  | .flat codes => .ok (codes.map (flatBlock d))
  | .boxes boxes => boxes.mapM (boxBlock d)
  | .pallets pallets looseBoxes =>
    if d.boxMode = .palletBoxes then pallets.mapM (buildPalletBoxesBlock d)
    else do
      let groups ← pallets.mapM (buildPalletGroupBlock d)
      let loose ← looseBoxes.mapM fun box => palletModeBoxBlock d box []
      return groups ++ loose

/-! ## Parts -/

structure ShiftExportPartBlocks where
  blocks : List ShiftExportBlock
  physicalLineCount : ℕ

def headerLines (d : ShiftExportFormatDescriptor) : ℕ :=
  match d.extension with
  | .csv => 1
  | .xml => gismtAggregationOverheadLineCount
  | .txt => 0

def splitLoop (header maxLines : ℕ) (parts : List ShiftExportPartBlocks)
    (current : ShiftExportPartBlocks) : List ShiftExportBlock → Export (List ShiftExportPartBlocks)
  | [] => .ok (parts ++ [current])
  | block :: rest =>
    if maxLines < header + block.physicalLineCount then
      exportFail (if block.isPalletGroup then .palletExceedsLineLimit else .boxExceedsLineLimit)
    else if 0 < current.blocks.length ∧
        maxLines < current.physicalLineCount + block.physicalLineCount then
      splitLoop header maxLines (parts ++ [current])
        ⟨[block], header + block.physicalLineCount⟩ rest
    else
      splitLoop header maxLines parts
        ⟨current.blocks ++ [block], current.physicalLineCount + block.physicalLineCount⟩ rest

def splitBlocks (d : ShiftExportFormatDescriptor) (blocks : List ShiftExportBlock)
    (maxLines : Option ℕ) : Export (List ShiftExportPartBlocks) :=
  match maxLines with
  | none => .ok [⟨blocks, headerLines d + (blocks.map (·.physicalLineCount)).sum⟩]
  | some n => splitLoop (headerLines d) n [] ⟨[], headerLines d⟩ blocks

def csvHeaderFor : ShiftExportBoxMode → List Units
  | .flat => [encode "code"]
  | .boxes => [encode "box_sscc", encode "code"]
  | .pallets | .palletBoxes => [encode "pallet_sscc", encode "box_sscc", encode "code"]

def encodePart (d : ShiftExportFormatDescriptor) (blocks : List ShiftExportBlock) : List UInt8 :=
  if d.extension = .csv then
    encodeSemicolonCsv (csvHeaderFor d.boxMode) (blocks.flatMap fun block => block.csvRows.getD [])
  else encodeLfText (blocks.flatMap fun block => block.lines.getD [])

def collectXmlBoxes (block : ShiftExportBlock) : Export (List GismtAggregationBox) :=
  match block.xmlBoxes with
  | some boxes => .ok boxes
  | none => do return [← requireXmlBox block]

def collectXmlPallets (block : ShiftExportBlock) : List GismtAggregationPallet :=
  block.xmlPallet.toList

def exportErrorOf : GismtAggregationErrorCode → ShiftExportDomainErrorCode
  | .orgInnMissing => .orgInnMissing
  | .invalidOrgInn => .invalidOrgInn
  | .invalidDocumentMetadata => .invalidDocumentMetadata
  | .invalidSscc => .invalidBoxSscc
  | .invalidCis => .invalidCis

def renderXmlPart (organizationInn : Units) (document : GismtAggregationDocument)
    (blocks : List ShiftExportBlock) : Export GismtAggregationRenderResult := do
  let boxes ← blocks.mapM collectXmlBoxes
  match renderGismtAggregationXml organizationInn document boxes.flatten
      (blocks.flatMap collectXmlPallets) with
  | .ok result => .ok result
  | .error code => exportFail (exportErrorOf code)

/-! ## The export -/

/-- `/^\d{4}-\d{2}-\d{2}$/`. -/
def isShiftDate (date : Units) : Bool := hasColumns (encode "0000-00-00") date

/-- What the file names are made of; `productName` is the sanitized one. -/
def createFilename (d : ShiftExportFormatDescriptor) (productName shiftDate : Units)
    (codeCount boxCount palletCount partNumber : ℕ) (hasMultipleParts : Bool) : Units :=
  let boxCountSegment := if d.boxMode = .flat then [] else encode "_" ++ numeral boxCount ++ encode "box"
  let palletCountSegment :=
    if shiftExportSourceModeFor d.boxMode = .pallets then
      encode "_" ++ numeral palletCount ++ encode "pallet"
    else []
  let partSegment := if hasMultipleParts then encode "_часть_" ++ numeral partNumber else []
  productName ++ encode "_" ++ numeral codeCount ++ encode "pcs" ++ boxCountSegment ++
    palletCountSegment ++ encode "_" ++ shiftDate ++ partSegment ++ encode "." ++
    encode d.extension.text

/-- Each part is a file and a document of its own: its number is appended when there are more. -/
def documentFor (base : ShiftExportDocumentMetadata) (organizationName : Units) (partNumber : ℕ)
    (hasMultipleParts : Bool) : GismtAggregationDocument :=
  let suffix := if hasMultipleParts then encode "-" ++ numeral partNumber else []
  ⟨base.documentId ++ suffix, base.documentNumber ++ suffix, base.fileDateTime,
    base.operationDateTime, organizationName⟩

def requireDocument (d : ShiftExportFormatDescriptor) (organizationInn organizationName : Units)
    (document : Option ShiftExportDocumentMetadata) :
    Export (Option ShiftExportDocumentMetadata) :=
  if d.extension = .xml then
    if organizationInn = [] then exportFail .orgInnMissing
    else if organizationName = [] then exportFail .orgNameMissing
    else
      match document with
      | some base => .ok (some base)
      | none => exportFail .documentMetadataMissing
  else .ok none

def renderDocumentPart (organizationInn organizationName : Units)
    (document : Option ShiftExportDocumentMetadata) (partNumber : ℕ) (hasMultipleParts : Bool)
    (blocks : List ShiftExportBlock) : Export (Option GismtAggregationRenderResult) :=
  match document with
  | some base => (renderXmlPart organizationInn
      (documentFor base organizationName partNumber hasMultipleParts) blocks).map some
  | none => .ok none

def renderPart (sanitize : Units → Units) (d : ShiftExportFormatDescriptor)
    (input : RenderShiftExportInput) (organizationInn organizationName : Units)
    (document : Option ShiftExportDocumentMetadata) (hasMultipleParts : Bool)
    (part : ShiftExportPartBlocks) (partNumber : ℕ) : Export ShiftExportPart := do
  let xmlRendered ← renderDocumentPart organizationInn organizationName document partNumber
    hasMultipleParts part.blocks
  let countFromBlocks : Bool := d.boxMode = .palletBoxes
  let written := if countFromBlocks then none else xmlRendered
  let codeCount := (written.map (·.codeCount)).getD (part.blocks.map (·.codeCount)).sum
  let boxCount := (written.map (·.boxCount)).getD (part.blocks.map (·.boxCount)).sum
  let palletCount := (part.blocks.map fun block => block.palletCount.getD 0).sum
  return {
    partNumber := partNumber
    physicalLineCount := (xmlRendered.map (·.physicalLineCount)).getD part.physicalLineCount
    codeCount := codeCount
    boxCount := boxCount
    palletCount := palletCount
    filename := createFilename d (sanitize input.productName) input.shiftDate codeCount boxCount
      palletCount partNumber hasMultipleParts
    mimeType := d.mimeType
    bytes := (xmlRendered.map (·.bytes)).getD (encodePart d part.blocks) }

/-- The files of a shift. `sanitize` is `sanitizeShiftExportFilenameSegment`, which needs the tables
of Unicode. -/
def renderShiftExport (sanitize : Units → Units) (input : RenderShiftExportInput) :
    Export (List ShiftExportPart) := do
  let d ← getShiftExportFormat input.formatId input.formatVersion
  if input.source.mode ≠ shiftExportSourceModeFor d.boxMode then exportFail .formatSourceMismatch
  else if isShiftDate input.shiftDate = false then .error (.plain "Invalid shift date")
  else
    validateLineLimit input.maxLines
    let organizationInn := ecmaTrim (input.organizationInn.getD [])
    let organizationName := ecmaTrim (input.organizationName.getD [])
    let document ← requireDocument d organizationInn organizationName input.document
    let blocks ← createBlocks d input.source
    let _ ← renderDocumentPart organizationInn organizationName document 1 false blocks
    if (blocks.map (·.codeCount)).sum = 0 then exportFail .emptySource
    else
      let parts ← splitBlocks d blocks (input.maxLines.map fun n => n.num.toNat)
      (parts.zipIdx 1).mapM fun (part, partNumber) =>
        renderPart sanitize d input organizationInn organizationName document
          (decide (1 < parts.length)) part partNumber

end Markiro
