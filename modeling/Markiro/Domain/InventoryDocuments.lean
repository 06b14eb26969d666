import Markiro.Domain.Documents
import Markiro.Lib.ByteOrder

/-!
# The documents of an inventory

What a finished inventory hands to the state system and to the office (`inventory/`
`document-selection.ts`, `document-generators.ts`, `tabular-document-generators.ts`,
`gismt-disaggregation.ts`): the final boxes, the current stock, what is written off, the balances of
each date and the old boxes taken apart. How an inventory number becomes a part of a file name is
given.
-/

namespace Markiro.InventoryDocuments

open Utf16

/-! ## The source -/

structure Metadata where
  documentId : Units
  inventoryNumber : Units
  fileDateTime : Units
  operationDateTime : Units
  organizationName : Units
  organizationInn : Units

structure WriteOffCandidate where
  codeHash : Units
  canonicalRaw : Units

structure VerifiedCode where
  codeHash : Units
  canonicalRaw : Units
  observedProductionDate : Option Units

structure ProtectedCode where
  codeHash : Units
  canonicalRaw : Units
  parentSscc : Option Units

inductive BoxState where
  | «open» | closed | invalidated
  deriving DecidableEq

inductive PrintState where
  | notReady | pending | printing | printed | failed
  deriving DecidableEq

structure NewBox where
  sscc : Units
  oldSsccContext : Option Units
  state : BoxState
  printState : PrintState
  productionDate : Units
  codeHashes : List Units

structure Source where
  writeOffCandidates : List WriteOffCandidate
  verified : List VerifiedCode
  «protected» : List ProtectedCode
  oldBoxes : List Units
  newBoxes : List NewBox

/-! ## What a generator gives -/

inductive MimeType where
  | pdf | xml | csv | txt
  deriving DecidableEq

structure GeneratedPart where
  partNumber : ℕ
  filename : Units
  mimeType : MimeType
  bytes : List UInt8
  rowCount : ℕ
  codeCount : ℕ
  boxCount : ℕ

inductive ErrorCode where
  | emptySource | invalidCis | invalidDocumentMetadata | invalidOrganizationInn | invalidSscc
  | verifiedProductionDateMissing
  deriving DecidableEq

inductive GismtDisaggregationErrorCode where
  | invalidOrganizationInn | invalidSscc | emptySource
  deriving DecidableEq

/-- What is thrown: the generators' own error, or one of the disaggregation renderer that they let
through. -/
inductive Failure where
  | document (code : ErrorCode)
  | disaggregation (code : GismtDisaggregationErrorCode)
  deriving DecidableEq

abbrev Generation := Except Failure

/-! ## The final boxes -/

/-- A text in the order of `compareText`. -/
def textKey (s : Units) : List ℕ := s.map UInt16.toNat

/-- A text in the order of `createUtf8ByteComparator`. -/
def byteKey (s : Units) : List ℕ := (utf8Bytes s).map UInt8.toNat

/-- `z.iso.date()`. -/
def isCivilDate (s : Units) : Bool :=
  let month := readNumber ((s.drop 5).take 2)
  let day := readNumber ((s.drop 8).take 2)
  hasColumns (encode "0000-00-00") s && decide ((1 ≤ month ∧ month ≤ 12) ∧
    1 ≤ day ∧ day ≤ Calendar.daysInMonth (readNumber (s.take 4)) month)

structure FinalBoxCode where
  codeHash : Units
  canonicalRaw : Units
  observedProductionDate : Units

structure FinalBox where
  sscc : Units
  oldSsccContext : Option Units
  productionDate : Units
  codes : List FinalBoxCode

def isProtected (source : Source) (codeHash : Units) : Bool :=
  source.protected.any (·.codeHash == codeHash)

/-- The verified code of a hash; of several the last, as in a `Map`. -/
def verifiedByHash (source : Source) (codeHash : Units) : Option VerifiedCode :=
  source.verified.reverse.find? (·.codeHash == codeHash)

/-- A code that may stand in a box of this date. -/
def eligibleCode (source : Source) (productionDate codeHash : Units) : Option FinalBoxCode :=
  match verifiedByHash source codeHash with
  | none => none
  | some code =>
    if isProtected source codeHash ∨ code.observedProductionDate ≠ some productionDate then none
    else some ⟨code.codeHash, code.canonicalRaw, productionDate⟩

def eligibleBox (source : Source) (box : NewBox) : Option FinalBox :=
  if box.state ≠ .closed ∨ box.printState ≠ .printed ∨ box.codeHashes.length = 0 ∨
      ¬ box.codeHashes.Nodup ∨ isCivilDate box.productionDate = false then none
  else (box.codeHashes.mapM (eligibleCode source box.productionDate)).map fun codes =>
    ⟨box.sscc, box.oldSsccContext, box.productionDate,
      sortByKey (fun code => byteKey code.canonicalRaw) codes⟩

def selectEligibleInventoryFinalBoxes (source : Source) : List FinalBox :=
  (sortByKey (fun box => textKey box.sscc) source.newBoxes).filterMap (eligibleBox source)

/-! ## The state system's documents -/

def validateCommonMetadata (metadata : Metadata) : Generation Unit :=
  if ecmaTrim metadata.documentId = [] ∨ 150 < metadata.documentId.length ∨
      ecmaTrim metadata.inventoryNumber = [] ∨ 150 < metadata.inventoryNumber.length ∨
      ecmaTrim metadata.organizationName = [] ∨ 1000 < metadata.organizationName.length ∨
      isCanonicalIsoTimestamp metadata.fileDateTime = false ∨
      isCanonicalIsoTimestamp metadata.operationDateTime = false ∨
      ([metadata.documentId, metadata.inventoryNumber, metadata.organizationName].any
        (xmlProhibited none)) = true then
    .error (.document .invalidDocumentMetadata)
  else .ok ()

def validateAggregationMetadata (metadata : Metadata) : Generation Unit := do
  validateCommonMetadata metadata
  if isOrganizationInn metadata.organizationInn = false then
    .error (.document .invalidOrganizationInn)
  else .ok ()

/-- No valid empty document exists, so no boxes give a file of no bytes. -/
def emptyPart (filename : Units) : GeneratedPart := ⟨1, filename, .xml, [], 0, 0, 0⟩

def aggregationError : GismtAggregationErrorCode → ErrorCode
  | .invalidCis => .invalidCis
  | .invalidSscc => .invalidSscc
  | .invalidDocumentMetadata => .invalidDocumentMetadata
  | .orgInnMissing | .invalidOrgInn => .invalidOrganizationInn

section Generators

variable (filenamePrefix : Units → Units)

def generateInventoryAggregationXmlV2 (source : Source) (metadata : Metadata) :
    Generation (List GeneratedPart) := do
  validateAggregationMetadata metadata
  let boxes := selectEligibleInventoryFinalBoxes source
  let filename := filenamePrefix metadata.inventoryNumber ++ encode "-aggregation.xml"
  if boxes.length = 0 then return [emptyPart filename]
  else
    match renderGismtAggregationXml metadata.organizationInn
        ⟨metadata.documentId, metadata.inventoryNumber, metadata.fileDateTime,
          metadata.operationDateTime, metadata.organizationName⟩
        (boxes.map fun box => ⟨box.sscc, box.codes.map (·.canonicalRaw)⟩) [] with
    | .ok rendered => return [⟨1, filename, .xml, rendered.bytes, rendered.physicalLineCount,
        rendered.codeCount, rendered.boxCount⟩]
    | .error code => .error (.document (aggregationError code))

/-- An INN of nine, ten or twelve digits. -/
def isParticipantInn (value : Units) : Bool :=
  isDigits 9 value ||
    ((isDigits 10 value || isDigits 12 value) && decide (value.take 2 ≠ encode "00"))

/-- The lines of a box taken apart. -/
def packingLines (sscc : Units) : List Units := [
  encode "        <packing>",
  encode "            <kitu><![CDATA[" ++ sscc ++ encode "]]></kitu>",
  encode "        </packing>"]

def disaggregationHead (organizationInn : Units) : List Units := [
  encode "<?xml version=\"1.0\" encoding=\"UTF-8\"?>",
  encode "<disaggregation action_id=\"31\" version=\"2\">",
  encode "    <trade_participant_inn>" ++ organizationInn ++ encode "</trade_participant_inn>",
  encode "    <packings_list>"]

def disaggregationTail : List Units := [encode "    </packings_list>", encode "</disaggregation>"]

structure RenderedGismtDisaggregation where
  bytes : List UInt8
  physicalLineCount : ℕ
  packingCount : ℕ

def renderGismtDisaggregationXml (organizationInn : Units) (ssccs : List Units) :
    Except GismtDisaggregationErrorCode RenderedGismtDisaggregation :=
  if isParticipantInn organizationInn = false then .error .invalidOrganizationInn
  else
    let packings := sortByKey textKey ssccs.dedup
    if (packings.any fun sscc => !isDigits 18 sscc) = true then .error .invalidSscc
    else if packings.length = 0 then .error .emptySource
    else
      let lines := disaggregationHead organizationInn ++ packings.flatMap packingLines ++
        disaggregationTail
      .ok ⟨utf8Bytes (joinWith [lineFeed] lines ++ [lineFeed]), lines.length, packings.length⟩

def validateSscc (value : Units) : Generation Units :=
  if isDigits 18 value = false then .error (.document .invalidSscc) else .ok value

/-- The old boxes of the final boxes, once each, but for the parents of protected codes. -/
def disaggregatedBoxes (source : Source) : List Units :=
  sortByKey textKey
    ((((selectEligibleInventoryFinalBoxes source).map (·.oldSsccContext)).dedup.filterMap id).filter
      fun sscc => !source.protected.any fun code => code.parentSscc == some sscc)

def generateInventoryDisaggregationXml (source : Source) (metadata : Metadata) :
    Generation (List GeneratedPart) := do
  validateCommonMetadata metadata
  if isParticipantInn metadata.organizationInn = false then
    .error (.document .invalidOrganizationInn)
  else
    let boxes ← (disaggregatedBoxes source).mapM validateSscc
    let filename := filenamePrefix metadata.inventoryNumber ++ encode "-disaggregation.xml"
    if boxes.length = 0 then return [emptyPart filename]
    else
      match renderGismtDisaggregationXml metadata.organizationInn boxes with
      | .ok rendered => return [⟨1, filename, .xml, rendered.bytes, rendered.physicalLineCount, 0,
          rendered.packingCount⟩]
      | .error code => .error (.disaggregation code)

/-! ## The tables -/

def verifiedEntries (source : Source) : List VerifiedCode :=
  source.verified.filter fun code => !isProtected source code.codeHash

def verifiedCodes (source : Source) : List Units :=
  sortByKey byteKey ((verifiedEntries source).map (·.canonicalRaw))

def writeOffCodes (source : Source) : List Units :=
  sortByKey byteKey ((source.writeOffCandidates.filter fun code =>
    !isProtected source code.codeHash).map (·.canonicalRaw))

def formatOutputSscc (sscc : Units) : Generation Units :=
  match formatSsccWithAi sscc with
  | .ok text => .ok text
  | .error _ => .error (.document .invalidSscc)

def generateInventoryWriteOffTxt (source : Source) (metadata : Metadata) :
    Generation (List GeneratedPart) :=
  let codes := writeOffCodes source
  .ok [⟨1, filenamePrefix metadata.inventoryNumber ++ encode "-write-off.txt", .txt,
    encodeLfText codes, codes.length, codes.length, 0⟩]

def generateInventoryWriteOffCsv (source : Source) (metadata : Metadata) :
    Generation (List GeneratedPart) :=
  let codes := writeOffCodes source
  .ok [⟨1, filenamePrefix metadata.inventoryNumber ++ encode "-write-off.csv", .csv,
    encodeSemicolonCsv [encode "code"] (codes.map fun code => [code]), 1 + codes.length,
    codes.length, 0⟩]

def generateInventoryCurrentStockCsvV1 (source : Source) (metadata : Metadata) :
    Generation (List GeneratedPart) :=
  let codes := verifiedCodes source
  .ok [⟨1, filenamePrefix metadata.inventoryNumber ++ encode "-current-stock.csv", .csv,
    encodeSemicolonCsv [encode "code"] (codes.map fun code => [code]), 1 + codes.length,
    codes.length, 0⟩]

def generateInventoryCurrentStockCsv (source : Source) (metadata : Metadata) :
    Generation (List GeneratedPart) :=
  let codes := verifiedCodes source
  .ok [⟨1, filenamePrefix metadata.inventoryNumber ++ encode "-current-stock.csv", .csv,
    encodeSemicolonCsvRows (codes.map fun code => [code]), codes.length, codes.length, 0⟩]

def generateInventoryCurrentStockTxt (source : Source) (metadata : Metadata) :
    Generation (List GeneratedPart) :=
  let codes := verifiedCodes source
  .ok [⟨1, filenamePrefix metadata.inventoryNumber ++ encode "-current-stock.txt", .txt,
    encodeLfText codes, codes.length, codes.length, 0⟩]

def contentRows (box : FinalBox) : Generation (List (List Units)) :=
  box.codes.mapM fun code => do
    let sscc ← formatOutputSscc box.sscc
    return [sscc, code.canonicalRaw]

def generateInventoryFinalBoxContentsCsv (source : Source) (metadata : Metadata) :
    Generation (List GeneratedPart) := do
  let boxes := selectEligibleInventoryFinalBoxes source
  let perBox ← boxes.mapM contentRows
  let rows := perBox.flatten
  return [⟨1, filenamePrefix metadata.inventoryNumber ++ encode "-final-box-contents.csv", .csv,
    encodeSemicolonCsv [encode "box_sscc", encode "code"] rows, 1 + rows.length, rows.length,
    boxes.length⟩]

def generateInventoryFinalBoxesTxt (source : Source) (metadata : Metadata) :
    Generation (List GeneratedPart) := do
  let boxes := selectEligibleInventoryFinalBoxes source
  let lines ← boxes.mapM fun box => formatOutputSscc box.sscc
  return [⟨1, filenamePrefix metadata.inventoryNumber ++ encode "-final-boxes.txt", .txt,
    encodeLfText lines, boxes.length, 0, boxes.length⟩]

/-! ## The balances -/

structure DateCount where
  codeCount : ℕ
  boxCount : ℕ
  deriving DecidableEq

def DateCount.zero : DateCount := ⟨0, 0⟩

def DateCount.addCode (c : DateCount) : DateCount := { c with codeCount := c.codeCount + 1 }

def DateCount.addBox (c : DateCount) : DateCount := { c with boxCount := c.boxCount + 1 }

/-- The entry of a date changed, or a new one put last. -/
def countAt (f : DateCount → DateCount) (date : Units) :
    List (Units × DateCount) → List (Units × DateCount)
  | [] => [(date, f .zero)]
  | (d, c) :: rest => if d = date then (d, f c) :: rest else (d, c) :: countAt f date rest

def countCode (counts : List (Units × DateCount)) (code : VerifiedCode) :
    Generation (List (Units × DateCount)) :=
  match code.observedProductionDate with
  | none => .error (.document .verifiedProductionDateMissing)
  | some date =>
    if isCivilDate date = false then .error (.document .verifiedProductionDateMissing)
    else .ok (countAt .addCode date counts)

/-- The counts of each date, in the order of the dates. -/
def balances (source : Source) : Generation (List (Units × DateCount)) := do
  let counts ← (verifiedEntries source).foldlM countCode []
  let counts := (selectEligibleInventoryFinalBoxes source).foldl
    (fun counts box => countAt .addBox box.productionDate counts) counts
  return sortByKey (fun entry => textKey entry.1) counts

def generateInventoryBalancesByProductionDateCsv (source : Source) (metadata : Metadata) :
    Generation (List GeneratedPart) := do
  let counts ← balances source
  let rows := counts.map fun (date, c) => [date, numeral c.codeCount, numeral c.boxCount]
  return [⟨1, filenamePrefix metadata.inventoryNumber ++
    encode "-balances-by-production-date.csv", .csv,
    encodeSemicolonCsv [encode "production_date", encode "code_count", encode "box_count"] rows,
    1 + rows.length, (counts.map (·.2.codeCount)).sum, (counts.map (·.2.boxCount)).sum⟩]

end Generators

end Markiro.InventoryDocuments
