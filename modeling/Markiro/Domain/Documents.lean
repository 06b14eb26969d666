import Markiro.Lib.Calendar
import Markiro.Lib.Lines
import Markiro.Domain.Gs1

/-!
# The texts of documents

The text and CSV encodings (`document-text-encoding.ts`) and the aggregation document of the state
system (`gismt-aggregation.ts`): boxes with their codes and pallets with their boxes as
`pack_content` elements of one XML file.
-/

namespace Markiro

open Utf16

/-! ## Text and CSV -/

def utf8Bom : List UInt8 := [0xef, 0xbb, 0xbf]

def crlf : Units := [13, 10]

def encodeLfText (lines : List Units) : List UInt8 :=
  if lines.length = 0 then [] else utf8Bytes (joinWith [lineFeed] lines ++ [lineFeed])

/-- A field, between quotation marks when it holds a mark of the format. -/
def csvField (value : Units) : Units :=
  if value.any fun u => u = 59 ∨ u = 34 ∨ u = 13 ∨ u = lineFeed then
    34 :: (replaceAll 34 [34, 34] value ++ [34])
  else value

def csvRow (row : List Units) : Units := joinWith [59] (row.map csvField)

def encodeSemicolonCsvRows (rows : List (List Units)) : List UInt8 :=
  let content := joinWith crlf (rows.map csvRow)
  let terminated := if content.length = 0 then [] else content ++ crlf
  utf8Bom ++ utf8Bytes terminated

def encodeSemicolonCsv (header : List Units) (rows : List (List Units)) : List UInt8 :=
  encodeSemicolonCsvRows (header :: rows)

/-! ## The aggregation document -/

structure GismtAggregationBox where
  sscc : Units
  codes : List Units
  deriving DecidableEq

structure GismtAggregationPallet where
  sscc : Units
  boxSsccs : List Units
  deriving DecidableEq

/-- The document-level attributes. -/
structure GismtAggregationDocument where
  documentId : Units
  documentNumber : Units
  fileDateTime : Units
  operationDateTime : Units
  organizationName : Units
  deriving DecidableEq

structure GismtAggregationRenderResult where
  bytes : List UInt8
  physicalLineCount : ℕ
  codeCount : ℕ
  boxCount : ℕ

inductive GismtAggregationErrorCode where
  | orgInnMissing | invalidOrgInn | invalidDocumentMetadata | invalidSscc | invalidCis
  deriving DecidableEq

/-- What a function that throws a `GismtAggregationError` gives. -/
abbrev Gismt := Except GismtAggregationErrorCode

def gismtAggregationOverheadLineCount : ℕ := 10

def gismtAggregationBoxLineCount (box : GismtAggregationBox) : ℕ := 3 + box.codes.length

def gismtAggregationPalletLineCount (pallet : GismtAggregationPallet) : ℕ :=
  3 + pallet.boxSsccs.length

/-! ### What an attribute may hold -/

/-- `XML_PROHIBITED_CHARACTERS`: control characters, the two non-characters and surrogates that do
not pair up; `before` is the unit before the text. -/
def xmlProhibited (before : Option UInt16) : Units → Bool
  | [] => false
  | u :: rest =>
    decide (u < 0x20 ∨ u = 0x7f ∨ u = 0xfffe ∨ u = 0xffff) ||
      (isHighSurrogate u && !(rest.head?.any isLowSurrogate)) ||
      (isLowSurrogate u && !(before.any isHighSurrogate)) || xmlProhibited (some u) rest

def isWithinLength (value : Units) (maxLength : ℕ) : Bool :=
  decide (1 ≤ value.length ∧ value.length ≤ maxLength) && !xmlProhibited none value

/-- The text has the columns of a pattern: a digit where it has `0`, else the same unit. -/
def hasColumns (pattern s : Units) : Bool :=
  decide (s.length = pattern.length) &&
    (s.zip pattern).all fun (u, p) => if p = 48 then isDigit u else u = p

/-- Whether a text is the `toISOString` of the moment it names: a year of four digits, or of a sign
and six when it is not one of these, and a moment that a `Date` can hold. -/
def isCanonicalIsoTimestamp (value : Units) : Bool :=
  let year := value.take (value.length - 20)
  let rest := value.drop (value.length - 20)
  let column (start width : ℕ) : ℕ := readNumber ((rest.drop start).take width)
  let signed : Bool := hasColumns (encode "+000000") year || hasColumns (encode "-000000") year
  let y : ℤ :=
    if hasColumns (encode "+000000") year then readNumber (year.drop 1)
    else if hasColumns (encode "-000000") year then -readNumber (year.drop 1)
    else readNumber year
  let fields : List ℤ :=
    [y, column 1 2, column 4 2, column 7 2, column 10 2, column 13 2, column 16 3]
  hasColumns (encode "-00-00T00:00:00.000Z") rest &&
    (signed && decide (y < 0 ∨ 9999 < y) || hasColumns (encode "0000") year) &&
    decide ((1 ≤ column 1 2 ∧ column 1 2 ≤ 12) ∧
      (1 ≤ column 4 2 ∧ column 4 2 ≤ Calendar.daysInMonth (y % 400).toNat (column 1 2)) ∧
      column 7 2 ≤ 23 ∧ column 10 2 ≤ 59 ∧ column 13 2 ≤ 59) &&
    decide (([-271821, 4, 20, 0, 0, 0, 0] : List ℤ) ≤ fields ∧
      fields ≤ [275760, 9, 13, 0, 0, 0, 0])

/-- The attributes, trimmed, when each is within its limits. -/
def validateDocument (document : GismtAggregationDocument) : Gismt GismtAggregationDocument :=
  let documentId := ecmaTrim document.documentId
  let documentNumber := ecmaTrim document.documentNumber
  let organizationName := ecmaTrim document.organizationName
  if isWithinLength documentId 150 = false ∨ isWithinLength documentNumber 150 = false ∨
      isWithinLength organizationName 1000 = false ∨
      isCanonicalIsoTimestamp document.fileDateTime = false ∨
      isCanonicalIsoTimestamp document.operationDateTime = false then
    .error .invalidDocumentMetadata
  else .ok ⟨documentId, documentNumber, document.fileDateTime, document.operationDateTime,
    organizationName⟩

/-- `/^(?:\d[1-9]|[1-9]\d)\d{8}$/`. -/
def isOrganizationInn (inn : Units) : Bool :=
  isDigits 10 inn && decide (inn.take 2 ≠ encode "00")

def formatGismtAggregationSscc (sscc : Units) : Gismt Units :=
  match formatSsccWithAi sscc with
  | .ok text => .ok text
  | .error _ => .error .invalidSscc

def stripKmCryptoTail (code : Units) : Gismt Units :=
  match parseKmSegments code with
  | .ok segments =>
    let cis := encode "01" ++ segments.gtin14 ++ encode "21" ++ segments.serial
    if xmlProhibited none cis then .error .invalidCis else .ok cis
  | .error _ => .error .invalidCis

/-! ### The file -/

def xmlText (value : Units) : Units :=
  replaceAll 62 (encode "&gt;") (replaceAll 60 (encode "&lt;") (replaceAll 38 (encode "&amp;") value))

def xmlAttribute (value : Units) : Units := replaceAll 34 (encode "&quot;") (xmlText value)

def packContent (code : Units) (members : List Units) : List Units :=
  encode "        <pack_content>" ::
    (encode "            <pack_code>" ++ xmlText code ++ encode "</pack_code>") ::
    (members.map fun cis => encode "            <cis>" ++ xmlText cis ++ encode "</cis>") ++
    [encode "        </pack_content>"]

def boxContent (box : GismtAggregationBox) : Gismt (List Units) := do
  let code ← formatGismtAggregationSscc box.sscc
  let members ← box.codes.mapM stripKmCryptoTail
  return packContent code members

def palletContent (pallet : GismtAggregationPallet) : Gismt (List Units) := do
  let code ← formatGismtAggregationSscc pallet.sscc
  let members ← pallet.boxSsccs.mapM formatGismtAggregationSscc
  return packContent code members

/-- The lines before the packs. -/
def xmlHead (document : GismtAggregationDocument) (organizationInn : Units) : List Units := [
  encode "<?xml version=\"1.0\" encoding=\"UTF-8\"?>",
  encode "<unit_pack document_id=\"" ++ xmlAttribute document.documentId ++
    encode "\" VerForm=\"1.03\" file_date_time=\"" ++ xmlAttribute document.fileDateTime ++
    encode "\" action_id=\"30\" version=\"1\">",
  encode "    <Document operation_date_time=\"" ++ xmlAttribute document.operationDateTime ++
    encode "\" document_number=\"" ++ xmlAttribute document.documentNumber ++ encode "\">",
  encode "        <organisation>",
  encode "            <id_info>",
  encode "                <LP_info org_name=\"" ++ xmlAttribute document.organizationName ++
    encode "\" LP_TIN=\"" ++ xmlAttribute organizationInn ++ encode "\" />",
  encode "            </id_info>",
  encode "        </organisation>"]

def xmlTail : List Units := [encode "    </Document>", encode "</unit_pack>"]

/-- The file of boxes and pallets: boxes first, an aggregate cannot be nested before it exists. -/
def renderGismtAggregationXml (organizationInn : Units) (document : GismtAggregationDocument)
    (boxes : List GismtAggregationBox) (pallets : List GismtAggregationPallet) :
    Gismt GismtAggregationRenderResult := do
  let organizationInn := ecmaTrim organizationInn
  if organizationInn = [] then .error .orgInnMissing
  else if isOrganizationInn organizationInn = false then .error .invalidOrgInn
  else
    let document ← validateDocument document
    let boxLines ← boxes.mapM boxContent
    let palletLines ← pallets.mapM palletContent
    let lines := xmlHead document organizationInn ++ boxLines.flatten ++ palletLines.flatten ++
      xmlTail
    return {
      bytes := utf8Bytes (joinWith [lineFeed] lines ++ [lineFeed])
      physicalLineCount := gismtAggregationOverheadLineCount +
        (boxes.map gismtAggregationBoxLineCount).sum +
        (pallets.map gismtAggregationPalletLineCount).sum
      codeCount := (boxes.map fun box => box.codes.length).sum
      boxCount := boxes.length }

end Markiro
