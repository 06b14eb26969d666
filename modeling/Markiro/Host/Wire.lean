import Markiro.Host.Rules

/-!
# The records a device sends

The wire types of the facts and the pallet events (`markiro_proto`) and how `serde` reads them
from a JSON value: a record is an object, or an array of its fields in their order; an optional
field may be absent or `null`; a record that denies unknown fields has no other member.
-/

namespace Markiro

/-! ## Names -/

def factKinds : List (String × FactKind) :=
  [("scan", .scan), ("box_closed", .boxClosed), ("box_label", .boxLabel),
    ("box_exception", .boxException), ("shift_closed", .shiftClosed),
    ("pallet_closed", .palletClosed), ("pallet_label", .palletLabel),
    ("pallet_exception", .palletException), ("unit_label", .unitLabel)]

def palletEventKinds : List (String × PalletEventKind) :=
  [("warehouse_pallet_opened", .warehousePalletOpened), ("pallet_box_added", .palletBoxAdded),
    ("pallet_box_removed", .palletBoxRemoved), ("warehouse_pallet_closed", .warehousePalletClosed),
    ("warehouse_pallet_label", .warehousePalletLabel),
    ("warehouse_pallet_disassembled", .warehousePalletDisassembled)]

def scanVerdicts : List (String × ScanVerdict) :=
  [("ok", .ok), ("duplicate", .duplicate), ("wrong_gtin", .wrongGtin), ("invalid", .invalid)]

def duplicateSources : List (String × DuplicateSource) := [("local", .local), ("host", .host)]

def scanRawKinds : List (String × ScanRawKind) :=
  [("km", .km), ("gtin", .gtin), ("sscc", .sscc), ("unknown", .unknown)]

def exceptionKinds : List (String × ExceptionKind) :=
  [("undo", .undo), ("clear", .clear), ("reprint", .reprint), ("disassemble", .disassemble)]

def palletExceptionKinds : List (String × PalletExceptionKind) :=
  [("reprint", .reprint), ("disassemble", .disassemble)]

def labelOutcomes : List (String × LabelOutcome) := [("verified", .verified), ("skipped", .skipped)]

def unitLabelEvents : List (String × UnitLabelEvent) :=
  [("prepared", .prepared), ("sending", .sending), ("sent", .sent),
    ("failed_before_send", .failedBeforeSend), ("delivery_unknown", .deliveryUnknown),
    ("verified", .verified), ("verification_rejected", .verificationRejected),
    ("verification_skipped", .verificationSkipped)]

def reprintReasonNames : List (String × ReprintReason) :=
  [("not_printed", .notPrinted), ("damaged", .damaged), ("lost", .lost)]

/-! ## Fields -/

def field {α : Type} (get : String → Option Json) (name : String) (read : Json → Option α) :
    Option α := (get name).bind read

def optField {α : Type} (get : String → Option Json) (name : String) (read : Json → Option α) :
    Option (Option α) := Json.optional read (get name)

def asU32 : Json → Option ℕ := Json.asNat (2 ^ 32)

def asU64 : Json → Option ℕ := Json.asNat (2 ^ 64)

/-! ## Facts -/

structure FactRecord where
  id : String
  kind : FactKind
  shiftId : String
  operatorId : Option String
  data : Json

def FactRecord.read (v : Json) : Option FactRecord := do
  let get ← v.asRecord true ["id", "kind", "shiftId", "operatorId", "data"] 0
  some {
    id := ← field get "id" Json.asStr
    kind := ← field get "kind" (Json.asName factKinds)
    shiftId := ← field get "shiftId" Json.asStr
    operatorId := ← optField get "operatorId" Json.asStr
    data := ← get "data" }

structure ScannedCode where
  codeHash : String
  gtin14 : String
  serial : String
  canonical : String

def ScannedCode.read (v : Json) : Option ScannedCode := do
  let get ← v.asRecord true ["codeHash", "gtin14", "serial", "canonical"] 0
  some {
    codeHash := ← field get "codeHash" Json.asStr
    gtin14 := ← field get "gtin14" Json.asStr
    serial := ← field get "serial" Json.asStr
    canonical := ← field get "canonical" Json.asStr }

structure ScanFact where
  scannedAt : String
  verdict : ScanVerdict
  duplicateSource : Option DuplicateSource
  rawKind : ScanRawKind
  rawLength : ℕ
  code : Option ScannedCode
  boxId : Option String

def ScanFact.read (v : Json) : Option ScanFact := do
  let get ← v.asRecord true
    ["scannedAt", "verdict", "duplicateSource", "rawKind", "rawLength", "code", "boxId"] 0
  some {
    scannedAt := ← field get "scannedAt" Json.asStr
    verdict := ← field get "verdict" (Json.asName scanVerdicts)
    duplicateSource := ← optField get "duplicateSource" (Json.asName duplicateSources)
    rawKind := ← field get "rawKind" (Json.asName scanRawKinds)
    rawLength := ← field get "rawLength" asU32
    code := ← optField get "code" ScannedCode.read
    boxId := ← optField get "boxId" Json.asStr }

structure BoxClosedFact where
  boxId : String
  sscc : String
  blockId : String
  serial : ℕ
  openedAt : String
  closedAt : String
  itemCount : ℕ
  membershipDigest : String
  palletId : Option String

def BoxClosedFact.read (v : Json) : Option BoxClosedFact := do
  let get ← v.asRecord true ["boxId", "sscc", "blockId", "serial", "openedAt", "closedAt",
    "itemCount", "membershipDigest", "palletId"] 1
  some {
    boxId := ← field get "boxId" Json.asStr
    sscc := ← field get "sscc" Json.asStr
    blockId := ← field get "blockId" Json.asStr
    serial := ← field get "serial" asU64
    openedAt := ← field get "openedAt" Json.asStr
    closedAt := ← field get "closedAt" Json.asStr
    itemCount := ← field get "itemCount" asU32
    membershipDigest := ← field get "membershipDigest" Json.asStr
    palletId := ← optField get "palletId" Json.asStr }

/-- The check of a printed label: of a box, or of a pallet. -/
structure LabelFact where
  subjectId : String
  outcome : LabelOutcome
  «at» : String

def LabelFact.read (subject : String) (v : Json) : Option LabelFact := do
  let get ← v.asRecord true [subject, "outcome", "at"] 0
  some {
    subjectId := ← field get subject Json.asStr
    outcome := ← field get "outcome" (Json.asName labelOutcomes)
    «at» := ← field get "at" Json.asStr }

structure BoxExceptionFact where
  exception : ExceptionKind
  boxId : String
  codeHash : Option String
  targetScannedAt : Option String
  reasonCode : Option String
  reasonText : Option String
  occurredAt : String

def BoxExceptionFact.read (v : Json) : Option BoxExceptionFact := do
  let get ← v.asRecord true ["exception", "boxId", "codeHash", "targetScannedAt", "reasonCode",
    "reasonText", "occurredAt"] 0
  some {
    exception := ← field get "exception" (Json.asName exceptionKinds)
    boxId := ← field get "boxId" Json.asStr
    codeHash := ← optField get "codeHash" Json.asStr
    targetScannedAt := ← optField get "targetScannedAt" Json.asStr
    reasonCode := ← optField get "reasonCode" Json.asStr
    reasonText := ← optField get "reasonText" Json.asStr
    occurredAt := ← field get "occurredAt" Json.asStr }

structure ShiftClosedFact where
  plannedQtySnapshot : Option ℕ
  actualQty : ℕ
  closedBoxCount : ℕ
  reasonCode : Option String
  closedAt : String

def ShiftClosedFact.read (v : Json) : Option ShiftClosedFact := do
  let get ← v.asRecord true
    ["plannedQtySnapshot", "actualQty", "closedBoxCount", "reasonCode", "closedAt"] 0
  some {
    plannedQtySnapshot := ← optField get "plannedQtySnapshot" asU32
    actualQty := ← field get "actualQty" asU32
    closedBoxCount := ← field get "closedBoxCount" asU32
    reasonCode := ← optField get "reasonCode" Json.asStr
    closedAt := ← field get "closedAt" Json.asStr }

/-- The close of a pallet, of a shift or of the warehouse. -/
structure PalletClosedFact where
  palletId : String
  sscc : String
  blockId : String
  serial : ℕ
  openedAt : String
  closedAt : String
  boxCount : ℕ

def PalletClosedFact.read (v : Json) : Option PalletClosedFact := do
  let get ← v.asRecord true
    ["palletId", "sscc", "blockId", "serial", "openedAt", "closedAt", "boxCount"] 0
  some {
    palletId := ← field get "palletId" Json.asStr
    sscc := ← field get "sscc" Json.asStr
    blockId := ← field get "blockId" Json.asStr
    serial := ← field get "serial" asU64
    openedAt := ← field get "openedAt" Json.asStr
    closedAt := ← field get "closedAt" Json.asStr
    boxCount := ← field get "boxCount" asU32 }

structure PalletExceptionFact where
  exception : PalletExceptionKind
  palletId : String
  reasonCode : String
  reasonText : Option String
  occurredAt : String

def PalletExceptionFact.read (v : Json) : Option PalletExceptionFact := do
  let get ← v.asRecord true ["exception", "palletId", "reasonCode", "reasonText", "occurredAt"] 0
  some {
    exception := ← field get "exception" (Json.asName palletExceptionKinds)
    palletId := ← field get "palletId" Json.asStr
    reasonCode := ← field get "reasonCode" Json.asStr
    reasonText := ← optField get "reasonText" Json.asStr
    occurredAt := ← field get "occurredAt" Json.asStr }

structure UnitLabelFact where
  jobId : String
  codeHash : String
  attemptNo : ℕ
  event : UnitLabelEvent
  reason : Option ReprintReason
  errorCode : Option String
  payloadDigest : String
  bytesDigest : String
  «at» : String

def UnitLabelFact.read (v : Json) : Option UnitLabelFact := do
  let get ← v.asRecord true ["jobId", "codeHash", "attemptNo", "event", "reason", "errorCode",
    "payloadDigest", "bytesDigest", "at"] 0
  some {
    jobId := ← field get "jobId" Json.asStr
    codeHash := ← field get "codeHash" Json.asStr
    attemptNo := ← field get "attemptNo" asU32
    event := ← field get "event" (Json.asName unitLabelEvents)
    reason := ← optField get "reason" (Json.asName reprintReasonNames)
    errorCode := ← optField get "errorCode" Json.asStr
    payloadDigest := ← field get "payloadDigest" Json.asStr
    bytesDigest := ← field get "bytesDigest" Json.asStr
    «at» := ← field get "at" Json.asStr }

/-! ## Pallet events -/

structure PalletEventRecord where
  id : String
  kind : PalletEventKind
  operatorId : Option String
  data : Json

/-- A pallet event; members it does not know are passed over. -/
def PalletEventRecord.read (v : Json) : Option PalletEventRecord := do
  let get ← v.asRecord false ["id", "kind", "operatorId", "data"] 0
  some {
    id := ← field get "id" Json.asStr
    kind := ← field get "kind" (Json.asName palletEventKinds)
    operatorId := ← optField get "operatorId" Json.asStr
    data := ← get "data" }

structure WarehousePalletOpenedData where
  palletId : String
  productId : String
  openedAt : String

def WarehousePalletOpenedData.read (v : Json) : Option WarehousePalletOpenedData := do
  let get ← v.asRecord true ["palletId", "productId", "openedAt"] 0
  some {
    palletId := ← field get "palletId" Json.asStr
    productId := ← field get "productId" Json.asStr
    openedAt := ← field get "openedAt" Json.asStr }

/-- A box put onto a pallet or taken off it. -/
structure PalletBoxData where
  palletId : String
  boxSscc : String
  «at» : String

def PalletBoxData.read (instant : String) (v : Json) : Option PalletBoxData := do
  let get ← v.asRecord true ["palletId", "boxSscc", instant] 0
  some {
    palletId := ← field get "palletId" Json.asStr
    boxSscc := ← field get "boxSscc" Json.asStr
    «at» := ← field get instant Json.asStr }

structure WarehousePalletDisassembledData where
  palletId : String
  reasonCode : String
  reasonText : Option String
  disassembledAt : String

def WarehousePalletDisassembledData.read (v : Json) : Option WarehousePalletDisassembledData := do
  let get ← v.asRecord true ["palletId", "reasonCode", "reasonText", "disassembledAt"] 0
  some {
    palletId := ← field get "palletId" Json.asStr
    reasonCode := ← field get "reasonCode" Json.asStr
    reasonText := ← optField get "reasonText" Json.asStr
    disassembledAt := ← field get "disassembledAt" Json.asStr }

/-! ## Receipts -/

/-- The host's answer to one record. -/
structure FactReceipt where
  id : Option String
  outcome : FactOutcome
  code : Option String
  details : Option Json
  deriving DecidableEq

/-- The id a record is kept under: the text of its member `id`, when it is a client's UUID. -/
def readableId (v : Json) : Option String := ((v.get "id").bind Json.asStr).filter clientUuid

/-- A receipt's details are an object or nothing. -/
def object (details : Option Json) : Option Json :=
  match details with
  | some (.obj ms) => some (.obj ms)
  | _ => none

/-- The receipt of a refused record. -/
def rejected (id : Option String) (reject : Reject) : FactReceipt :=
  { id, outcome := .rejected, code := some reject.code, details := object reject.details }

end Markiro
