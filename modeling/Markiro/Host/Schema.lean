import Markiro.Lib.Json

/-!
# The host's tables

The rows of the host's database (`host/migrations`) that the fact intake, the pallet events, the
shifts, the SSCC counters and the box registry read and write. A table is a list of rows in the
order they were inserted; a nullable column is an option; a column with a fixed vocabulary is an
inductive type. Instants stay the texts the host compares.
-/

namespace Markiro

/-! ## Vocabularies -/

inductive DeviceKind where
  | station | handheld | office
  deriving DecidableEq

inductive ShiftStatus where
  | planned | active | closed
  deriving DecidableEq

inductive ShiftMode where
  | aggregation | validation
  deriving DecidableEq

inductive ShiftOrigin where
  | office | station
  deriving DecidableEq

inductive ParticipantState where
  | active | left | closed
  deriving DecidableEq

/-- Who closed a part or a shift. -/
inductive ClosedBy where
  | device | officeUser
  deriving DecidableEq

inductive ScanVerdict where
  | ok | duplicate | wrongGtin | invalid
  deriving DecidableEq

inductive DuplicateSource where
  | local | host
  deriving DecidableEq

inductive ScanRawKind where
  | km | gtin | sscc | unknown
  deriving DecidableEq

inductive ConflictKind where
  | late | displaced
  deriving DecidableEq

inductive ExceptionKind where
  | undo | clear | reprint | disassemble
  deriving DecidableEq

inductive PalletExceptionKind where
  | reprint | disassemble
  deriving DecidableEq

inductive LabelOutcome where
  | verified | skipped
  deriving DecidableEq

inductive UnitLabelEvent where
  | prepared | sending | sent | failedBeforeSend | deliveryUnknown | verified
  | verificationRejected | verificationSkipped
  deriving DecidableEq

inductive ReprintReason where
  | notPrinted | damaged | lost
  deriving DecidableEq

inductive FactKind where
  | scan | boxClosed | boxLabel | boxException | shiftClosed | palletClosed | palletLabel
  | palletException | unitLabel
  deriving DecidableEq

inductive PalletEventKind where
  | warehousePalletOpened | palletBoxAdded | palletBoxRemoved | warehousePalletClosed
  | warehousePalletLabel | warehousePalletDisassembled
  deriving DecidableEq

inductive FactOutcome where
  | accepted | conflict | rejected
  deriving DecidableEq

/-- Where a warehouse pallet came from. -/
inductive PalletSource where
  | device | cabinet
  deriving DecidableEq

/-- Who an audit row names. -/
inductive Actor where
  | device (id : String)
  | user (id : String)
  deriving DecidableEq

/-! ## Organisation, devices, catalogue -/

structure Site where
  boxBlockSize : ℕ
  palletBlockSize : ℕ
  rev : ℕ
  restoreEpoch : Option String
  factsHeldSince : Option String
  replacementPending : Bool

structure DeviceRow where
  id : String
  kind : DeviceKind
  lineId : Option String
  revokedAt : Option String
  knownBlocksEpoch : Option String

structure LineRow where
  id : String
  maxStations : ℕ

structure ProductRow where
  id : String
  gtin14 : String
  name : String
  demo : Bool

/-! ## Shifts -/

/-- What an open shift froze, of which the facts read the GTIN and the issuer prefix. -/
structure Snapshot where
  gtin14 : String
  issuerPrefix : String

structure ShiftRow where
  id : String
  status : ShiftStatus
  mode : ShiftMode
  numberMonthKey : String
  numberSeq : ℕ
  createdFrom : ShiftOrigin
  lineId : String
  productId : String
  productionDate : String
  plannedQty : Option ℕ
  palletsEnabled : Bool
  printsDuplicate : Bool
  snapshot : Option Snapshot
  openedAt : Option String
  ownerDeviceId : Option String
  closedAt : Option String
  closedByKind : Option ClosedBy
  closedBy : Option String
  closeReasonCode : Option String
  closeReasonText : Option String
  closeReasonMissing : Bool
  lateDataAt : Option String
  rev : ℕ

structure ParticipantRow where
  shiftId : String
  deviceId : String
  firstEnteredAt : String
  lastEnteredAt : String
  state : ParticipantState
  joinedAt : Option String
  joinedRev : Option ℕ
  leftAt : Option String
  closedAt : Option String
  closedByKind : Option ClosedBy
  closedActualQty : Option ℕ
  closedReason : Option String
  lateDataAt : Option String

structure ShiftCloseEventRow where
  id : String
  recordId : String
  shiftId : String
  deviceId : String
  operatorId : Option String
  plannedQtySnapshot : Option ℕ
  actualQty : ℕ
  closedBoxCount : ℕ
  reasonCode : Option String
  closedAt : String
  alreadyClosed : Bool
  receivedAt : String

/-! ## Scans, boxes and the code registry -/

structure ScanRow where
  id : String
  recordId : String
  deviceId : String
  shiftId : String
  verdict : ScanVerdict
  duplicateSource : Option DuplicateSource
  rawKind : ScanRawKind
  rawLength : ℕ
  codeHash : Option String
  gtin14 : Option String
  serial : Option String
  canonical : Option String
  boxId : Option String
  operatorId : Option String
  scannedAt : String
  receivedAt : String

structure BoxRow where
  id : String
  shiftId : String
  deviceId : String
  openedAt : String
  closedAt : Option String
  sscc : Option String
  blockId : Option String
  serial : Option ℕ
  itemCountReported : Option ℕ
  membershipDigest : Option String
  digestMatches : Option Bool
  operatorId : Option String
  printVerifiedAt : Option String
  printSkippedAt : Option String
  disassembledAt : Option String
  receivedAt : String
  palletId : Option String
  changedAt : Option String

structure BoxItemRow where
  scanId : String
  boxId : String
  codeHash : String
  addedAt : String
  removedAt : Option String
  displacedAt : Option String
  deriving DecidableEq

structure CodeOwnerRow where
  codeHash : String
  scanId : String
  shiftId : String
  deviceId : String
  boxId : Option String
  scannedAt : String
  deriving DecidableEq

structure CodeConflictRow where
  id : String
  codeHash : String
  winnerScanId : String
  loserScanId : String
  kind : ConflictKind
  detectedAt : String
  deriving DecidableEq

structure BoxExceptionRow where
  id : String
  recordId : String
  kind : ExceptionKind
  boxId : String
  codeHash : Option String
  targetScannedAt : Option String
  reasonCode : Option String
  reasonText : Option String
  shiftId : String
  deviceId : String
  operatorId : Option String
  occurredAt : String
  receivedAt : String

/-- A box an office document took apart, with the codes it freed. -/
structure CodeReleaseRow where
  boxId : String
  shiftId : String
  documentId : String
  codeCount : ℕ
  releasedAt : String
  rev : ℕ

structure UnitLabelEventRow where
  id : String
  recordId : String
  deviceId : String
  shiftId : String
  operatorId : Option String
  jobId : String
  codeHash : String
  attemptNo : ℕ
  event : UnitLabelEvent
  reason : Option ReprintReason
  errorCode : Option String
  payloadDigest : String
  bytesDigest : String
  «at» : String
  receivedAt : String

/-! ## Pallets -/

structure PalletRow where
  id : String
  shiftId : String
  deviceId : String
  openedAt : String
  closedAt : Option String
  sscc : Option String
  blockId : Option String
  serial : Option ℕ
  boxCountReported : Option ℕ
  operatorId : Option String
  printVerifiedAt : Option String
  printSkippedAt : Option String
  disassembledAt : Option String
  receivedAt : String

structure PalletExceptionRow where
  id : String
  recordId : String
  kind : PalletExceptionKind
  palletId : String
  reasonCode : String
  reasonText : Option String
  shiftId : String
  deviceId : String
  operatorId : Option String
  occurredAt : String
  receivedAt : String

structure WarehousePalletRow where
  id : String
  deviceId : String
  productId : String
  gtin14 : String
  openedAt : String
  closedAt : Option String
  sscc : Option String
  blockId : Option String
  serial : Option ℕ
  boxCountReported : Option ℕ
  operatorId : Option String
  receivedAt : String
  disassembledAt : Option String
  disassemblyReasonCode : Option String
  disassemblyReasonText : Option String
  disassemblyOperatorId : Option String
  source : PalletSource
  createdByUserId : Option String
  creationRequestId : Option String
  creationHash : Option String

structure StayRow where
  palletId : String
  boxSscc : String
  addedAt : String
  removedAt : Option String
  operatorId : Option String
  recordId : String
  deviceId : String

/-! ## SSCC serials -/

structure CounterRow where
  issuerPrefix : String
  extension : ℕ
  nextSerial : ℕ
  rev : ℕ

structure BlockRow where
  id : String
  issuerPrefix : String
  extension : ℕ
  deviceId : String
  requestId : String
  fromSerial : ℕ
  toSerial : ℕ
  consumedThrough : Option ℕ
  issuedAt : String
  revokedAt : Option String

/-! ## Receipts and the audit log -/

structure FactReceiptRow where
  deviceId : String
  recordId : String
  kind : Option FactKind
  shiftId : Option String
  digest : String
  outcome : FactOutcome
  code : Option String
  details : Option Json
  receivedAt : String

structure EventReceiptRow where
  deviceId : String
  recordId : String
  kind : Option PalletEventKind
  digest : String
  outcome : FactOutcome
  code : Option String
  details : Option Json
  receivedAt : String

structure AuditRow where
  «at» : String
  actor : Actor
  action : String
  targetType : Option String
  targetId : Option String
  ok : Bool
  details : Json

/-! ## Imported cloud history -/

structure CloudBatchRow where
  id : String
  complete : Bool

structure CloudShiftRow where
  id : String
  batchId : String
  productId : String
  productName : Option String
  lateDataAt : Option String

structure CloudBoxRow where
  id : String
  batchId : String
  shiftId : String
  sscc : Option String
  closedAt : Option String
  disassembledAt : Option String
  locallyDisassembledAt : Option String
  palletId : Option String

structure CloudItemRow where
  boxId : String
  hash : String
  removedAt : Option String

structure CloudPalletRow where
  id : String
  batchId : String
  shiftId : Option String
  productId : Option String
  productName : Option String
  sscc : Option String
  closedAt : Option String
  disassembledAt : Option String

structure CloudOwnerRow where
  hash : String
  batchId : String
  shiftId : String
  number : String
  scannedAt : String
  boxId : Option String
  releasedAt : Option String

structure CloudConflictRow where
  id : String
  codeHash : String
  loserScanId : String
  winnerShiftId : String
  winnerNumber : String
  winnerScannedAt : String
  winnerBoxId : Option String
  detectedAt : String

/-- The tables of an imported cloud history. -/
structure CloudHistory where
  batches : List CloudBatchRow
  shifts : List CloudShiftRow
  boxes : List CloudBoxRow
  items : List CloudItemRow
  pallets : List CloudPalletRow
  owners : List CloudOwnerRow
  releases : List CodeReleaseRow
  conflicts : List CloudConflictRow

/-! ## The database -/

/-- The host's database. -/
structure Db where
  revision : ℕ
  site : Site
  orgGln : String
  devices : List DeviceRow
  lines : List LineRow
  products : List ProductRow
  shifts : List ShiftRow
  participants : List ParticipantRow
  demoRemovedShifts : List String
  shiftCloseEvents : List ShiftCloseEventRow
  scans : List ScanRow
  boxes : List BoxRow
  boxItems : List BoxItemRow
  codeOwners : List CodeOwnerRow
  codeConflicts : List CodeConflictRow
  boxExceptions : List BoxExceptionRow
  codeReleases : List CodeReleaseRow
  unitLabelEvents : List UnitLabelEventRow
  pallets : List PalletRow
  palletExceptions : List PalletExceptionRow
  warehousePallets : List WarehousePalletRow
  stays : List StayRow
  counters : List CounterRow
  blocks : List BlockRow
  factReceipts : List FactReceiptRow
  eventReceipts : List EventReceiptRow
  audit : List AuditRow
  cloud : CloudHistory

/-- An item that is in its box: neither taken out nor displaced. -/
def BoxItemRow.live (i : BoxItemRow) : Bool := i.removedAt.isNone && i.displacedAt.isNone

/-- A stay that has not ended. -/
def StayRow.live (w : StayRow) : Bool := w.removedAt.isNone

end Markiro
