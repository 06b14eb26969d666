import Markiro.Lib.Table
import Markiro.Lib.Results
import Markiro.Domain.StationSync

/-!
# The rows of an inventory

The tables that `station-inventory-sync.service.ts`, the two services of corrections and
`inventory-close.service.ts` read and write for one inventory, with the constraints
`schema/inventory.ts` puts on them. A statement is a change of the rows that the constraints must
let pass (`Tables.change`); what throws inside a transaction leaves nothing behind, so a transaction
is a computation over `Except`.
-/

namespace Markiro.InventorySync

open Utf16

/-! ## The frozen facts of an inventory -/

inductive Mode where
  | check | repack
  deriving DecidableEq

/-- A row of `inventory_snapshot_codes`. -/
structure SnapshotCode where
  codeHash : Hash
  parentSscc : Option SsccText
  expected : Bool
  «protected» : Bool
  deriving DecidableEq

/-- What no transaction of this development changes: the inventory's own columns, the capacity its
station manifest names, and the codes of its snapshot. -/
structure Task where
  inventoryId : Uuid
  snapshotId : Uuid
  gtin14 : Units
  productionDateFrom : CivilDate
  productionDateTo : CivilDate
  mode : Mode
  boxCapacity : Option ℕ
  codes : List SnapshotCode
  distinct : Table.Unique (·.codeHash) codes

/-- `repackInventoryFacts`: a capacity counts when it is a positive safe integer. -/
def Task.capacity (task : Task) : Option ℕ := task.boxCapacity.filter fun c => 0 < c ∧ isSafe c

/-! ## Rows -/

inductive Status where
  | draft | preparing | ready | cancelled | running | closed | completed
  deriving DecidableEq

structure Participant where
  deviceId : Uuid
  operatorId : Uuid
  leftAt : Option Stamp
  deriving DecidableEq

inductive ScanBatchOutcome where
  | applied | rejected | quarantined
  deriving DecidableEq

/-- A row of `inventory_scan_batches`; an empty result is `none`. -/
structure ScanBatch where
  deviceId : Uuid
  batchId : Units
  payloadDigest : Hash
  sequenceCeiling : ℕ
  outcome : ScanBatchOutcome
  result : Option BatchResponse
  deriving DecidableEq

inductive Verdict where
  | pending | applied | duplicate | rejected
  deriving DecidableEq

structure ScanEvent where
  eventId : Uuid
  deviceId : Uuid
  deviceSequence : ℕ
  operatorId : Uuid
  scannedAt : Stamp
  kind : EventKind
  authoritativeVerdict : Verdict
  deriving DecidableEq

structure ClaimOutcome where
  sourceEventId : Uuid
  codeHash : Hash
  status : ClaimStatus
  winningEventId : Uuid
  winningDeviceId : Uuid
  winningScannedAt : Stamp
  deriving DecidableEq

structure CodeResult where
  id : Uuid
  codeHash : Hash
  snapshotId : Option Uuid
  firstAcceptedEventId : Uuid
  winningDeviceId : Uuid
  winningScannedAt : Stamp
  observedProductionDate : Option CivilDate
  classification : CodeClassification
  originClassification : CodeClassification
  updatedAt : Stamp
  deriving DecidableEq

structure ProgressChange where
  id : Uuid
  resultRevision : ℕ
  kind : ProgressKind
  codeHash : Hash
  classification : CodeClassification
  observedProductionDate : Option CivilDate
  winningEventId : Uuid
  winningDeviceId : Uuid
  winningScannedAt : Stamp
  changedAt : Stamp
  deriving DecidableEq

inductive BoxState where
  | opened | closed | invalidated
  deriving DecidableEq

inductive InvalidationSource where
  | claimLost | admin
  deriving DecidableEq

inductive PrintState where
  | notReady | pending | printing | printed | failed
  deriving DecidableEq

structure RepackBox where
  id : Uuid
  oldSsccContext : Option SsccText
  newSscc : SsccText
  ownerDeviceId : Uuid
  openedEventId : Uuid
  closedEventId : Option Uuid
  capacity : ℕ
  productionDate : CivilDate
  state : BoxState
  invalidationSource : Option InvalidationSource
  printState : PrintState
  printAttemptCount : ℕ
  printErrorCode : Option PrintError
  openedAt : Stamp
  closedAt : Option Stamp
  invalidatedAt : Option Stamp
  printedAt : Option Stamp
  updatedAt : Stamp
  deriving DecidableEq

structure RepackItem where
  id : Uuid
  boxId : Uuid
  resultId : Uuid
  sourceEventId : Uuid
  position : ℕ
  sourceParentMismatch : Bool
  productionDate : CivilDate
  activeObservedProductionDate : Option CivilDate
  addedAt : Stamp
  removedAt : Option Stamp
  deriving DecidableEq

def RepackItem.active (i : RepackItem) : Bool := i.removedAt.isNone

structure PrintAttempt where
  id : Uuid
  boxId : Uuid
  sourceEventId : Uuid
  kind : PrintKind
  attemptNumber : ℕ
  result : PrintResult
  errorCode : Option PrintError
  attemptedAt : Stamp
  completedAt : Stamp
  deriving DecidableEq

structure SsccBlock where
  id : Uuid
  deviceId : Uuid
  issuerPrefix : Units
  extensionDigit : ℕ
  fromSerial : ℕ
  toSerial : ℕ
  consumedThroughSerial : Option ℕ
  deriving DecidableEq

inductive CorrectionAction where
  | voidScan | restoreScan | changeDate | removeItem | invalidateBox | reprint
  deriving DecidableEq

/-- A row of `inventory_corrections`. -/
structure Correction where
  id : Uuid
  batchId : Option Uuid
  action : CorrectionAction
  requestDigest : Hash
  targetEventId : Option Uuid
  targetCodeResultId : Option Uuid
  targetRepackBoxId : Option Uuid
  resultRevision : ℕ
  effectAt : Stamp
  createdAt : Stamp
  deriving DecidableEq

structure CorrectionBatch where
  id : Uuid
  action : CorrectionAction
  requestDigest : Hash
  selectedEventCount : ℕ
  affectedCodeCount : ℕ
  resultRevision : ℕ
  createdAt : Stamp
  deriving DecidableEq

inductive LateEventResolution where
  | pending | replayed | discarded
  deriving DecidableEq

/-- A row of `inventory_late_events`. -/
structure LateEvent where
  id : Uuid
  deviceId : Uuid
  batchId : Units
  payload : EventBatch
  payloadDigest : Hash
  closedRevision : ℕ
  resolution : LateEventResolution
  replayAuthorizedRevision : Option ℕ
  deriving DecidableEq

/-- All the rows; the first two are columns of the inventory's own. -/
structure Rows where
  status : Status
  resultRevision : ℕ
  participants : List Participant
  scanBatches : List ScanBatch
  scanEvents : List ScanEvent
  claimOutcomes : List ClaimOutcome
  codeResults : List CodeResult
  progressChanges : List ProgressChange
  boxes : List RepackBox
  items : List RepackItem
  printAttempts : List PrintAttempt
  ssccBlocks : List SsccBlock
  corrections : List Correction
  correctionBatches : List CorrectionBatch
  lateEvents : List LateEvent

/-! ## Constraints -/

def CodeResult.originKept (r : CodeResult) : Prop :=
  r.originClassification ≠ .voided ∧
    (r.classification = r.originClassification ∨ r.classification = .voided) ∧
    (r.originClassification = .unknown ↔ r.snapshotId = none)

instance (r : CodeResult) : Decidable r.originKept := by
  unfold CodeResult.originKept
  infer_instance

/-- The columns a state goes with. -/
def RepackBox.lifecycle (b : RepackBox) : Prop :=
  match b.state with
  | .opened => b.closedAt = none ∧ b.invalidatedAt = none ∧ b.invalidationSource = none ∧
      b.printState = .notReady
  | .closed => b.closedAt ≠ none ∧ b.invalidatedAt = none ∧ b.invalidationSource = none ∧
      b.printState ≠ .notReady
  | .invalidated => b.invalidatedAt ≠ none ∧ b.invalidationSource ≠ none

instance (b : RepackBox) : Decidable b.lifecycle := by
  unfold RepackBox.lifecycle
  split <;> infer_instance

/-- The columns a print state goes with. -/
def RepackBox.printKept (b : RepackBox) : Prop :=
  match b.printState with
  | .notReady => b.printErrorCode = none ∧ b.printAttemptCount = 0 ∧ b.printedAt = none
  | .pending => b.printErrorCode = none ∧ b.printedAt = none
  | .printing => b.printErrorCode = none ∧ 0 < b.printAttemptCount ∧ b.printedAt = none
  | .printed => 0 < b.printAttemptCount ∧ b.printedAt ≠ none
  | .failed => b.printErrorCode ≠ none ∧ 0 < b.printAttemptCount ∧ b.printedAt = none

instance (b : RepackBox) : Decidable b.printKept := by
  unfold RepackBox.printKept
  split <;> infer_instance

structure BoxConstraints (boxes : List RepackBox) : Prop where
  ids : Table.Unique (·.id) boxes
  newSsccs : Table.Unique (·.newSscc) boxes
  capacity : ∀ b ∈ boxes, 0 < b.capacity
  lifecycle : ∀ b ∈ boxes, b.lifecycle
  printKept : ∀ b ∈ boxes, b.printKept

instance (boxes : List RepackBox) : Decidable (BoxConstraints boxes) :=
  decidable_of_iff (Table.Unique (·.id) boxes ∧ Table.Unique (·.newSscc) boxes ∧
      (∀ b ∈ boxes, 0 < b.capacity) ∧ (∀ b ∈ boxes, b.lifecycle) ∧ ∀ b ∈ boxes, b.printKept)
    ⟨fun ⟨h1, h2, h3, h4, h5⟩ => ⟨h1, h2, h3, h4, h5⟩,
      fun ⟨h1, h2, h3, h4, h5⟩ => ⟨h1, h2, h3, h4, h5⟩⟩

def RepackItem.datesKept (i : RepackItem) : Prop :=
  match i.removedAt with
  | none => i.activeObservedProductionDate = some i.productionDate
  | some t => i.addedAt ≤ t ∧ i.activeObservedProductionDate = none

instance (i : RepackItem) : Decidable i.datesKept := by
  unfold RepackItem.datesKept
  split <;> infer_instance

structure ItemConstraints (items : List RepackItem) (boxes : List RepackBox)
    (results : List CodeResult) : Prop where
  ids : Table.Unique (·.id) items
  activeResults : Table.Unique (·.resultId) (items.filter (·.active))
  activePositions : Table.Unique (fun i => (i.boxId, i.position)) (items.filter (·.active))
  datesKept : ∀ i ∈ items, i.datesKept
  positions : ∀ i ∈ items, 0 < i.position
  boxDates : ∀ i ∈ items, ∃ b ∈ boxes, b.id = i.boxId ∧ b.productionDate = i.productionDate
  members : ∀ i ∈ items, ∃ r ∈ results, r.id = i.resultId
  resultDates : ∀ i ∈ items, ∀ d ∈ i.activeObservedProductionDate,
    ∃ r ∈ results, r.id = i.resultId ∧ r.observedProductionDate = some d

instance (items : List RepackItem) (boxes : List RepackBox) (results : List CodeResult) :
    Decidable (ItemConstraints items boxes results) :=
  decidable_of_iff (Table.Unique (·.id) items ∧
      Table.Unique (·.resultId) (items.filter (·.active)) ∧
      Table.Unique (fun i => (i.boxId, i.position)) (items.filter (·.active)) ∧
      (∀ i ∈ items, i.datesKept) ∧ (∀ i ∈ items, 0 < i.position) ∧
      (∀ i ∈ items, ∃ b ∈ boxes, b.id = i.boxId ∧ b.productionDate = i.productionDate) ∧
      (∀ i ∈ items, ∃ r ∈ results, r.id = i.resultId) ∧
      ∀ i ∈ items, ∀ d ∈ i.activeObservedProductionDate,
        ∃ r ∈ results, r.id = i.resultId ∧ r.observedProductionDate = some d)
    ⟨fun ⟨h1, h2, h3, h4, h5, h6, h7, h8⟩ => ⟨h1, h2, h3, h4, h5, h6, h7, h8⟩,
      fun ⟨h1, h2, h3, h4, h5, h6, h7, h8⟩ => ⟨h1, h2, h3, h4, h5, h6, h7, h8⟩⟩

structure AttemptConstraints (attempts : List PrintAttempt) : Prop where
  ids : Table.Unique (·.id) attempts
  numbers : Table.Unique (fun a => (a.boxId, a.attemptNumber)) attempts
  results : ∀ a ∈ attempts, a.result = .printed ↔ a.errorCode = none
  positive : ∀ a ∈ attempts, 0 < a.attemptNumber
  times : ∀ a ∈ attempts, a.attemptedAt ≤ a.completedAt

instance (attempts : List PrintAttempt) : Decidable (AttemptConstraints attempts) :=
  decidable_of_iff (Table.Unique (·.id) attempts ∧
      Table.Unique (fun a => (a.boxId, a.attemptNumber)) attempts ∧
      (∀ a ∈ attempts, a.result = .printed ↔ a.errorCode = none) ∧
      (∀ a ∈ attempts, 0 < a.attemptNumber) ∧ ∀ a ∈ attempts, a.attemptedAt ≤ a.completedAt)
    ⟨fun ⟨h1, h2, h3, h4, h5⟩ => ⟨h1, h2, h3, h4, h5⟩,
      fun ⟨h1, h2, h3, h4, h5⟩ => ⟨h1, h2, h3, h4, h5⟩⟩

/-- The constraints of the scans and their claims. A `date` starts with the year 1. -/
structure ScanConstraints (r : Rows) : Prop where
  batches : Table.Unique (fun b => (b.deviceId, b.batchId)) r.scanBatches
  events : Table.Unique (·.eventId) r.scanEvents
  sequences : Table.Unique (fun e => (e.deviceId, e.deviceSequence)) r.scanEvents
  claims : Table.Unique (fun c => (c.sourceEventId, c.codeHash)) r.claimOutcomes
  claimed : ∀ c ∈ r.claimOutcomes, c.status = .claimed ↔ c.sourceEventId = c.winningEventId
  resultIds : Table.Unique (·.id) r.codeResults
  currentClaims : Table.Unique (·.codeHash) r.codeResults
  origins : ∀ c ∈ r.codeResults, c.originKept
  dates : ∀ c ∈ r.codeResults, ∀ d ∈ c.observedProductionDate, 0 < d.year

instance (r : Rows) : Decidable (ScanConstraints r) :=
  decidable_of_iff (Table.Unique (fun b => (b.deviceId, b.batchId)) r.scanBatches ∧
      Table.Unique (·.eventId) r.scanEvents ∧
      Table.Unique (fun e => (e.deviceId, e.deviceSequence)) r.scanEvents ∧
      Table.Unique (fun c => (c.sourceEventId, c.codeHash)) r.claimOutcomes ∧
      (∀ c ∈ r.claimOutcomes, c.status = .claimed ↔ c.sourceEventId = c.winningEventId) ∧
      Table.Unique (·.id) r.codeResults ∧ Table.Unique (·.codeHash) r.codeResults ∧
      (∀ c ∈ r.codeResults, c.originKept) ∧
      ∀ c ∈ r.codeResults, ∀ d ∈ c.observedProductionDate, 0 < d.year)
    ⟨fun ⟨h1, h2, h3, h4, h5, h6, h7, h8, h9⟩ => ⟨h1, h2, h3, h4, h5, h6, h7, h8, h9⟩,
      fun ⟨h1, h2, h3, h4, h5, h6, h7, h8, h9⟩ => ⟨h1, h2, h3, h4, h5, h6, h7, h8, h9⟩⟩

/-- The constraints of the feed, of the corrections and of the late events. A revision is an
`integer`. -/
structure FeedConstraints (r : Rows) : Prop where
  revision : r.resultRevision ≤ 2147483647
  changes : Table.Unique (·.id) r.progressChanges
  changeRevisions : ∀ c ∈ r.progressChanges, 0 < c.resultRevision
  corrections : Table.Unique (·.id) r.corrections
  correctionRevisions : ∀ c ∈ r.corrections, 0 < c.resultRevision
  correctionBatches : Table.Unique (·.id) r.correctionBatches
  lateIds : Table.Unique (·.id) r.lateEvents
  lateBatches : Table.Unique (fun e => (e.deviceId, e.batchId)) r.lateEvents
  lateDigests : Table.Unique (fun e => (e.deviceId, e.payloadDigest)) r.lateEvents

instance (r : Rows) : Decidable (FeedConstraints r) :=
  decidable_of_iff (r.resultRevision ≤ 2147483647 ∧
      Table.Unique (·.id) r.progressChanges ∧
      (∀ c ∈ r.progressChanges, 0 < c.resultRevision) ∧
      Table.Unique (·.id) r.corrections ∧ (∀ c ∈ r.corrections, 0 < c.resultRevision) ∧
      Table.Unique (·.id) r.correctionBatches ∧
      Table.Unique (·.id) r.lateEvents ∧
      Table.Unique (fun e => (e.deviceId, e.batchId)) r.lateEvents ∧
      Table.Unique (fun e => (e.deviceId, e.payloadDigest)) r.lateEvents)
    ⟨fun ⟨h1, h2, h3, h4, h5, h6, h7, h8, h9⟩ => ⟨h1, h2, h3, h4, h5, h6, h7, h8, h9⟩,
      fun ⟨h1, h2, h3, h4, h5, h6, h7, h8, h9⟩ => ⟨h1, h2, h3, h4, h5, h6, h7, h8, h9⟩⟩

structure Rows.Kept (r : Rows) : Prop where
  scans : ScanConstraints r
  boxes : BoxConstraints r.boxes
  items : ItemConstraints r.items r.boxes r.codeResults
  attempts : AttemptConstraints r.printAttempts
  feed : FeedConstraints r

instance (r : Rows) : Decidable r.Kept :=
  decidable_of_iff (ScanConstraints r ∧ BoxConstraints r.boxes ∧
      ItemConstraints r.items r.boxes r.codeResults ∧ AttemptConstraints r.printAttempts ∧
      FeedConstraints r)
    ⟨fun ⟨h1, h2, h3, h4, h5⟩ => ⟨h1, h2, h3, h4, h5⟩,
      fun ⟨h1, h2, h3, h4, h5⟩ => ⟨h1, h2, h3, h4, h5⟩⟩

/-- The rows within the constraints. -/
structure Tables extends Rows where
  kept : toRows.Kept

/-! ## Statements -/

/-- The code of a `ConflictException`. -/
inductive Conflict where
  | batchDigestConflict
  | snapshotMismatch
  | participantOperatorMismatch
  | eventClaimLimitExceeded
  | batchClaimLimitExceeded
  | notAcceptingEvents
  | participantLeft
  | eventSequenceBelowHighWater
  | eventIdOrSequenceReused
  | eventModeMismatch
  | eventProductionDateMismatch
  | eventIdentityInvalid
  | eventGtinMismatch
  | eventKindMismatch
  | repackConfigurationInvalid
  | repackFrozenFactMismatch
  | repackSsccNotReserved
  | repackOpenBoxExists
  | repackBoxNotOwned
  | repackConflictResolutionInvalid
  | repackBoxNotClosed
  | repackPrintSsccMismatch
  | repackPrintTimeInvalid
  | repackPrintAttemptSequenceInvalid
  | repackPrintStateInvalid
  | repackPrintCompositionInvalid
  | repackPrintAttemptReused
  | repackBoxNotOpen
  | repackItemInvalid
  | repackItemIneligible
  | repackItemAlreadyMember
  | repackCapacityMismatch
  | repackLastItemMismatch
  | repackDateFrozen
  | repackIncompleteCloseInvalid
  | correctionIdempotencyMismatch
  | correctionNotRunning
  | correctionStaleRevision
  | correctionSnapshotMissing
  | correctionStateConflict
  | correctionActiveBoxConflict
  | correctionBatchEmpty
  | correctionBatchSelectionChanged
  | closeRequiresRunning
  | closeBlocked
  | reopenRequiresClosed
  | completed
  | lateEventDecisionStale
  deriving DecidableEq

/-- How a transaction fails: an answer of status 404 or 409, a statement the database refuses, or
an error that is no answer. -/
inductive Refusal where
  | notFound
  | conflict (code : Conflict)
  | constraintViolated
  | error
  deriving DecidableEq

/-- One statement. -/
def Tables.change (t : Tables) (f : Rows → Rows) : Except Refusal Tables :=
  if h : (f t.toRows).Kept then .ok { toRows := f t.toRows, kept := h }
  else .error .constraintViolated

theorem Tables.ext' {t u : Tables} (h : t.toRows = u.toRows) : t = u := by
  cases t
  cases u
  cases h
  rfl

theorem Tables.change_ok {t u : Tables} {f : Rows → Rows} :
    t.change f = .ok u ↔ u.toRows = f t.toRows := by
  unfold Tables.change
  split_ifs with h
  · rw [Except.ok.injEq]
    exact ⟨fun e => e ▸ rfl, fun e => Tables.ext' e.symm⟩
  · refine ⟨nofun, fun e => absurd (e ▸ u.kept) h⟩

def column (d : IsoDatetime) : Except Refusal Stamp :=
  match storeDate d.ms with
  | some s => .ok s
  | none => .error .constraintViolated

theorem column_ok {d : IsoDatetime} {s : Stamp} (h : column d = .ok s) : s.ms = d.ms := by
  unfold column storeDate at h
  split_ifs at h with hs
  · cases h
    rfl

/-- Throws unless the condition holds. -/
def ensure (p : Prop) [Decidable p] (e : Refusal) : Except Refusal Unit :=
  if p then .ok () else .error e

theorem ensure_ok {p : Prop} [Decidable p] {e : Refusal} {u : Unit} :
    ensure p e = .ok u ↔ p := by
  unfold ensure
  split_ifs with h
  · exact ⟨fun _ => h, fun _ => rfl⟩
  · exact ⟨nofun, fun hp => absurd hp h⟩

end Markiro.InventorySync
