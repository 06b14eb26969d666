import Markiro.InventoryJournal.Tables

/-!
# Calls of the inventory journal

`recordInventoryScan` and `reconcilePendingInventoryEvents` as processes that ask one statement after
the other, on the path without offline grants, and the system in which they run: the statements are
executed one by one, acknowledgements arrive between any two of them, and a start of the station cuts
short what runs.
-/

namespace Markiro.InventoryJournal

open Utf16 Processes

/-! ## Inputs and answers -/

structure RecordInventoryScanInput where
  operatorId : String
  taskGtin14 : Units
  raw : Units
  eventId : Uuid
  scannedAt : Instant
  acceptSourceDateMismatch : Bool

/-- The answer to a recorded scan; the verdict of noise is `none`. -/
structure RecordInventoryScanResult where
  verdict : Option Verdict
  claimedCount : ℕ
  boxChildCount : ℕ
  firstWinning : Option LocalClaim
  deriving DecidableEq

inductive RecordInventoryScanOutcome where
  | recorded (result : RecordInventoryScanResult)
  | dateMismatch (activeDate : String) (codeDate : Option String) (mixed : Bool)
  deriving DecidableEq

structure InventoryJournalReconciliation where
  requiresRescan : Bool
  recoveredCommitted : ℕ
  failed : ℕ

inductive JournalError where
  | leavePending | payloadMismatch | eventFailed | noProductionDate | invalidProductionDate
  | sequenceFailed | reservationFailed | notPending | missingDate | winnerMissing | winnerMismatch
  | verdictFailed | outboxMismatch | commitFailed | inconsistentOutput | disappeared
  | compensationRaced | tooManyRetries
  deriving DecidableEq

abbrev Journaled (α : Type) := Fallible Statement.Answer JournalError α

def ask (s : Statement) : Journaled s.Answer := Fallible.query s

def require (b : Bool) (e : JournalError) : Journaled Unit := Fallible.require b e

def throw {α : Type} (e : JournalError) : Journaled α := Fallible.throw e

/-! ## Classification -/

def ScanInput.isRead : ScanInput → Bool
  | .km _ | .sscc _ => true
  | _ => false

def loadClassifierFacts (input : RecordInventoryScanInput) : Journaled ClassifierFacts :=
  if (classifyScan input.raw).isRead then do
    let rows : List SnapshotRow ← ask (.snapshotRows (classifyScan input.raw))
    let claims : List LocalClaim ← ask (.claimRows (classifyScan input.raw))
    return ⟨rows, claims⟩
  else return ⟨[], []⟩

def classifyFromFacts (inventory : Inventory) (input : RecordInventoryScanInput)
    (facts : ClassifierFacts) : ScanClassification :=
  classifyInventoryScan inventory.kmHash input.taskGtin14 input.raw facts

def resultFrom (scan : ValidScan) (verdict : Verdict) (claimedCount : ℕ)
    (firstWinning : Option LocalClaim) : RecordInventoryScanResult :=
  ⟨some verdict, claimedCount, scan.identity.childCount, firstWinning⟩

def noise : RecordInventoryScanOutcome := .recorded ⟨none, 0, 0, none⟩

/-- What `ensureExactReservation` compares. -/
def exactReservation (row : EventRow) (input : RecordInventoryScanInput) (scan : ValidScan) :
    Bool :=
  row.operatorId = input.operatorId && row.scannedAt = input.scannedAt &&
    row.identity = scan.identity.normalized && row.rawPayload = scan.identity.payload

/-! ## Reservation -/

def activeDate : Journaled String := do
  let value : Option String ← ask .activeDate
  require (value.getD "" ≠ "") .noProductionDate
  return value.getD ""

def allocateSequence : Journaled ℕ := do
  ask .ensureTerminal
  let sequence : Option ℕ ← ask .nextSequence
  require (1 ≤ sequence.getD 0) .sequenceFailed
  return sequence.getD 0

def reservation (input : RecordInventoryScanInput) (scan : ValidScan) (date : String)
    (sequence : ℕ) : EventRow :=
  ⟨input.eventId, sequence, input.operatorId, input.scannedAt, scan.identity.normalized,
    scan.identity.payload, date, scan.kind.verdict, .pending, scan.kind.duplicateWinner⟩

def reserveEvent (input : RecordInventoryScanInput) (scan : ValidScan) : Journaled EventRow := do
  let date ← activeDate
  let sequence ← allocateSequence
  ask (.insertEvent (reservation input scan date sequence))
  let reserved : Option EventRow ← ask (.existingEvent input.eventId)
  match reserved with
  | none => throw .reservationFailed
  | some row => do
    require (exactReservation row input scan && row.duplicateWinner = scan.kind.duplicateWinner)
      .payloadMismatch
    return row

/-! ## Projection and verdict -/

def insertProjections (input : RecordInventoryScanInput) (scan : ValidScan) (date : String) :
    Journaled Unit :=
  match scan.identity, scan.kind with
  | .knownBox sscc _, _ => ask (.insertBox sscc input.eventId input.scannedAt date)
  | .item codeHash _, .origin o =>
    ask (.insertItem ⟨codeHash, input.eventId, input.scannedAt, date, o, o⟩)
  | _, _ => pure ()

def ScanIdentity.isKnownBox : ScanIdentity → Bool
  | .knownBox _ _ => true
  | _ => false

def verdictFromProjection (scan : ValidScan) (summary : ProjectionSummary) : Option Verdict :=
  if 0 < summary.expected then some (.origin .expected)
  else if 0 < summary.protected then some (.origin .protected)
  else if 0 < summary.ineligible then some (.origin .knownIneligible)
  else if scan.identity.isKnownBox ∨ scan.kind.verdict ≠ .unknown then some .duplicate
  else none

/-- The verdict of a scan, and the claim that won before it where it is a duplicate. -/
def decideVerdict (scan : ValidScan) (event : EventRow) (summary : ProjectionSummary) :
    Journaled (Verdict × Option LocalClaim) :=
  match verdictFromProjection scan summary with
  | none => do
    let first : Option LocalClaim ← ask (.firstUnknownObservation event.identity)
    return if first.any (·.eventId ≠ event.eventId) then (.duplicate, first) else (.unknown, none)
  | some .duplicate => do
    let winner : Option LocalClaim ← ask (.firstProjectionWinner scan.identity)
    return (.duplicate, winner)
  | some verdict => return (verdict, none)

def persistDuplicateWinner (eventId : Uuid) : Option LocalClaim → Journaled Unit
  | none => throw .winnerMissing
  | some winner => do
    ask (.setDuplicateWinner eventId winner)
    let event : Option EventRow ← ask (.existingEvent eventId)
    require (event.any (·.duplicateWinner = some winner)) .winnerMismatch

def verdictStored (verdict : Verdict) (firstWinning : Option LocalClaim) (event : EventRow) :
    Bool :=
  event.localVerdict = verdict && event.isPending &&
    (verdict ≠ .duplicate || event.duplicateWinner = firstWinning)

def keepWinner (eventId : Uuid) (verdict : Verdict) (firstWinning : Option LocalClaim) :
    Journaled Unit :=
  if verdict = .duplicate then persistDuplicateWinner eventId firstWinning else pure ()

def storeVerdict (eventId : Uuid) (verdict : Verdict) (firstWinning : Option LocalClaim) :
    Journaled EventRow := do
  keepWinner eventId verdict firstWinning
  ask (.setVerdict eventId verdict)
  let event : Option EventRow ← ask (.existingEvent eventId)
  match event with
  | none => throw .verdictFailed
  | some event => do
    require (verdictStored verdict firstWinning event) .verdictFailed
    return event

/-! ## Outbox and commit -/

def finalizePendingEvent (eventId : Uuid) : Journaled Unit := do
  ask (.finalize eventId)
  let committed : Option EventRow ← ask (.existingEvent eventId)
  require (committed.any (·.isCommitted)) .commitFailed

def rowMatches (event : EventRow) (verdict : Verdict) (row : OutboxRow) : Bool :=
  row.deviceSequence = event.deviceSequence && row.payload = eventPayload event verdict

def queueEvent (event : EventRow) (verdict : Verdict) : Journaled Unit := do
  ask (.insertOutbox ⟨event.eventId, event.deviceSequence, eventPayload event verdict⟩)
  let queued : Option OutboxRow ← ask (.outboxRow event.eventId)
  require (queued.any (rowMatches event verdict)) .outboxMismatch

/-! ## Reconciliation -/

def projectionMatches (verdict : Verdict) (summary : ProjectionSummary) : Bool :=
  match verdict with
  | .origin .expected => 0 < summary.expected
  | .origin .protected => 0 < summary.protected
  | .origin .knownIneligible => 0 < summary.ineligible
  | _ => summary.total = 0

def representativeValid (event : EventRow) : Journaled Bool :=
  if event.localVerdict = .duplicate then ask (.hasValidPriorRepresentative event.eventId)
  else return true

/-- Whether the event is committed now; what was found pending again is tried again. -/
def reconcileOnePendingEvent : ℕ → EventRow → Journaled Bool
  | 0, _ => throw .tooManyRetries
  | retries + 1, event => do
    let queued : Option OutboxRow ← ask (.outboxRow event.eventId)
    let summary : ProjectionSummary ← ask (.ownedProjectionSummary event.eventId)
    match queued with
    | some row => do
      let valid ← representativeValid event
      require (rowMatches event event.localVerdict row &&
        projectionMatches event.localVerdict summary && valid) .inconsistentOutput
      finalizePendingEvent event.eventId
      return true
    | none => do
      ask (.deleteProjection event.eventId)
      ask (.failEvent event.eventId)
      let reconciled : Option EventRow ← ask (.existingEvent event.eventId)
      match reconciled with
      | none => throw .disappeared
      | some row =>
        match row.commitState with
        | .pending => reconcileOnePendingEvent retries row
        | .failed => return false
        | .committed => throw .compensationRaced

def reconcilePendingInventoryEvents (retries : ℕ) (excluding : Option Uuid) :
    Journaled InventoryJournalReconciliation := do
  let pending : List EventRow ← ask (.pendingEvents excluding)
  let recovered ← Fallible.foldl (fun count event => do
    let committed ← reconcileOnePendingEvent (retries + 1) event
    return if committed then count + 1 else count) 0 pending
  let failed : ℕ ← ask .unresolved
  return ⟨0 < failed, recovered, failed⟩

/-! ## Recording -/

def guardSourceProductionDate (input : RecordInventoryScanInput) (scan : ValidScan)
    (facts : ClassifierFacts) : Journaled (Option RecordInventoryScanOutcome) :=
  if input.acceptSourceDateMismatch then return none
  else
    match resolveInventoryScanSourceDate facts scan with
    | .none => return none
    | .mixed => do
      let active ← activeDate
      return some (.dateMismatch active none true)
    | .single date => do
      let active ← activeDate
      if date = active then return none
      else
        let scans : Bool ← ask .hasDeviceScans
        if scans then return some (.dateMismatch active (some date) false)
        else
          require (isCivilDate date) .invalidProductionDate
          ask (.setProductionDate date)
          return none

def commitScan (input : RecordInventoryScanInput) (scan : ValidScan) (event : EventRow) :
    Journaled RecordInventoryScanOutcome := do
  require (exactReservation event input scan) .payloadMismatch
  require event.isPending .notPending
  require (event.activeProductionDate ≠ "") .missingDate
  insertProjections input scan event.activeProductionDate
  let summary : ProjectionSummary ← ask (.ownedProjectionSummary input.eventId)
  let (verdict, firstWinning) ← decideVerdict scan event summary
  let event ← storeVerdict input.eventId verdict firstWinning
  queueEvent event verdict
  finalizePendingEvent input.eventId
  return .recorded (resultFrom scan verdict summary.total firstWinning)

/-- The answer of an event that is committed already. -/
def replay (scan : ValidScan) (event : EventRow) : Journaled RecordInventoryScanOutcome := do
  let summary : ProjectionSummary ← ask (.ownedProjectionSummary event.eventId)
  return .recorded (resultFrom scan event.localVerdict summary.total
    (if event.localVerdict = .duplicate then event.duplicateWinner else none))

def recordReconciled (inventory : Inventory) (input : RecordInventoryScanInput)
    (event : Option EventRow) : Journaled RecordInventoryScanOutcome := do
  let facts ← loadClassifierFacts input
  match classifyFromFacts inventory input facts with
  | .invalid _ => return noise
  | .valid scan =>
    match event with
    | some event => commitScan input scan event
    | none => do
      let mismatch ← guardSourceProductionDate input scan facts
      match mismatch with
      | some outcome => return outcome
      | none => do
        let event ← reserveEvent input scan
        commitScan input scan event

/-- A new event needs a terminal that is not about to leave. -/
def checkLeaving (event : Option EventRow) : Journaled Unit :=
  if event.isNone then do
    let leaving : Bool ← ask .pendingLeave
    require (!leaving) .leavePending
  else pure ()

def recordInventoryScan (inventory : Inventory) (retries : ℕ) (input : RecordInventoryScanInput) :
    Journaled RecordInventoryScanOutcome := do
  let event : Option EventRow ← ask (.existingEvent input.eventId)
  checkLeaving event
  let facts ← loadClassifierFacts input
  match classifyFromFacts inventory input facts, event with
  | .invalid _, _ => return noise
  | .valid _, none => do
    let _ ← reconcilePendingInventoryEvents retries (some input.eventId)
    recordReconciled inventory input none
  | .valid scan, some event => do
    require (exactReservation event input scan) .payloadMismatch
    match event.commitState with
    | .failed => throw .eventFailed
    | .committed => replay scan event
    | .pending => do
      let _ ← reconcilePendingInventoryEvents retries (some input.eventId)
      recordReconciled inventory input (some event)

/-! ## The station -/

/-- What the station runs; a scan comes from the operator, a reconciliation from the work surface.
The number of retries of one event bounds a loop that the source does not bound. -/
inductive Job where
  | record (retries : ℕ) (input : RecordInventoryScanInput)
  | reconcile (retries : ℕ)

def Job.isRecord : Job → Bool
  | .record _ _ => true
  | .reconcile _ => false

/-- What a job does; nobody asks for its answer after a crash. -/
def process (inventory : Inventory) : Job → Process Statement.Answer Unit
  | .record retries input =>
    Process.bind (recordInventoryScan inventory retries input) fun _ => .done ()
  | .reconcile retries =>
    Process.bind (reconcilePendingInventoryEvents retries none) fun _ => .done ()

/-- The station: statements are executed one by one, and between them acknowledgements arrive. -/
def station (inventory : Inventory) :
    System Statement Statement.Answer Journal Unit (List (Uuid × String)) Job where
  serve j s _ := some (execute inventory j s)
  outside := Journal.acknowledge
  process := process inventory

end Markiro.InventoryJournal
