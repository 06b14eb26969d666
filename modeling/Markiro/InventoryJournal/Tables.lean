import Markiro.InventoryJournal.Scans
import Markiro.Lib.Processes
import Markiro.Lib.Table

/-!
# The tables of the inventory journal

The rows of one inventory on one station and the statements of `inventory-journal.ts`, each of which
stands alone. Rows from before the present audit version do not occur: every row here was written by
these statements. An acknowledgement is one statement too, of the sender beside the journal.
-/

namespace Markiro.InventoryJournal

open Utf16 Processes

/-! ## Rows -/

inductive CommitState where
  | pending | committed | failed
  deriving DecidableEq

/-- A row of `inventory_scan_events_mirror`; its kind and its code hash are parts of its identity. -/
structure EventRow where
  eventId : Uuid
  deviceSequence : ℕ
  operatorId : String
  scannedAt : Instant
  identity : NormalizedIdentity
  rawPayload : Units
  activeProductionDate : String
  localVerdict : Verdict
  commitState : CommitState
  duplicateWinner : Option LocalClaim
  deriving DecidableEq

structure ResultRow where
  codeHash : String
  firstAcceptedEventId : Uuid
  winningScannedAt : Instant
  observedProductionDate : String
  classification : OriginClassification
  originClassification : OriginClassification
  deriving DecidableEq

/-- The text of `eventPayload`, by its fields. -/
structure Payload where
  eventId : Uuid
  deviceSequence : ℕ
  operatorId : String
  scannedAt : Instant
  identity : NormalizedIdentity
  canonicalRaw : Units
  activeProductionDate : String
  localVerdict : Verdict
  deriving DecidableEq

structure OutboxRow where
  eventId : Uuid
  deviceSequence : ℕ
  payload : Payload
  deriving DecidableEq

/-- The row of `inventory_terminal_state`. -/
structure Terminal where
  activeProductionDate : Option String
  nextDeviceSequence : ℕ

/-- The tables; the column `authoritative_verdict` of the events stands by itself, since only the
sender knows it, and `queued` remembers every row that was put into the outbox. -/
structure Journal where
  events : List EventRow
  results : List ResultRow
  outbox : List OutboxRow
  terminal : Option Terminal
  authoritativeVerdict : Uuid → Option String
  queued : List OutboxRow

def EventRow.isLive (e : EventRow) : Bool := e.commitState ≠ .failed

def EventRow.isCommitted (e : EventRow) : Bool := e.commitState = .committed

def EventRow.isPending (e : EventRow) : Bool := e.commitState = .pending

def EventRow.precedes (a b : EventRow) : Bool :=
  a.deviceSequence < b.deviceSequence ||
    (a.deviceSequence = b.deviceSequence && a.eventId < b.eventId)

def eventPayload (e : EventRow) (verdict : Verdict) : Payload :=
  ⟨e.eventId, e.deviceSequence, e.operatorId, e.scannedAt, e.identity, e.rawPayload,
    e.activeProductionDate, verdict⟩

def EventRow.queueRow (e : EventRow) : OutboxRow :=
  ⟨e.eventId, e.deviceSequence, eventPayload e e.localVerdict⟩

def ResultRow.claim (r : ResultRow) : LocalClaim :=
  ⟨.item r.codeHash, r.firstAcceptedEventId, r.winningScannedAt⟩

/-! ## Reading -/

structure ProjectionSummary where
  expected : ℕ
  «protected» : ℕ
  ineligible : ℕ
  total : ℕ
  deriving DecidableEq

def Inventory.children (inventory : Inventory) (sscc : Units) : List SnapshotRow :=
  inventory.rows.filter (·.parentSscc = some sscc)

namespace Journal

variable (inventory : Inventory) (j : Journal)

def existingEvent (eventId : Uuid) : Option EventRow := j.events.find? (·.eventId = eventId)

/-- The event of a result, joined under a condition. -/
def ownedBy (q : EventRow → Bool) (r : ResultRow) : Bool :=
  j.events.any fun e => e.eventId = r.firstAcceptedEventId && q e

def snapshotRows : ScanInput → List SnapshotRow
  | .km km => inventory.rows.filter (·.codeHash = inventory.kmHash km)
  | .sscc sscc => inventory.children sscc
  | _ => []

def claimRows : ScanInput → List LocalClaim
  | .km km =>
    (j.results.filter fun r => j.ownedBy (·.isLive) r && r.codeHash = inventory.kmHash km).map
      (·.claim)
  | .sscc sscc =>
    (j.results.filter fun r => j.ownedBy (·.isLive) r &&
      (inventory.children sscc).any (·.codeHash = r.codeHash)).map (·.claim)
  | _ => []

/-- The pending events in their order, but for one. -/
def pendingEvents (excluding : Option Uuid) : List EventRow :=
  (j.events.filter fun e => e.isPending && excluding ≠ some e.eventId).insertionSort
    fun a b => ¬b.precedes a

def outboxRow (eventId : Uuid) : Option OutboxRow := j.outbox.find? (·.eventId = eventId)

def ownedProjectionSummary (eventId : Uuid) : ProjectionSummary :=
  let owned := j.results.filter (·.firstAcceptedEventId = eventId)
  ⟨owned.countP (·.originClassification = .expected),
    owned.countP (·.originClassification = .protected),
    owned.countP (·.originClassification = .knownIneligible), owned.length⟩

def childSettled (event : EventRow) (child : SnapshotRow) : Bool :=
  j.results.any fun r => r.codeHash = child.codeHash && r.classification = r.originClassification &&
    r.originClassification = child.origin &&
    j.ownedBy (fun o => o.isCommitted && r.winningScannedAt = o.scannedAt &&
      r.observedProductionDate = o.activeProductionDate && o.precedes event) r

def codeSettled (event : EventRow) (codeHash : String) : Bool :=
  j.results.any fun r => r.codeHash = codeHash &&
    j.ownedBy (fun o => o.isCommitted && r.winningScannedAt = o.scannedAt && o.precedes event) r

def observedBefore (event : EventRow) (verdict : Verdict → Bool) : Bool :=
  j.events.any fun o => o.identity = event.identity && o.isCommitted && verdict o.localVerdict &&
    o.precedes event

/-- What has to be there before an event may be a duplicate; its identity never changes. -/
def hasValidPriorRepresentative (eventId : Uuid) : Bool :=
  match j.existingEvent eventId with
  | none => false
  | some event =>
    match event.identity with
    | .knownBox sscc => inventory.children sscc ≠ [] &&
        (inventory.children sscc).all (j.childSettled event)
    | .item codeHash => j.codeSettled event codeHash || j.observedBefore event (· = .unknown)
    | .oldBox _ => j.observedBefore event (· ≠ .duplicate)

/-- `order by device_sequence, event_id limit 1`. -/
def firstEvent : List EventRow → Option EventRow
  | [] => none
  | e :: rest =>
    match firstEvent rest with
    | none => some e
    | some first => if first.precedes e then some first else some e

/-- The claim of an observation: its code hash, or its identity where it has none. -/
def observation (e : EventRow) : LocalClaim := ⟨e.identity, e.eventId, e.scannedAt⟩

def firstUnknownObservation (identity : NormalizedIdentity) : Option LocalClaim :=
  (firstEvent (j.events.filter fun e =>
    e.identity = identity && e.isLive && e.localVerdict = .unknown)).map observation

def winnerOf (codeHash : String) : Option LocalClaim :=
  (j.results.find? fun r => r.codeHash = codeHash && j.ownedBy (·.isCommitted) r).map (·.claim)

def firstProjectionWinner : ScanIdentity → Option LocalClaim
  | .item codeHash _ => j.winnerOf codeHash
  | .knownBox sscc _ =>
    firstClaim ((inventory.children sscc).filterMap fun row => j.winnerOf row.codeHash)
  | .oldBox _ => none

def unresolved : ℕ :=
  j.events.countP fun failed => failed.commitState = .failed &&
    !(j.events.any fun e => e.identity = failed.identity && e.isCommitted &&
      e.localVerdict ≠ .duplicate)

/-! ## Writing -/

def change (eventId : Uuid) (q : EventRow → Bool) (f : EventRow → EventRow) : Journal :=
  { j with events := Table.update (fun e => e.eventId = eventId && e.isPending && q e) f j.events }

def isQueued (eventId : Uuid) : Bool := j.outbox.any (·.eventId = eventId)

/-- The terminal's row, or the one an insertion makes. -/
def terminalRow : Terminal := j.terminal.getD ⟨none, 1⟩

def setProductionDate (date : String) : Journal :=
  { j with terminal := some { j.terminalRow with activeProductionDate := some date } }

def ensureTerminal : Journal := { j with terminal := some j.terminalRow }

/-- `returning next_device_sequence - 1`. -/
def nextSequence : Option ℕ × Journal :=
  match j.terminal with
  | none => (none, j)
  | some t => (some t.nextDeviceSequence,
      { j with terminal := some { t with nextDeviceSequence := t.nextDeviceSequence + 1 } })

def insertEvent (row : EventRow) : Journal :=
  if j.events.any (·.eventId = row.eventId) then j else { j with events := j.events ++ [row] }

def insertResults (rows : List ResultRow) : Journal :=
  { j with results := j.results ++
      rows.filter fun row => !(j.results.any (·.codeHash = row.codeHash)) }

def deleteProjection (eventId : Uuid) : Journal :=
  if j.events.any (fun e => e.eventId = eventId && e.isPending) && !j.isQueued eventId then
    { j with results := j.results.filter (·.firstAcceptedEventId ≠ eventId) }
  else j

def failEvent (eventId : Uuid) : Journal :=
  if j.isQueued eventId then j
  else j.change eventId (fun _ => true) fun e => { e with commitState := .failed }

def finalize (eventId : Uuid) : Journal :=
  j.change eventId (fun _ => true) fun e => { e with commitState := .committed }

def setDuplicateWinner (eventId : Uuid) (winner : LocalClaim) : Journal :=
  j.change eventId (fun e => e.duplicateWinner = none || e.duplicateWinner = some winner)
    fun e => { e with duplicateWinner := some winner }

def setVerdict (eventId : Uuid) (verdict : Verdict) : Journal :=
  j.change eventId (fun _ => true) fun e => { e with localVerdict := verdict }

def insertOutbox (row : OutboxRow) : Journal :=
  if j.isQueued row.eventId then j
  else { j with outbox := j.outbox ++ [row], queued := j.queued ++ [row] }

/-- `inventory_sync_apply_ack` of a pinned batch with the verdicts of the server; it is refused as a
whole where a row is not queued any more. -/
def acknowledge (verdicts : List (Uuid × String)) : Journal :=
  if verdicts.all (fun v => j.isQueued v.1) then
    { j with
      outbox := j.outbox.filter fun row => !(verdicts.any (·.1 = row.eventId))
      authoritativeVerdict := fun id =>
        match verdicts.find? (·.1 = id) with
        | some v => some v.2
        | none => j.authoritativeVerdict id }
  else j

end Journal

/-! ## Statements -/

/-- The statements of the journal, in the order of the source. -/
inductive Statement where
  | existingEvent (eventId : Uuid)
  | pendingLeave
  | snapshotRows (scan : ScanInput)
  | claimRows (scan : ScanInput)
  | activeDate
  | ensureTerminal
  | nextSequence
  | insertEvent (row : EventRow)
  | setDuplicateWinner (eventId : Uuid) (winner : LocalClaim)
  | insertItem (row : ResultRow)
  | insertBox (sscc : Units) (eventId : Uuid) (scannedAt : Instant) (date : String)
  | ownedProjectionSummary (eventId : Uuid)
  | firstUnknownObservation (identity : NormalizedIdentity)
  | firstProjectionWinner (identity : ScanIdentity)
  | outboxRow (eventId : Uuid)
  | hasValidPriorRepresentative (eventId : Uuid)
  | finalize (eventId : Uuid)
  | deleteProjection (eventId : Uuid)
  | failEvent (eventId : Uuid)
  | pendingEvents (excluding : Option Uuid)
  | unresolved
  | hasDeviceScans
  | setProductionDate (date : String)
  | setVerdict (eventId : Uuid) (verdict : Verdict)
  | insertOutbox (row : OutboxRow)

abbrev Statement.Answer : Statement → Type
  | .existingEvent _ => Option EventRow
  | .pendingLeave | .hasValidPriorRepresentative _ | .hasDeviceScans => Bool
  | .snapshotRows _ => List SnapshotRow
  | .claimRows _ => List LocalClaim
  | .activeDate => Option String
  | .nextSequence => Option ℕ
  | .ownedProjectionSummary _ => ProjectionSummary
  | .firstUnknownObservation _ | .firstProjectionWinner _ => Option LocalClaim
  | .outboxRow _ => Option OutboxRow
  | .pendingEvents _ => List EventRow
  | .unresolved => ℕ
  | _ => Unit

def boxRows (inventory : Inventory) (sscc : Units) (eventId : Uuid) (scannedAt : Instant)
    (date : String) : List ResultRow :=
  (inventory.children sscc).map fun row =>
    ⟨row.codeHash, eventId, scannedAt, date, row.origin, row.origin⟩

def execute (inventory : Inventory) (j : Journal) : (s : Statement) → s.Answer × Journal
  | .existingEvent eventId => (j.existingEvent eventId, j)
  | .pendingLeave => (inventory.leaving, j)
  | .snapshotRows scan => (Journal.snapshotRows inventory scan, j)
  | .claimRows scan => (j.claimRows inventory scan, j)
  | .activeDate => (j.terminal.bind (·.activeProductionDate), j)
  | .ensureTerminal => ((), j.ensureTerminal)
  | .nextSequence => j.nextSequence
  | .insertEvent row => ((), j.insertEvent row)
  | .setDuplicateWinner eventId winner => ((), j.setDuplicateWinner eventId winner)
  | .insertItem row => ((), j.insertResults [row])
  | .insertBox sscc eventId scannedAt date =>
    ((), j.insertResults (boxRows inventory sscc eventId scannedAt date))
  | .ownedProjectionSummary eventId => (j.ownedProjectionSummary eventId, j)
  | .firstUnknownObservation identity => (j.firstUnknownObservation identity, j)
  | .firstProjectionWinner identity => (j.firstProjectionWinner inventory identity, j)
  | .outboxRow eventId => (j.outboxRow eventId, j)
  | .hasValidPriorRepresentative eventId => (j.hasValidPriorRepresentative inventory eventId, j)
  | .finalize eventId => ((), j.finalize eventId)
  | .deleteProjection eventId => ((), j.deleteProjection eventId)
  | .failEvent eventId => ((), j.failEvent eventId)
  | .pendingEvents excluding => (j.pendingEvents excluding, j)
  | .unresolved => (j.unresolved, j)
  | .hasDeviceScans => (!j.events.isEmpty, j)
  | .setProductionDate date => ((), j.setProductionDate date)
  | .setVerdict eventId verdict => ((), j.setVerdict eventId verdict)
  | .insertOutbox row => ((), j.insertOutbox row)

end Markiro.InventoryJournal
