import Markiro.InventorySync.RepackActions

/-!
# The answers of the server

`ingest` and `replayAuthorizedLateEvent` of `station-inventory-sync.service.ts`: the whole
transaction of a batch, with the answers that are rebuilt from what is stored.
-/

namespace Markiro.InventorySync

open Utf16

def respond (task : Task) (b : EventBatch) (resultRevision : ℕ) (outcomes : List EventOutcome) :
    BatchResponse where
  inventoryId := task.inventoryId
  snapshotId := b.snapshotId
  batchId := b.batchId
  payloadDigest := b.payloadDigest
  sequenceCeiling := b.sequenceCeiling
  resultRevision := resultRevision
  outcomes := outcomes

def setBatchResult (deviceId : Uuid) (batchId : Units) (result : BatchResponse) (r : Rows) : Rows :=
  { r with
    scanBatches := Table.update (fun b => b.deviceId = deviceId ∧ b.batchId = batchId)
      (fun b => { b with result := some result }) r.scanBatches }

/-! ## Stored answers -/

/-- The claims recorded for an event, in the order of their codes. -/
def evidenceOf (t : Tables) (eventId : Uuid) : List ClaimOutcome :=
  (t.claimOutcomes.filter fun c => c.sourceEventId = eventId).insertionSort
    fun a b => textLe a.codeHash.1 b.codeHash.1 = true

/-- The codes an event without recorded claims had claimed. -/
def legacyCodes (task : Task) (e : Event) : List Hash :=
  match e.kind with
  | .item => e.codeHash.toList
  | .knownBox =>
    (task.codesIn (e.normalizedIdentity.drop (encode "known_box:").length)).map (·.codeHash)
  | _ => []

/-- The recorded claims of an event; those of an old event are recorded now. -/
def readEvidence (task : Task) (e : Event) (t : Tables) :
    Except Refusal (List ClaimOutcome × Tables) :=
  if evidenceOf t e.eventId = [] ∧ e.kind ≠ .oldBox then
    let codes := legacyCodes task e
    let winners := t.codeResults.filter fun r => r.codeHash ∈ codes
    if codes = [] then .ok ([], t)
    else if winners.length ≠ codes.length then .error .error
    else do
      let t ← t.change fun r =>
        { r with claimOutcomes := r.claimOutcomes ++ winners.map (claimOutcomeRow e.eventId) }
      pure (evidenceOf t e.eventId, t)
  else .ok (evidenceOf t e.eventId, t)

def ClaimOutcome.toClaim (c : ClaimOutcome) : EventClaim where
  codeHash := c.codeHash
  status := c.status
  winner := ⟨c.codeHash, c.winningEventId, c.winningDeviceId, c.winningScannedAt.toISOString⟩

def rebuildOutcomes (task : Task) : Tables → List Event →
    Except Refusal (List EventOutcome × Tables)
  | t, [] => .ok ([], t)
  | t, e :: events => do
    let (evidence, t) ← readEvidence task e t
    let claims := evidence.map (·.toClaim)
    let applied := claims.any (·.status = .claimed) || e.kind = .oldBox
    let (os, t) ← rebuildOutcomes task t events
    pure (claimsOutcome e.eventId applied claims :: os, t)

/-- The stored answer when the reader of the station accepts it, else one that is rebuilt. -/
def normalizeStoredResponse (task : Task) (deviceId : Uuid) (b : EventBatch)
    (stored : Option BatchResponse) (resultRevision : ℕ) (t : Tables) :
    Except Refusal (BatchResponse × Tables) :=
  match stored.bind fun r => parseInventoryEventBatchResponse r b task.inventoryId deviceId with
  | some r => .ok (r, t)
  | none => do
    let (outcomes, t) ← rebuildOutcomes task t b.events
    let normalized := respond task b resultRevision outcomes
    let t ← t.change (setBatchResult deviceId b.batchId normalized)
    pure (normalized, t)

/-- The answer to a payload that was answered under another id. -/
def BatchResponse.replayed (batchId : Units) (r : BatchResponse) : BatchResponse :=
  { r with
    batchId := batchId
    outcomes := r.outcomes.map fun o =>
      if o.status = .rejected ∨ o.status = .quarantined then o
      else { o with status := .replay, reasonCode := .batchReplay } }

/-- A payload the device has sent before under another id. -/
def answerSameDigest (task : Task) (deviceId : Uuid) (b : EventBatch) (same : ScanBatch)
    (t : Tables) : Except Refusal (BatchResponse × Tables) := do
  let (prior, t) ← normalizeStoredResponse task deviceId { b with batchId := same.batchId }
    same.result t.resultRevision t
  let replay := prior.replayed b.batchId
  let t ← t.change fun r =>
    { r with
      scanBatches := r.scanBatches ++
        [⟨deviceId, b.batchId, b.payloadDigest, b.sequenceCeiling, same.outcome, some replay⟩] }
  pure (replay, t)

/-! ## Late batches -/

def closedReason (s : Status) : ReasonCode :=
  if s = .completed then .inventoryCompleted else .inventoryClosed

def quarantinedOutcome (reason : ReasonCode) (e : Event) : EventOutcome where
  eventId := e.eventId
  status := .quarantined
  reasonCode := reason
  claimedCount := 0
  conflictCount := 0
  claims := []

def lateRefusal (xs : List Expanded) : Option Conflict :=
  match xs.find? (·.rejected) with
  | some ⟨_, .error code⟩ => if code = .eventModeMismatch then none else some code
  | _ => none

/-- A batch that arrives at a closed inventory is kept aside. -/
def quarantine (task : Task) (env : Env) (deviceId : Uuid) (b : EventBatch) (xs : List Expanded)
    (t : Tables) : Except Refusal (BatchResponse × Tables) := do
  match lateRefusal xs with
  | some code => .error (.conflict code)
  | none => do
    ensure (t.status = .closed ∨ t.status = .completed) (.conflict .notAcceptingEvents)
    let response := respond task b t.resultRevision
      (b.events.map (quarantinedOutcome (closedReason t.status)))
    let t ← t.change fun r =>
      { r with
        scanBatches := r.scanBatches ++ [⟨deviceId, b.batchId, b.payloadDigest, b.sequenceCeiling,
          .quarantined, some response⟩] }
    let t ← t.change fun r =>
      { r with
        lateEvents := r.lateEvents ++ [⟨env.lateEventId, deviceId, b.batchId, b, b.payloadDigest,
          r.resultRevision, .pending, none⟩] }
    pure (response, t)

/-! ## Applying a batch -/

/-- The row of an event, before its claims are decided. -/
def scanEventRow (deviceId : Uuid) (x : Expanded) : Except Refusal ScanEvent := do
  let scannedAt ← column x.event.scannedAt
  pure ⟨x.event.eventId, deviceId, x.event.deviceSequence, x.event.operatorId, scannedAt,
    x.event.kind, if x.rejected then .rejected else .pending⟩

/-- The highest sequence of the device's batches that were not put aside. -/
def highWater (t : Tables) (deviceId : Uuid) : Option ℕ :=
  ((t.scanBatches.filter fun b => b.deviceId = deviceId ∧ b.outcome ≠ .quarantined).map
    (·.sequenceCeiling)).max?

def recordBatch (deviceId : Uuid) (b : EventBatch) (xs : List Expanded) (t : Tables) :
    Except Refusal Tables := do
  let t ← t.change fun r =>
    { r with
      scanBatches := r.scanBatches ++ [⟨deviceId, b.batchId, b.payloadDigest, b.sequenceCeiling,
        if xs.all (·.rejected) then .rejected else .applied, none⟩] }
  let rows ← xs.mapM (scanEventRow deviceId)
  t.change fun r => { r with scanEvents := r.scanEvents ++ rows }

/-- The verdict of an event that lost claims to this batch. -/
def reviseVerdict (t : Tables) (eventId : Uuid) : Except Refusal Tables :=
  let claimed := t.claimOutcomes.any fun c => c.sourceEventId == eventId && c.status == .claimed
  t.change (setVerdict eventId (if claimed then .applied else .duplicate))

def ChangedCode.row (env : Env) (deviceId : Uuid) (revision : ℕ) (c : ChangedCode) :
    Except Refusal ProgressChange := do
  let scannedAt ← column c.winner.scannedAt
  pure ⟨env.changeId c.target.codeHash, revision, .claim, c.target.codeHash,
    c.target.classification, c.winner.activeProductionDate, c.winner.eventId, deviceId, scannedAt,
    env.now⟩

/-- The changed codes go to the feed under the next revision. -/
def publish (env : Env) (deviceId : Uuid) (changed : List ChangedCode) (t : Tables) :
    Except Refusal Tables :=
  if changed = [] then .ok t
  else do
    let t ← t.change fun r => { r with resultRevision := r.resultRevision + 1 }
    let rows ← changed.mapM (·.row env deviceId t.resultRevision)
    t.change fun r => { r with progressChanges := r.progressChanges ++ rows }

/-- The events of a batch take effect. -/
def applyBatch (task : Task) (env : Env) (deviceId : Uuid) (b : EventBatch) (xs : List Expanded)
    (t : Tables) : Except Refusal (BatchResponse × Tables) := do
  let t ← recordBatch deviceId b xs t
  let s ← claimAll task env deviceId ⟨t, [], []⟩ xs
  let (outcomes, t) ← outcomesOf s.tables xs
  let t ← applyRepackMutations task env deviceId t (xs.zip outcomes)
  let t ← s.displacedEvents.foldlM reviseVerdict t
  let t ← publish env deviceId s.changed t
  let response := respond task b t.resultRevision outcomes
  let t ← t.change (setBatchResult deviceId b.batchId response)
  pure (response, t)

/-- A late event of this batch that the cabinet let in again. -/
def authorizedLateEvent (t : Tables) (deviceId : Uuid) (b : EventBatch) (lateEventId : Uuid) :
    Option LateEvent :=
  t.lateEvents.find? fun l =>
    l.deviceId = deviceId ∧ l.batchId = b.batchId ∧ l.payloadDigest = b.payloadDigest ∧
      l.resolution = .pending ∧ l.id = lateEventId ∧ l.replayAuthorizedRevision.isSome

/-- The batch is new to the ledger; `replay` names the late event it is let in again by. -/
def ingestNew (d : Digests) (task : Task) (env : Env) (deviceId : Uuid) (p : Participant)
    (b : EventBatch) (replay : Option Uuid) (t : Tables) :
    Except Refusal (BatchResponse × Tables) := do
  ensure (b.snapshotId = task.snapshotId) (.conflict .snapshotMismatch)
  ensure (replay.isSome ∨ ∀ e ∈ b.events, e.operatorId = p.operatorId)
    (.conflict .participantOperatorMismatch)
  let xs ← expandAll d task 0 b.events
  if t.status ≠ .running then quarantine task env deviceId b xs t
  else do
    ensure (replay.isSome ∨ p.leftAt = none) (.conflict .participantLeft)
    ensure (replay.isSome ∨ ∀ high ∈ highWater t deviceId, ∀ e ∈ b.events.head?,
      high < e.deviceSequence) (.conflict .eventSequenceBelowHighWater)
    ensure (¬t.scanEvents.any (fun r => b.events.any fun e =>
        r.eventId == e.eventId || r.deviceId == deviceId && r.deviceSequence == e.deviceSequence) ∧
        ¬b.events.any fun e => e.eventId ∈ env.elsewhere.eventIds)
      (.conflict .eventIdOrSequenceReused)
    let (response, t) ← applyBatch task env deviceId b xs t
    match replay with
    | none => pure (response, t)
    | some lateEventId => do
      let t ← t.change fun r =>
        { r with
          lateEvents := Table.update (fun l => l.id = lateEventId ∧ l.resolution = .pending)
            (fun l => { l with resolution := .replayed }) r.lateEvents }
      pure (response, t)

/-- A payload that may have been sent before under another id. -/
def ingestOther (d : Digests) (task : Task) (env : Env) (deviceId : Uuid) (p : Participant)
    (b : EventBatch) (replay : Option Uuid) (t : Tables) :
    Except Refusal (BatchResponse × Tables) :=
  match t.scanBatches.find? fun s =>
      s.deviceId = deviceId ∧ s.payloadDigest = b.payloadDigest with
  | some same => answerSameDigest task deviceId b same t
  | none => ingestNew d task env deviceId p b replay t

/-- `ingestBatch`; `replayRequest` is the late event that `replayAuthorizedLateEvent` names. -/
def ingestBatch (d : Digests) (task : Task) (env : Env) (deviceId : Uuid) (b : EventBatch)
    (replayRequest : Option Uuid) (t : Tables) : Except Refusal (BatchResponse × Tables) :=
  match t.participants.find? (·.deviceId = deviceId) with
  | none => .error .notFound
  | some p =>
    match t.scanBatches.find? fun s => s.deviceId = deviceId ∧ s.batchId = b.batchId with
    | none => ingestOther d task env deviceId p b none t
    | some same => do
      ensure (same.payloadDigest = b.payloadDigest) (.conflict .batchDigestConflict)
      match replayRequest.bind fun id =>
          if same.outcome = .quarantined ∧ t.status = .running then
            authorizedLateEvent t deviceId b id
          else none with
      | some late => do
        let t ← t.change fun r =>
          { r with
            scanBatches := Table.delete
              (fun s => s.deviceId = deviceId ∧ s.batchId = b.batchId ∧ s.outcome = .quarantined)
              r.scanBatches }
        ingestOther d task env deviceId p b (some late.id) t
      | none => normalizeStoredResponse task deviceId b same.result t.resultRevision t

def ingest (d : Digests) (task : Task) (env : Env) (deviceId : Uuid) (b : EventBatch) (t : Tables) :
    Except Refusal (BatchResponse × Tables) :=
  ingestBatch d task env deviceId b none t

end Markiro.InventorySync
