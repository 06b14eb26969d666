import Markiro.InventorySync.Service

/-!
# The cabinet's corrections

`correct` of `inventory-corrections.service.ts` and of `inventory-correction-batches.service.ts`,
and the closing and reopening of `inventory-close.service.ts`.
-/

namespace Markiro.InventorySync

open Utf16

/-- The digests of the requests and the ids derived from their keys. -/
structure CorrectionIds (Request BatchRequest : Type) where
  correction : Units → Uuid
  batch : Units → Uuid
  child : Uuid → Uuid → Uuid
  requestDigest : Request → Hash
  batchDigest : BatchRequest → Hash

/-! ## One correction -/

inductive CorrectionTarget where
  | voidScan (eventId : Uuid)
  | restoreScan (eventId : Uuid)
  | changeDate (codeResultId : Uuid) (observedProductionDate : CivilDate)
  | removeItem (codeResultId : Uuid)
  | invalidateBox (repackBoxId : Uuid)
  | reprint (repackBoxId : Uuid)
  deriving DecidableEq

def CorrectionTarget.action : CorrectionTarget → CorrectionAction
  | .voidScan _ => .voidScan
  | .restoreScan _ => .restoreScan
  | .changeDate .. => .changeDate
  | .removeItem _ => .removeItem
  | .invalidateBox _ => .invalidateBox
  | .reprint _ => .reprint

structure CorrectionRequest where
  target : CorrectionTarget
  reason : Units
  expectedResultRevision : ℕ
  idempotencyKey : Units
  deriving DecidableEq

/-- What a prepared correction names, when it takes effect, and what it writes. -/
structure Prepared where
  eventId : Option Uuid
  codeResultId : Option Uuid
  repackBoxId : Option Uuid
  effectAt : Stamp
  apply : Tables → Except Refusal Tables

def CodeResult.changeRow (changeId : Hash → Uuid) (revision : ℕ) (changedAt : Stamp)
    (r : CodeResult) : ProgressChange where
  id := changeId r.codeHash
  resultRevision := revision
  kind := .correction
  codeHash := r.codeHash
  classification := r.classification
  observedProductionDate := r.observedProductionDate
  winningEventId := r.firstAcceptedEventId
  winningDeviceId := r.winningDeviceId
  winningScannedAt := r.winningScannedAt
  changedAt := changedAt

def correctResult (changeId : Hash → Uuid) (revision : ℕ) (changedAt : Stamp) (result : CodeResult)
    (f : CodeResult → CodeResult) (t : Tables) : Except Refusal Tables := do
  let t ← t.change fun r =>
    { r with codeResults := Table.update (·.id = result.id) f r.codeResults }
  t.change fun r =>
    { r with
      progressChanges := r.progressChanges ++ [(f result).changeRow changeId revision changedAt] }

def CodeResult.reclassified (c : CodeClassification) (changedAt : Stamp) (r : CodeResult) :
    CodeResult :=
  { r with classification := c, updatedAt := changedAt }

def CodeResult.redated (d : CivilDate) (changedAt : Stamp) (r : CodeResult) : CodeResult :=
  { r with observedProductionDate := some d, updatedAt := changedAt }

def RepackBox.invalidatedByAdmin (changedAt : Stamp) (b : RepackBox) : RepackBox :=
  { b with
    state := .invalidated
    invalidationSource := some .admin
    invalidatedAt := some changedAt
    updatedAt := changedAt }

/-- Voiding a code, or giving it back the classification it came with. -/
def prepareScan (changeId : Hash → Uuid) (revision : ℕ) (changedAt : Stamp) (t : Tables)
    (eventId : Uuid) (void : Bool) : Except Refusal Prepared :=
  match t.codeResults.find? (·.firstAcceptedEventId = eventId) with
  | none => .error .notFound
  | some result => do
    ensure (decide (result.classification = .voided) ≠ void) (.conflict .correctionStateConflict)
    let classification := if void then .voided else result.originClassification
    pure ⟨some eventId, some result.id, none, changedAt,
      correctResult changeId revision changedAt result (·.reclassified classification changedAt)⟩

def prepareDate (changeId : Hash → Uuid) (revision : ℕ) (changedAt : Stamp) (t : Tables)
    (resultId : Uuid) (date : CivilDate) : Except Refusal Prepared :=
  match t.codeResults.find? (·.id = resultId) with
  | none => .error .notFound
  | some result => do
    ensure (¬t.items.any fun i => i.active && i.resultId == result.id)
      (.conflict .correctionActiveBoxConflict)
    pure ⟨none, some result.id, none, changedAt,
      correctResult changeId revision changedAt result (·.redated date changedAt)⟩

def prepareRemoval (changedAt : Stamp) (t : Tables) (resultId : Uuid) : Except Refusal Prepared :=
  match t.items.find? fun i => i.active && i.resultId == resultId with
  | none => .error .notFound
  | some item =>
    match t.boxes.find? (·.id = item.boxId) with
    | none => .error .notFound
    | some box => do
      ensure (box.state = .opened) (.conflict .correctionStateConflict)
      let removedAt := if item.addedAt ≤ changedAt then changedAt else item.addedAt
      pure ⟨none, some resultId, some item.boxId, removedAt,
        fun t => t.change (removeItems (·.id = item.id) removedAt)⟩

def prepareInvalidation (changedAt : Stamp) (t : Tables) (boxId : Uuid) : Except Refusal Prepared :=
  match t.boxes.find? (·.id = boxId) with
  | none => .error .notFound
  | some box => do
    ensure (box.state ≠ .invalidated) (.conflict .correctionStateConflict)
    pure ⟨none, none, some box.id, changedAt,
      fun t => t.change (changeBox box.id (·.invalidatedByAdmin changedAt))⟩

/-- A reprint is only recorded; the station prints it. -/
def prepareReprint (changedAt : Stamp) (t : Tables) (boxId : Uuid) : Except Refusal Prepared :=
  match t.boxes.find? (·.id = boxId) with
  | none => .error .notFound
  | some box => do
    ensure (box.state = .closed ∧ box.printState = .printed) (.conflict .correctionStateConflict)
    pure ⟨none, none, some box.id, changedAt, .ok⟩

def prepareMutation (changeId : Hash → Uuid) (revision : ℕ) (changedAt : Stamp) (t : Tables) :
    CorrectionTarget → Except Refusal Prepared
  | .voidScan eventId => prepareScan changeId revision changedAt t eventId true
  | .restoreScan eventId => prepareScan changeId revision changedAt t eventId false
  | .changeDate resultId date => prepareDate changeId revision changedAt t resultId date
  | .removeItem resultId => prepareRemoval changedAt t resultId
  | .invalidateBox boxId => prepareInvalidation changedAt t boxId
  | .reprint boxId => prepareReprint changedAt t boxId

def Prepared.row (p : Prepared) (id : Uuid) (batchId : Option Uuid) (action : CorrectionAction)
    (requestDigest : Hash) (revision : ℕ) (createdAt : Stamp) : Correction where
  id := id
  batchId := batchId
  action := action
  requestDigest := requestDigest
  targetEventId := p.eventId
  targetCodeResultId := p.codeResultId
  targetRepackBoxId := p.repackBoxId
  resultRevision := revision
  effectAt := p.effectAt
  createdAt := createdAt

section

variable {Request : Type}

/-- The inventory is running and the request was made at its revision. -/
def checkRevision (t : Tables) (expected : ℕ) : Except Refusal Unit := do
  ensure (t.status = .running) (.conflict .correctionNotRunning)
  ensure (t.resultRevision = expected) (.conflict .correctionStaleRevision)

/-- `InventoryCorrectionsService.correct`. -/
def correct (ids : CorrectionIds CorrectionRequest Request) (changeId : Hash → Uuid)
    (changedAt : Stamp) (input : CorrectionRequest) (t : Tables) :
    Except Refusal (Correction × Tables) :=
  let id := ids.correction input.idempotencyKey
  match t.corrections.find? (·.id = id) with
  | some existing => do
    ensure (existing.requestDigest = ids.requestDigest input)
      (.conflict .correctionIdempotencyMismatch)
    pure (existing, t)
  | none => do
    checkRevision t input.expectedResultRevision
    let revision := t.resultRevision + 1
    let prepared ← prepareMutation changeId revision changedAt t input.target
    let correction := prepared.row id none input.target.action (ids.requestDigest input) revision
      changedAt
    let t ← t.change fun r => { r with corrections := r.corrections ++ [correction] }
    let t ← prepared.apply t
    let t ← t.change fun r => { r with resultRevision := revision }
    pure (correction, t)

/-! ## A batch of corrections -/

/-- The events a batch names: by their ids, or by a filter on the rows of the evidence less the ones
it excludes. -/
inductive Selection where
  | explicit (eventIds : List Uuid)
  | allMatching (filter : Rows → ScanEvent → Bool) (excluded : List Uuid)

inductive BatchAction where
  | voidScan
  | changeDate (observedProductionDate : CivilDate)
  deriving DecidableEq

def BatchAction.action : BatchAction → CorrectionAction
  | .voidScan => .voidScan
  | .changeDate _ => .changeDate

structure CorrectionBatchRequest where
  action : BatchAction
  selection : Selection
  reason : Units
  expectedResultRevision : ℕ
  idempotencyKey : Units

/-- `resolveInventoryEvidenceEvents` in the order of the locks; a repack action is no evidence. -/
def evidenceEvents (t : Tables) (which : ScanEvent → Bool) : Except Refusal (List ScanEvent) :=
  let events := (t.scanEvents.filter which).insertionSort fun a b => a.eventId ≤ b.eventId
  if events.any (·.kind = .repackAction) then .error .error else .ok events

def resolveSelection (t : Tables) : Selection → Except Refusal (List ScanEvent)
  | .explicit eventIds => do
    let events ← evidenceEvents t (·.eventId ∈ eventIds)
    ensure (events.length = eventIds.length) (.conflict .correctionBatchSelectionChanged)
    pure events
  | .allMatching filter excluded =>
    evidenceEvents t fun e => filter t.toRows e && !excluded.contains e.eventId

/-- The rows that the events have won. -/
def lockResults (t : Tables) (events : List ScanEvent) : List CodeResult :=
  (t.codeResults.filter fun r => r.firstAcceptedEventId ∈ events.map (·.eventId)).insertionSort
    fun a b => a.id ≤ b.id

structure TargetResult where
  eventId : Uuid
  before : CodeResult
  deriving DecidableEq

def BatchAction.after (a : BatchAction) (changedAt : Stamp) (r : CodeResult) : CodeResult :=
  match a with
  | .voidScan => r.reclassified .voided changedAt
  | .changeDate date => r.redated date changedAt

/-- The rows of one event that the batch changes. -/
def eligible (a : BatchAction) (results : List CodeResult) (e : ScanEvent) : List CodeResult :=
  results.filter fun r => r.firstAcceptedEventId == e.eventId &&
    (a != .voidScan || r.classification != .voided)

def checkDates (t : Tables) (results : List CodeResult) : BatchAction → Except Refusal Unit
  | .voidScan => .ok ()
  | .changeDate _ => do
    ensure (¬results.any (·.classification = .voided)) (.conflict .correctionBatchSelectionChanged)
    ensure (¬t.items.any fun i => i.active && decide (i.resultId ∈ results.map (·.id)))
      (.conflict .correctionActiveBoxConflict)

def prepareTargets (t : Tables) (a : BatchAction) (events : List ScanEvent)
    (results : List CodeResult) : Except Refusal (List TargetResult) := do
  checkDates t results a
  let targets ← events.mapM fun e =>
    if eligible a results e = [] then .error (.conflict .correctionBatchSelectionChanged)
    else .ok ((eligible a results e).map fun r => TargetResult.mk e.eventId r)
  pure targets.flatten

def TargetResult.correction (g : TargetResult) (id batchId : Uuid) (action : CorrectionAction)
    (requestDigest : Hash) (revision : ℕ) (changedAt : Stamp) : Correction where
  id := id
  batchId := some batchId
  action := action
  requestDigest := requestDigest
  targetEventId := some g.eventId
  targetCodeResultId := some g.before.id
  targetRepackBoxId := none
  resultRevision := revision
  effectAt := changedAt
  createdAt := changedAt

def writeChunk (ids : CorrectionIds Request CorrectionBatchRequest) (changeId : Hash → Uuid)
    (changedAt : Stamp) (batchId : Uuid) (requestDigest : Hash) (revision : ℕ) (a : BatchAction)
    (t : Tables) (chunk : List TargetResult) : Except Refusal Tables := do
  let t ← t.change fun r =>
    { r with
      corrections := r.corrections ++ chunk.map fun g =>
        g.correction (ids.child batchId g.before.id) batchId a.action requestDigest revision
          changedAt }
  let t ← t.change fun r =>
    { r with
      codeResults := Table.update (fun c => decide (c.id ∈ chunk.map (·.before.id)))
        (a.after changedAt) r.codeResults }
  t.change fun r =>
    { r with
      progressChanges := r.progressChanges ++ chunk.map fun g =>
        (a.after changedAt g.before).changeRow changeId revision changedAt }

def batchTargets (input : CorrectionBatchRequest) (t : Tables) :
    Except Refusal (List ScanEvent × List TargetResult) := do
  let events ← resolveSelection t input.selection
  ensure (events ≠ []) (.conflict .correctionBatchEmpty)
  let targets ← prepareTargets t input.action events (lockResults t events)
  ensure (targets ≠ []) (.conflict .correctionBatchEmpty)
  pure (events, targets)

def correctBatch (ids : CorrectionIds Request CorrectionBatchRequest) (changeId : Hash → Uuid)
    (changedAt : Stamp) (input : CorrectionBatchRequest) (t : Tables) :
    Except Refusal (CorrectionBatch × Tables) :=
  let batchId := ids.batch input.idempotencyKey
  let requestDigest := ids.batchDigest input
  match t.correctionBatches.find? (·.id = batchId) with
  | some existing => do
    ensure (existing.requestDigest = requestDigest) (.conflict .correctionIdempotencyMismatch)
    pure (existing, t)
  | none => do
    checkRevision t input.expectedResultRevision
    let (events, targets) ← batchTargets input t
    let revision := t.resultRevision + 1
    let batch : CorrectionBatch := ⟨batchId, input.action.action, requestDigest, events.length,
      targets.length, revision, changedAt⟩
    let t ← t.change fun r => { r with correctionBatches := r.correctionBatches ++ [batch] }
    let t ← (targets.toChunks 500).foldlM
      (writeChunk ids changeId changedAt batchId requestDigest revision input.action) t
    let t ← t.change fun r => { r with resultRevision := revision }
    pure (batch, t)

end

/-! ## Closing and reopening -/

def close (blocked emergency : Bool) (t : Tables) : Except Refusal Tables := do
  ensure (t.status ≠ .completed) (.conflict .completed)
  ensure (t.status = .running) (.conflict .closeRequiresRunning)
  ensure (emergency ∨ !blocked) (.conflict .closeBlocked)
  let t ← t.change fun r => { r with status := .closed }
  t.change fun r =>
    { r with
      lateEvents := Table.update (·.resolution = .pending)
        (fun l => { l with replayAuthorizedRevision := none }) r.lateEvents }

def reopen (t : Tables) : Except Refusal Tables := do
  ensure (t.status ≠ .completed) (.conflict .completed)
  ensure (t.status = .closed) (.conflict .reopenRequiresClosed)
  let revision := t.resultRevision + 1
  let t ← t.change fun r => { r with status := .running, resultRevision := revision }
  t.change fun r =>
    { r with
      lateEvents := Table.update (·.resolution = .pending)
        (fun l => { l with replayAuthorizedRevision := some revision }) r.lateEvents }

/-- `complete`; `ready` says whether no late event is pending and the documents are there. -/
def complete (ready : Bool) (t : Tables) : Except Refusal Tables := do
  ensure (t.status ≠ .completed) (.conflict .completed)
  ensure (t.status = .closed ∧ ready) (.conflict .closeBlocked)
  t.change fun r => { r with status := .completed }

end Markiro.InventorySync
