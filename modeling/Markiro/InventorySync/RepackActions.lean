import Markiro.InventorySync.Ingest

/-!
# The repack actions of a batch

`applyRepackMutation` of `station-inventory-sync.service.ts`: what each of the nine actions does to
the boxes, their items and their prints, after the claims of the whole batch are decided.
-/

namespace Markiro.InventorySync

open Utf16

/-! ## Opening -/

/-- The serial of the new SSCC within a block the device holds and has not used up to it. -/
def reservedBlock (t : Tables) (deviceId : Uuid) (parsed : ParsedSscc) : Option SsccBlock :=
  (t.ssccBlocks.find? fun b =>
    b.deviceId = deviceId ∧ b.issuerPrefix = parsed.gs1Prefix ∧
      b.extensionDigit = parsed.extensionDigit ∧ b.fromSerial ≤ parsed.serial ∧
      parsed.serial ≤ b.toSerial).filter fun b => b.consumedThroughSerial.all (· < parsed.serial)

/-- `parseSscc(newSscc, 9)` where the extension digit is 0. -/
def parseNewSscc (sscc : SsccText) : Option ParsedSscc :=
  match parseSscc sscc.1 9 with
  | .ok (some parsed) => if parsed.extensionDigit = 0 then some parsed else none
  | _ => none

def openedBox (deviceId : Uuid) (e : Event) (boxId : Uuid) (oldSscc newSscc : SsccText)
    (capacity : ℕ) (productionDate : CivilDate) (openedAt now : Stamp) : RepackBox where
  id := boxId
  oldSsccContext := some oldSscc
  newSscc := newSscc
  ownerDeviceId := deviceId
  openedEventId := e.eventId
  closedEventId := none
  capacity := capacity
  productionDate := productionDate
  state := .opened
  invalidationSource := none
  printState := .notReady
  printAttemptCount := 0
  printErrorCode := none
  openedAt := openedAt
  closedAt := none
  invalidatedAt := none
  printedAt := none
  updatedAt := now

def RepackBox.openOf (deviceId : Uuid) (b : RepackBox) : Bool :=
  b.ownerDeviceId == deviceId && b.state == .opened

def SsccBlock.consume (serial : ℕ) (b : SsccBlock) : SsccBlock :=
  { b with consumedThroughSerial := some (b.consumedThroughSerial.elim serial (max · serial)) }

def openBox (env : Env) (deviceId : Uuid) (capacity : ℕ) (e : Event) (boxId : Uuid)
    (oldSscc newSscc : SsccText) (capacityNamed : ℕ) (productionDate : CivilDate) (t : Tables) :
    Except Refusal Tables := do
  ensure (e.canonicalRaw = some oldSscc.1 ∧
    e.normalizedIdentity = encode "old_box:" ++ oldSscc.1) (.conflict .eventIdentityInvalid)
  ensure (capacityNamed = capacity ∧ some productionDate = e.activeProductionDate)
    (.conflict .repackFrozenFactMismatch)
  match parseNewSscc newSscc with
  | none => .error (.conflict .repackSsccNotReserved)
  | some parsed =>
    match reservedBlock t deviceId parsed with
    | none => .error (.conflict .repackSsccNotReserved)
    | some block => do
      ensure (¬t.boxes.any (·.openOf deviceId)) (.conflict .repackOpenBoxExists)
      ensure (boxId ∉ env.elsewhere.boxIds ∧ newSscc ∉ env.elsewhere.newSsccs) .constraintViolated
      let openedAt ← column e.scannedAt
      let t ← t.change fun r =>
        { r with
          boxes := r.boxes ++ [openedBox deviceId e boxId oldSscc newSscc capacity productionDate
            openedAt env.now] }
      t.change fun r =>
        { r with
          ssccBlocks := Table.update (·.id = block.id) (·.consume parsed.serial) r.ssccBlocks }

/-! ## What an owned box takes -/

def activeItems (r : Rows) (boxId : Uuid) : List RepackItem :=
  r.items.filter fun i => i.active && i.boxId == boxId

def changeBox (boxId : Uuid) (f : RepackBox → RepackBox) (r : Rows) : Rows :=
  { r with boxes := Table.update (·.id = boxId) f r.boxes }

/-- A box whose scan conflict is resolved is open again and holds nothing. -/
def RepackBox.reopened (resolvedAt : Stamp) (b : RepackBox) : RepackBox :=
  { b with
    state := .opened
    invalidationSource := none
    printState := .notReady
    printAttemptCount := 0
    printErrorCode := none
    closedEventId := none
    closedAt := none
    invalidatedAt := none
    printedAt := none
    updatedAt := resolvedAt }

def resolveConflict (box : RepackBox) (changedAt : IsoDatetime) (t : Tables) :
    Except Refusal Tables := do
  ensure (box.state = .invalidated ∧ box.invalidationSource = some .claimLost ∧
      box.printAttemptCount = 0 ∧ box.printedAt = none)
    (.conflict .repackConflictResolutionInvalid)
  let resolvedAt ← column changedAt
  let t ← (if activeItems t.toRows box.id = [] then .ok t
    else t.change (removeItems (·.boxId = box.id) resolvedAt))
  t.change (changeBox box.id (·.reopened resolvedAt))

def RepackBox.afterPrint (kind : PrintKind) (o : PrintOutcome) (completedAt : Stamp)
    (b : RepackBox) : RepackBox :=
  { b with
    printState := match kind, o.result with
      | .initial, .failed => .failed
      | _, _ => .printed
    printAttemptCount := o.attemptNumber
    printErrorCode := if o.result = .failed then o.errorCode else none
    printedAt := if kind = .initial ∧ o.result = .printed then some completedAt else b.printedAt
    updatedAt := completedAt }

def PrintState.admits (kind : PrintKind) (s : PrintState) : Bool :=
  match kind with
  | .initial => s == .pending || s == .failed
  | .reprint => s == .printed

def RepackBox.printable (t : Tables) (b : RepackBox) : Bool :=
  let items := activeItems t.toRows b.id
  items != [] && items.length ≤ b.capacity && items.all (·.productionDate == b.productionDate)

def recordPrint (env : Env) (capacity : ℕ) (e : Event) (box : RepackBox) (kind : PrintKind)
    (o : PrintOutcome) (t : Tables) : Except Refusal Tables := do
  ensure (box.state = .closed) (.conflict .repackBoxNotClosed)
  ensure (box.capacity = capacity ∧ some box.productionDate = e.activeProductionDate)
    (.conflict .repackFrozenFactMismatch)
  ensure (o.sscc = box.newSscc) (.conflict .repackPrintSsccMismatch)
  ensure (o.attemptedAt.ms ≤ o.completedAt.ms) (.conflict .repackPrintTimeInvalid)
  ensure (o.attemptNumber = box.printAttemptCount + 1) (.conflict .repackPrintAttemptSequenceInvalid)
  ensure (box.printState.admits kind) (.conflict .repackPrintStateInvalid)
  ensure (box.printable t) (.conflict .repackPrintCompositionInvalid)
  ensure (o.attemptId ∉ t.printAttempts.map (·.id) ∧ o.attemptId ∉ env.elsewhere.attemptIds)
    (.conflict .repackPrintAttemptReused)
  let attemptedAt ← column o.attemptedAt
  let completedAt ← column o.completedAt
  let t ← t.change fun r =>
    { r with
      printAttempts := r.printAttempts ++ [⟨o.attemptId, box.id, e.eventId, kind, o.attemptNumber,
        o.result, o.errorCode, attemptedAt, completedAt⟩] }
  t.change (changeBox box.id (·.afterPrint kind o completedAt))

def ownedReattach (deviceId : Uuid) (codeHash : Hash) (o : EventOutcome) : Bool :=
  o.status = .duplicate &&
    match o.claims with
    | [c] => c.codeHash = codeHash && c.winner.deviceId = deviceId
    | _ => false

def RepackBox.claimLost (now : Stamp) (b : RepackBox) : RepackBox :=
  { b with
    state := .invalidated
    invalidationSource := some .claimLost
    invalidatedAt := some now
    updatedAt := now }

def RepackBox.closedBy (e : Event) (closedAt now : Stamp) (b : RepackBox) : RepackBox :=
  { b with
    state := .closed
    printState := .pending
    closedEventId := some e.eventId
    closedAt := some closedAt
    updatedAt := now }

/-- The result row an item is added for. -/
def memberResult (t : Tables) (deviceId : Uuid) (e : Event) (codeHash : Hash) (reattach : Bool) :
    Option CodeResult :=
  t.codeResults.find? fun r =>
    r.codeHash = codeHash ∧ r.classification = .expected ∧
      if reattach then r.winningDeviceId = deviceId else r.firstAcceptedEventId = e.eventId

/-- The item goes in after the others; the one that fills the box closes it. -/
def insertItem (task : Task) (env : Env) (e : Event) (box : RepackBox) (codeHash : Hash)
    (resultId itemId : Uuid) (position : ℕ) (closeBox : Bool) (t : Tables) :
    Except Refusal Tables := do
  let next := (activeItems t.toRows box.id).length + 1
  ensure (next ≤ box.capacity ∧ position = next ∧ closeBox = decide (next = box.capacity))
    (.conflict .repackCapacityMismatch)
  ensure (itemId ∉ env.elsewhere.itemIds) .constraintViolated
  let addedAt ← column e.scannedAt
  let t ← t.change fun r =>
    { r with
      items := r.items ++ [⟨itemId, box.id, resultId, e.eventId, next,
        decide ((task.code codeHash).bind (·.parentSscc) ≠ box.oldSsccContext),
        box.productionDate, some box.productionDate, addedAt, none⟩] }
  if next = box.capacity then t.change (changeBox box.id (·.closedBy e addedAt env.now))
  else .ok t

def addItem (task : Task) (env : Env) (deviceId : Uuid) (e : Event) (o : EventOutcome)
    (box : RepackBox) (itemId : Uuid) (position : ℕ) (closeBox : Bool) (t : Tables) :
    Except Refusal Tables :=
  match e.codeHash with
  | none => .error (.conflict .repackItemInvalid)
  | some codeHash =>
    let reattach := ownedReattach deviceId codeHash o
    if o.status ≠ .applied ∧ !reattach then t.change (changeBox box.id (·.claimLost env.now))
    else
      match memberResult t deviceId e codeHash reattach with
      | none => .error (.conflict .repackItemIneligible)
      | some result => do
        ensure (¬(reattach ∧ t.items.any fun i => i.active && i.resultId == result.id))
          (.conflict .repackItemAlreadyMember)
        let t ← retireDisplacedRepackItems env.now result.id t
        insertItem task env e box codeHash result.id itemId position closeBox t

def lastItem (t : Tables) (boxId : Uuid) : Option RepackItem :=
  ((activeItems t.toRows boxId).insertionSort fun i j => j.position ≤ i.position).head?

def removeLast (box : RepackBox) (itemId : Uuid) (changedAt : IsoDatetime) (t : Tables) :
    Except Refusal Tables := do
  ensure ((lastItem t box.id).any (·.id = itemId)) (.conflict .repackLastItemMismatch)
  let removedAt ← column changedAt
  t.change (removeItems (·.id = itemId) removedAt)

def clearBox (box : RepackBox) (changedAt : IsoDatetime) (t : Tables) : Except Refusal Tables := do
  let removedAt ← column changedAt
  t.change (removeItems (·.boxId = box.id) removedAt)

def changeDate (box : RepackBox) (productionDate : CivilDate) (changedAt : IsoDatetime)
    (t : Tables) : Except Refusal Tables := do
  ensure (activeItems t.toRows box.id = []) (.conflict .repackDateFrozen)
  let updatedAt ← column changedAt
  t.change (changeBox box.id fun b =>
    { b with productionDate := productionDate, updatedAt := updatedAt })

def closeIncomplete (env : Env) (e : Event) (box : RepackBox) (changedAt : IsoDatetime)
    (t : Tables) : Except Refusal Tables := do
  let count := (activeItems t.toRows box.id).length
  ensure (count ≠ 0 ∧ count < box.capacity) (.conflict .repackIncompleteCloseInvalid)
  let closedAt ← column changedAt
  t.change (changeBox box.id (·.closedBy e closedAt env.now))

def RepackAction.isChangeDate : RepackAction → Bool
  | .changeDate .. => true
  | _ => false

def changeOpenBox (task : Task) (env : Env) (deviceId : Uuid) (capacity : ℕ) (e : Event)
    (o : EventOutcome) (box : RepackBox) (action : RepackAction) (t : Tables) :
    Except Refusal Tables := do
  ensure (box.state = .opened) (.conflict .repackBoxNotOpen)
  ensure (box.capacity = capacity ∧
      (action.isChangeDate = true ∨ some box.productionDate = e.activeProductionDate))
    (.conflict .repackFrozenFactMismatch)
  match action with
  | .addItem itemId position closeBox =>
    addItem task env deviceId e o box itemId position closeBox t
  | .removeLast itemId changedAt => removeLast box itemId changedAt t
  | .clearBox changedAt => clearBox box changedAt t
  | .changeDate productionDate changedAt => changeDate box productionDate changedAt t
  | .closeIncomplete changedAt => closeIncomplete env e box changedAt t
  | .openBox .. | .resolveConflict .. | .printOutcome .. => .ok t

def changeOwnedBox (task : Task) (env : Env) (deviceId : Uuid) (capacity : ℕ) (e : Event)
    (o : EventOutcome) (m : RepackMutation) (t : Tables) : Except Refusal Tables :=
  match t.boxes.find? fun b => b.id = m.boxId ∧ b.ownerDeviceId = deviceId with
  | none => .error (.conflict .repackBoxNotOwned)
  | some box =>
    match m.action with
    | .resolveConflict changedAt => resolveConflict box changedAt t
    | .printOutcome kind outcome => recordPrint env capacity e box kind outcome t
    | action => changeOpenBox task env deviceId capacity e o box action t

def applyRepackMutation (task : Task) (env : Env) (deviceId : Uuid) (e : Event) (o : EventOutcome)
    (t : Tables) : Except Refusal Tables :=
  match e.repack with
  | none => .ok t
  | some m =>
    match task.mode, task.capacity with
    | .repack, some capacity =>
      match m.action with
      | .openBox oldSscc newSscc capacityNamed productionDate =>
        openBox env deviceId capacity e m.boxId oldSscc newSscc capacityNamed productionDate t
      | _ => changeOwnedBox task env deviceId capacity e o m t
    | _, _ => .error (.conflict .repackConfigurationInvalid)

def applyRepackMutations (task : Task) (env : Env) (deviceId : Uuid) :
    Tables → List (Expanded × EventOutcome) → Except Refusal Tables
  | t, [] => .ok t
  | t, (x, o) :: rest => do
    let t ← (if x.rejected then .ok t else applyRepackMutation task env deviceId x.event o t)
    applyRepackMutations task env deviceId t rest

end Markiro.InventorySync
