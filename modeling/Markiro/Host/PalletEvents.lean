import Markiro.Host.Facts.Intake

/-!
# Pallet events

A handheld's warehouse pallets outside any shift (`pallet_events.rs`, `routes/pallet_events.rs`):
opened, boxes added and removed, closed, its label checked, taken apart. One record, one receipt,
as for a fact; a record without a readable id writes nothing.
-/

namespace Markiro

/-! ## Context -/

/-- What every event's handler knows of its record. -/
structure EventContext where
  deviceId : String
  recordId : String
  operatorId : Option String
  receivedAt : String

def maxRecordBytes : ℕ := 16 * 1024

def uuidField (field id : String) : Except Reject Unit := ensure (clientUuid id) (.field field)

def instantField (k : Crates) (field text : String) : Except Reject Unit :=
  ensure (deviceInstant k text).isSome (.field field)

def ownPallet (ctx : EventContext) (id : String) : Host WarehousePalletRow := do
  Txn.orRefuse (← select fun db => db.warehousePallets.find? fun x =>
    x.id = id ∧ x.deviceId = ctx.deviceId) (.new "pallet_unknown")

/-! ## Opened -/

def WarehousePalletOpenedData.check (k : Crates) (d : WarehousePalletOpenedData) :
    Except Reject Unit := do
  uuidField "data.palletId" d.palletId
  uuidField "data.productId" d.productId
  instantField k "data.openedAt" d.openedAt

def EventContext.newPallet (ctx : EventContext) (d : WarehousePalletOpenedData)
    (gtin14 : String) : WarehousePalletRow where
  id := d.palletId
  deviceId := ctx.deviceId
  productId := d.productId
  gtin14 := gtin14
  openedAt := d.openedAt
  closedAt := none
  sscc := none
  blockId := none
  serial := none
  boxCountReported := none
  operatorId := ctx.operatorId
  receivedAt := ctx.receivedAt
  disassembledAt := none
  disassemblyReasonCode := none
  disassemblyReasonText := none
  disassemblyOperatorId := none
  source := .device
  createdByUserId := none
  creationRequestId := none
  creationHash := none

/-- The boxes on a warehouse pallet; a box that was taken apart is not on it any more. -/
def Db.boxesOn (palletId : String) (db : Db) : ℕ :=
  (db.stays ×ˢ db.boxes).countP fun x => decide (x.1.palletId = palletId) && x.1.live &&
    decide (x.2.sscc = some x.1.boxSscc) && x.2.disassembledAt.isNone

/-- A pallet that was left empty goes, with the stays on it. -/
def Db.dropDraft (palletId : String) (db : Db) : Db :=
  { db with
    stays := Table.delete (fun w => w.palletId = palletId) db.stays
    warehousePallets := Table.delete (fun x => x.id = palletId) db.warehousePallets }

/-- `feature_disabled`, when the license closes pallets; any other error fails the batch. -/
def requirePalletsFeature (env : Env) : Host Unit :=
  match env.palletsFeature with
  | .ok _ => pure ()
  | .error e => if e.isConflict then Txn.refuse (.new "feature_disabled") else Txn.fail e

/-- A new pallet of the device, in the place of a draft it left empty. -/
def openWarehousePallet (env : Env) (ctx : EventContext) (d : WarehousePalletOpenedData) :
    Host Applied := do
  requireReady
  let product ← Txn.orRefuse (← select fun db => db.products.find? fun x => x.id = d.productId)
    (.field "data.productId")
  requirePalletsFeature env
  let draft ← select fun db => db.warehousePallets.find? fun x =>
    x.deviceId = ctx.deviceId ∧ x.closedAt = none
  let empty ← select fun db => draft.all fun x => decide (db.boxesOn x.id = 0)
  Txn.require (empty = true) (.new "pallet_state")
  Txn.forSome draft fun x => execute (Db.dropDraft x.id)
  insert (fun db => ∀ x ∈ db.warehousePallets, x.id ≠ d.palletId)
    fun db => { db with
      warehousePallets := db.warehousePallets ++ [ctx.newPallet d product.gtin14] }
  pure .accepted

def opened (k : Crates) (env : Env) (ctx : EventContext) (data : Json) : Host Applied := do
  let d ← Txn.orRefuse (WarehousePalletOpenedData.read data) (.field "data")
  Txn.check (d.check k)
  Txn.require ((← select fun db => db.cloud.reservedIdentity d.palletId) = false)
    (.field "data.palletId")
  match ← select fun db => db.warehousePallets.find? fun x => x.id = d.palletId with
  | some known => do
    -- Sent again under another record id: nothing to write.
    Txn.require (known.deviceId = ctx.deviceId) (.field "data.palletId")
    Txn.require (known.productId = d.productId) (.field "data.productId")
    pure .accepted
  | none => openWarehousePallet env ctx d

/-! ## Boxes -/

def onPallet (sscc : Option String) (palletId : String) : Reject :=
  ⟨"box_on_pallet", some (.obj [("palletId", .str palletId),
    ("palletSscc", Json.ofOption Json.str sscc)])⟩

/-- A closed box with the product of its shift and the production pallet it was put on. -/
structure PlacedBox where
  box : BoxRow
  productId : String
  pallet : Option PalletRow

def Db.palletOf (x : BoxRow) (db : Db) : Option PalletRow :=
  x.palletId.bind fun id => db.pallets.find? fun p => p.id = id

def Db.placedBox (sscc : String) (db : Db) : Option PlacedBox := do
  let box ← db.boxes.find? fun x => x.sscc = some sscc
  let shift ← db.shifts.find? fun s => s.id = box.shiftId
  some ⟨box, shift.productId, db.palletOf box⟩

def Db.warehousePalletOf (sscc : String) (db : Db) : Option WarehousePalletRow :=
  db.stays.findSome? fun w =>
    if w.boxSscc = sscc ∧ w.live then db.warehousePallets.find? fun x => x.id = w.palletId
    else none

/-- The box fits the pallet and stands on no production pallet: a taken-apart pallet frees its
boxes. -/
def PlacedBox.check (b : PlacedBox) (productId : String) : Except Reject Unit := do
  ensure b.box.disassembledAt.isNone (.new "box_not_closed")
  ensure (b.productId = productId) (.new "product_mismatch")
  match b.pallet with
  | some p => ensure p.disassembledAt.isSome (onPallet p.sscc p.id)
  | none => .ok ()

def addStay (ctx : EventContext) (d : PalletBoxData) : Host Unit := do
  insert (fun db => ∀ w ∈ db.stays, w.live = true → w.boxSscc ≠ d.boxSscc)
    fun db => { db with
      stays := db.stays ++
        [⟨d.palletId, d.boxSscc, d.at, none, ctx.operatorId, ctx.recordId, ctx.deviceId⟩] }
  execute (Db.touchSscc d.boxSscc ctx.receivedAt)

def boxAdded (k : Crates) (ctx : EventContext) (data : Json) : Host Applied := do
  let d ← Txn.orRefuse (PalletBoxData.read "addedAt" data) (.field "data")
  Txn.check (uuidField "data.palletId" d.palletId)
  Txn.check (instantField k "data.addedAt" d.at)
  Txn.require (digits 18 d.boxSscc = true) (.field "data.boxSscc")
  let pallet ← ownPallet ctx d.palletId
  Txn.require (pallet.closedAt = none) (.new "pallet_not_open")
  let found ← Txn.orRefuse (← select (Db.placedBox d.boxSscc)) (.new "box_not_found")
  Txn.check (found.check pallet.productId)
  match ← select (Db.warehousePalletOf d.boxSscc) with
  | some other => do
    -- Scanned twice onto the same pallet (under another record id): nothing to write.
    Txn.require (other.id = d.palletId) (onPallet other.sscc other.id)
    pure .accepted
  | none => do
    addStay ctx d
    pure .accepted

def Db.endStay (palletId boxSscc removedAt : String) (db : Db) : Db :=
  { db with
    stays := Table.update (fun w => w.palletId = palletId ∧ w.boxSscc = boxSscc ∧ w.live)
      (fun w => { w with removedAt := some removedAt }) db.stays }

/-- `pallet_box_removed`: a box that is not on the pallet is where the handheld wants it. -/
def boxRemoved (k : Crates) (ctx : EventContext) (data : Json) : Host Applied := do
  let d ← Txn.orRefuse (PalletBoxData.read "removedAt" data) (.field "data")
  Txn.check (uuidField "data.palletId" d.palletId)
  Txn.check (instantField k "data.removedAt" d.at)
  let pallet ← ownPallet ctx d.palletId
  Txn.require (pallet.closedAt = none) (.new "pallet_not_open")
  execute fun db =>
    (db.endStay d.palletId d.boxSscc d.at).touchSscc d.boxSscc ctx.receivedAt
  pure .accepted

/-! ## Closed -/

def PalletClosedFact.closeWarehousePallet (c : PalletClosedFact) (ctx : EventContext)
    (x : WarehousePalletRow) : WarehousePalletRow :=
  { x with
    openedAt := c.openedAt
    closedAt := some c.closedAt
    sscc := some c.sscc
    blockId := some c.blockId
    serial := some c.serial
    boxCountReported := some c.boxCount
    operatorId := ctx.operatorId }

/-- The prefix the block was issued with; the organisation's may have changed since. -/
def Db.palletBlockPrefix (deviceId blockId : String) (db : Db) : Option String :=
  (db.blocks.find? fun x => x.id = blockId ∧ x.deviceId = deviceId ∧ x.extension = 1).map
    (·.issuerPrefix)

def closeWarehousePallet (ctx : EventContext) (c : PalletClosedFact) : Host Applied := do
  let issuer ← Txn.orRefuse (← select (Db.palletBlockPrefix ctx.deviceId c.blockId))
    (.new "sscc_not_issued")
  let isIssued ← issuedTo ctx.deviceId issuer c.blockId 1 c.serial
  Txn.require (namesSerial c.sscc 1 issuer c.serial = true ∧ isIssued = true)
    (.new "sscc_not_issued")
  let taken ← select fun db => db.palletTaken c.sscc c.blockId c.serial ||
    db.warehousePalletTaken c.sscc c.blockId c.serial (some c.palletId) ||
    db.cloud.reservedSscc c.sscc
  Txn.require (taken = false) (.new "sscc_taken")
  let counted ← select (Db.boxesOn c.palletId)
  Txn.require (counted = c.boxCount)
    ⟨"pallet_count_mismatch", some (.obj [("counted", Json.ofNat counted)])⟩
  insert (fun db => ∀ x ∈ db.warehousePallets, x.id ≠ c.palletId → x.sscc ≠ some c.sscc ∧
      ¬(x.blockId = some c.blockId ∧ x.serial = some c.serial))
    fun db => { db with
      warehousePallets := Table.update (fun x => x.id = c.palletId) (c.closeWarehousePallet ctx)
        db.warehousePallets }
  execute (Db.touchWarehousePallet c.palletId ctx.receivedAt)
  execute (Db.consume c.blockId c.serial)
  let _ ← batchRevision
  pure .accepted

def closed (k : Crates) (ctx : EventContext) (data : Json) : Host Applied := do
  let c ← Txn.orRefuse (PalletClosedFact.read data) (.field "data")
  Txn.check (c.check k)
  Txn.require (c.serial < i64Bound) (.field "data.serial")
  let pallet ← ownPallet ctx c.palletId
  if pallet.closedAt.isSome then do
    -- The same close sent again under another id changes nothing.
    Txn.require (pallet.sscc = some c.sscc) (.new "pallet_already_closed")
    pure .accepted
  else closeWarehousePallet ctx c

/-! ## Label and disassembly -/

def label (k : Crates) (ctx : EventContext) (data : Json) : Host Applied := do
  let l ← Txn.orRefuse (LabelFact.read "palletId" data) (.field "data")
  Txn.check (uuidField "data.palletId" l.subjectId)
  Txn.check (instantField k "data.at" l.at)
  let pallet ← ownPallet ctx l.subjectId
  Txn.require (pallet.closedAt.isSome = true) (.new "pallet_state")
  pure .accepted

/-- The fields of a disassembly; the reason's words, trimmed. -/
def WarehousePalletDisassembledData.check (k : Crates) (d : WarehousePalletDisassembledData) :
    Except Reject (Option String) := do
  uuidField "data.palletId" d.palletId
  ensure (disassembleReasons.contains d.reasonCode) (.field "data.reasonCode")
  let words ← reasonWords (some d.reasonCode) d.reasonText
  instantField k "data.disassembledAt" d.disassembledAt
  .ok words

def WarehousePalletDisassembledData.takeApart (d : WarehousePalletDisassembledData)
    (ctx : EventContext) (words : Option String) (x : WarehousePalletRow) : WarehousePalletRow :=
  { x with
    disassembledAt := some d.disassembledAt
    disassemblyReasonCode := some d.reasonCode
    disassemblyReasonText := words
    disassemblyOperatorId := ctx.operatorId }

def Db.endStays (palletId removedAt : String) (db : Db) : Db :=
  { db with
    stays := Table.update (fun w => w.palletId = palletId ∧ w.live)
      (fun w => { w with removedAt := some removedAt }) db.stays }

/-- A closed pallet comes apart: its boxes are touched while they still stand on it. -/
def takeApart (ctx : EventContext) (d : WarehousePalletDisassembledData)
    (words : Option String) : Host Unit := do
  execute fun db => { db with
    warehousePallets := Table.update (fun x => x.id = d.palletId ∧ x.disassembledAt = none)
      (d.takeApart ctx words) db.warehousePallets }
  execute (Db.touchWarehousePallet d.palletId ctx.receivedAt)
  execute (Db.endStays d.palletId d.disassembledAt)
  let _ ← batchRevision
  pure ()

/-- `warehouse_pallet_disassembled`: the pallet keeps its SSCC; one already taken apart changes
nothing. -/
def disassembled (k : Crates) (ctx : EventContext) (data : Json) : Host Applied := do
  let d ← Txn.orRefuse (WarehousePalletDisassembledData.read data) (.field "data")
  let words ← Txn.check (d.check k)
  let pallet ← ownPallet ctx d.palletId
  Txn.require (pallet.closedAt.isSome = true) (.new "pallet_state")
  let stands ← select fun db => db.warehousePallets.any fun x =>
    x.id = d.palletId ∧ x.disassembledAt = none
  Txn.onlyIf (stands = true) (takeApart ctx d words)
  pure .accepted

/-! ## One record -/

def eventHandler (k : Crates) (env : Env) (ctx : EventContext) (kind : PalletEventKind)
    (data : Json) : Host Applied :=
  match kind with
  | .warehousePalletOpened => opened k env ctx data
  | .palletBoxAdded => boxAdded k ctx data
  | .palletBoxRemoved => boxRemoved k ctx data
  | .warehousePalletClosed => closed k ctx data
  | .warehousePalletLabel => label k ctx data
  | .warehousePalletDisassembled => disassembled k ctx data

structure ApplyingEvent where
  kind : Option PalletEventKind
  answer : Except Reject Applied

/-- The checks every event passes, then its kind's handler. -/
def applyEvent (k : Crates) (env : Env) (deviceId : String) (value : Json) :
    Host ApplyingEvent :=
  if maxRecordBytes < byteLen value.text then pure ⟨none, .error (.field "record")⟩
  else
    match PalletEventRecord.read value with
    | none => pure ⟨none, .error (.new "invalid_record")⟩
    | some record =>
      if record.operatorId.all clientUuid = false then
        pure ⟨some record.kind, .error (.field "operatorId")⟩
      else do
        let answer ← Txn.attempt (eventHandler k env
          ⟨deviceId, record.id, record.operatorId, env.timestamp k⟩ record.kind record.data)
        pure ⟨some record.kind, answer⟩

/-- The kept receipt, answered to the id it is kept under. -/
def EventReceiptRow.receipt (x : EventReceiptRow) : FactReceipt :=
  ⟨some x.recordId, x.outcome, x.code, x.details⟩

def EventReceiptRow.is (deviceId id : String) (x : EventReceiptRow) : Bool :=
  decide (x.deviceId = deviceId ∧ x.recordId = id)

def Db.storedEvent (deviceId id : String) (db : Db) : Option EventReceiptRow :=
  db.eventReceipts.find? (EventReceiptRow.is deviceId id)

def keepEvent (row : EventReceiptRow) : Host Unit :=
  insert (fun db => ∀ x ∈ db.eventReceipts, x.is row.deviceId row.recordId = false)
    fun db => { db with eventReceipts := db.eventReceipts ++ [row] }

def receiveNewEvent (k : Crates) (env : Env) (deviceId id : String) (value : Json) :
    Host FactReceipt := do
  let applying ← applyEvent k env deviceId value
  let receipt := receiptOf (some id) applying.answer
  keepEvent ⟨deviceId, id, applying.kind, recordDigest k value, receipt.outcome, receipt.code,
    receipt.details, env.timestamp k⟩
  pure receipt

def answerStoredEvent (k : Crates) (value : Json) (row : EventReceiptRow) : FactReceipt :=
  if row.digest = recordDigest k value then row.receipt
  else rejected (some row.recordId) (.new "payload_mismatch")

def receiveEvent (k : Crates) (env : Env) (deviceId : String) (value : Json) :
    Host FactReceipt :=
  match readableId value with
  | none => pure (rejected none (.new "invalid_record"))
  | some id => do
    match ← select fun db => db.storedEvent deviceId id with
    | some row => pure (answerStoredEvent k value row)
    | none => receiveNewEvent k env deviceId id value

/-- `POST /v1/device/pallet-events`: only a handheld sends pallet events. -/
def receiveEvents (k : Crates) (env : Env) (deviceId : String) (records : List Json) :
    Host (List FactReceipt) := do
  Txn.assert (1 ≤ records.length ∧ records.length ≤ maxRecords) (.validation "records")
  let _ ← requireKinds env deviceId [.handheld]
  Txn.each (receiveEvent k env deviceId) (records.map Json.canon)

/-! ## Refusals come first -/

section Clean

open Txn

variable {k : Crates} {env : Env} {ctx : EventContext}

theorem silent_ownPallet {id : String} : Silent (ownPallet ctx id) :=
  Silent.bind silent_select fun _ => silent_orRefuse _ _

theorem silent_requireReady : Silent requireReady :=
  Silent.bind silent_select fun _ => silent_assert _ _

theorem silent_requirePalletsFeature : Silent (requirePalletsFeature env) := by
  unfold requirePalletsFeature
  split
  · exact silent_pure _
  · split
    · exact silent_refuse _
    · exact silent_fail _

theorem openWarehousePallet_clean (d : WarehousePalletOpenedData) :
    Clean (openWarehousePallet env ctx d) := by
  refine Clean.bind silent_requireReady fun _ => Clean.bind silent_select fun _ => ?_
  refine Clean.bind (silent_orRefuse _ _) fun product => ?_
  refine Clean.bind silent_requirePalletsFeature fun _ => Clean.bind silent_select fun draft => ?_
  refine Clean.bind silent_select fun _ => Clean.bind (silent_require _ _) fun _ => ?_
  have hdrop : NeverRefuses (Txn.forSome draft fun x => execute (Db.dropDraft x.id)) :=
    NeverRefuses.forSome fun _ => neverRefuses_execute
  exact (hdrop.bind fun _ => neverRefuses_insert.bind fun _ => neverRefuses_pure _).clean

theorem opened_clean (data : Json) : Clean (opened k env ctx data) := by
  refine Clean.bind (silent_orRefuse _ _) fun d => Clean.bind (silent_check _) fun _ => ?_
  refine Clean.bind silent_select fun _ => Clean.bind (silent_require _ _) fun _ => ?_
  refine Clean.bind silent_select fun known => ?_
  cases known with
  | some known =>
    exact Clean.bind (silent_require _ _) fun _ => Clean.bind (silent_require _ _) fun _ =>
      (silent_pure _).clean
  | none => exact openWarehousePallet_clean d

theorem boxAdded_clean (data : Json) : Clean (boxAdded k ctx data) := by
  refine Clean.bind (silent_orRefuse _ _) fun d => Clean.bind (silent_check _) fun _ => ?_
  refine Clean.bind (silent_check _) fun _ => Clean.bind (silent_require _ _) fun _ => ?_
  refine Clean.bind silent_ownPallet fun _ => Clean.bind (silent_require _ _) fun _ => ?_
  refine Clean.bind silent_select fun _ => Clean.bind (silent_orRefuse _ _) fun _ => ?_
  refine Clean.bind (silent_check _) fun _ => Clean.bind silent_select fun other => ?_
  cases other with
  | some other => exact Clean.bind (silent_require _ _) fun _ => (silent_pure _).clean
  | none =>
    have hadd : NeverRefuses (addStay ctx d) :=
      neverRefuses_insert.bind fun _ => neverRefuses_execute
    exact (hadd.bind fun _ => neverRefuses_pure _).clean

theorem boxRemoved_clean (data : Json) : Clean (boxRemoved k ctx data) := by
  refine Clean.bind (silent_orRefuse _ _) fun d => Clean.bind (silent_check _) fun _ => ?_
  refine Clean.bind (silent_check _) fun _ => Clean.bind silent_ownPallet fun _ => ?_
  refine Clean.bind (silent_require _ _) fun _ => ?_
  exact (neverRefuses_execute.bind fun _ => neverRefuses_pure _).clean

theorem closeWarehousePallet_clean (c : PalletClosedFact) :
    Clean (closeWarehousePallet ctx c) := by
  refine Clean.bind silent_select fun _ => Clean.bind (silent_orRefuse _ _) fun issuer => ?_
  refine Clean.bind silent_issuedTo fun _ => Clean.bind (silent_require _ _) fun _ => ?_
  refine Clean.bind silent_select fun _ => Clean.bind (silent_require _ _) fun _ => ?_
  refine Clean.bind silent_select fun counted => Clean.bind (silent_require _ _) fun _ => ?_
  refine NeverRefuses.clean (neverRefuses_insert.bind fun _ => neverRefuses_execute.bind fun _ => ?_)
  refine neverRefuses_execute.bind fun _ => neverRefuses_batchRevision.bind fun _ => ?_
  exact neverRefuses_pure _

theorem closed_clean (data : Json) : Clean (closed k ctx data) := by
  refine Clean.bind (silent_orRefuse _ _) fun c => Clean.bind (silent_check _) fun _ => ?_
  refine Clean.bind (silent_require _ _) fun _ => Clean.bind silent_ownPallet fun pallet => ?_
  show Clean (if pallet.closedAt.isSome then _ else _)
  split
  · exact Clean.bind (silent_require _ _) fun _ => (silent_pure _).clean
  · exact closeWarehousePallet_clean c

theorem label_clean (data : Json) : Clean (label k ctx data) := by
  refine Clean.bind (silent_orRefuse _ _) fun l => Clean.bind (silent_check _) fun _ => ?_
  refine Clean.bind (silent_check _) fun _ => Clean.bind silent_ownPallet fun _ => ?_
  exact Clean.bind (silent_require _ _) fun _ => (silent_pure _).clean

theorem disassembled_clean (data : Json) : Clean (disassembled k ctx data) := by
  refine Clean.bind (silent_orRefuse _ _) fun d => Clean.bind (silent_check _) fun words => ?_
  refine Clean.bind silent_ownPallet fun _ => Clean.bind (silent_require _ _) fun _ => ?_
  refine Clean.bind silent_select fun _ => ?_
  have htake : NeverRefuses (takeApart ctx d words) :=
    neverRefuses_execute.bind fun _ => neverRefuses_execute.bind fun _ =>
      neverRefuses_execute.bind fun _ => neverRefuses_batchRevision.bind fun _ =>
        neverRefuses_pure _
  exact (htake.onlyIf.bind fun _ => neverRefuses_pure _).clean

/-- **No event writes before it is refused.** -/
theorem eventHandler_clean (kind : PalletEventKind) (data : Json) :
    Clean (eventHandler k env ctx kind data) := by
  cases kind with
  | warehousePalletOpened => exact opened_clean data
  | palletBoxAdded => exact boxAdded_clean data
  | palletBoxRemoved => exact boxRemoved_clean data
  | warehousePalletClosed => exact closed_clean data
  | warehousePalletLabel => exact label_clean data
  | warehousePalletDisassembled => exact disassembled_clean data

end Clean

end Markiro
