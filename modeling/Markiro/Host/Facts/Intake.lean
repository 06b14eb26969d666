import Markiro.Host.Facts.Shift

/-!
# The intake of facts

One record of a batch (`facts/mod.rs`: `receive`, `stored`, `apply`, `entered_shift`) and the batch
itself (`routes/facts.rs`). A record whose id has a kept receipt is answered from it; any other is
applied and its receipt kept.
-/

namespace Markiro

/-! ## The shift a record names -/

def admits (mode : ShiftMode) (kind : FactKind) : Bool :=
  match kind with
  | .scan | .shiftClosed => true
  | .boxClosed | .boxLabel | .boxException | .palletClosed | .palletLabel | .palletException =>
    decide (mode = .aggregation)
  | .unitLabel => decide (mode = .validation)

def ShiftRow.entered (s : ShiftRow) (snapshot : Snapshot) (state : ParticipantState) :
    FactShift where
  id := s.id
  number := s.number
  status := s.status
  mode := s.mode
  gtin14 := snapshot.gtin14
  issuerPrefix := snapshot.issuerPrefix
  palletsEnabled := s.palletsEnabled
  printsDuplicate := s.printsDuplicate
  myState := state
  plannedQty := s.plannedQty

/-- The shift `id` as the device entered it: `none` when there is no such shift, `some none` when
the device never entered it. -/
def enteredShift (id deviceId : String) : Host (Option (Option FactShift)) := do
  match ← select fun db => db.shifts.find? fun s => s.id = id with
  | none => pure none
  | some s =>
    match ← select (Db.participant id deviceId) with
    | none => pure (some none)
    | some p => do
      let snapshot ← Txn.orFail s.snapshot .internal
      pure (some (some (s.entered snapshot p.state)))

/-! ## One record -/

/-- What applying a record learned: its kind once the record was readable, its shift once the
device's entry in it was found, and the answer. -/
structure Applying where
  kind : Option FactKind
  shiftId : Option String
  answer : Except Reject Applied

def Applying.refused (kind : Option FactKind) (reject : Reject) : Applying :=
  ⟨kind, none, .error reject⟩

/-- The first of the record's ids that is no client's UUID. -/
def FactRecord.badId (r : FactRecord) : Option String :=
  if clientUuid r.id = false then some "id"
  else if clientUuid r.shiftId = false then some "shiftId"
  else if r.operatorId.all clientUuid = false then some "operatorId"
  else none

def handler (k : Crates) (env : Env) (ctx : Context) (kind : FactKind) (data : Json) :
    Host Applied :=
  match kind with
  | .scan => scanApply k env ctx data
  | .boxClosed => boxClosedApply k ctx data
  | .boxLabel => boxLabelApply k ctx data
  | .boxException => exceptionApply k env ctx data
  | .shiftClosed => shiftClosedApply k env ctx data
  | .palletClosed => palletClosedApply k ctx data
  | .palletLabel => palletLabelApply k ctx data
  | .palletException => palletExceptionApply k env ctx data
  | .unitLabel => unitLabelApply k env ctx data

/-- What the batch writes after a record was applied: the close of a part, or the mark of late
data. -/
def followUp (k : Crates) (ctx : Context) (kind : FactKind) (applied : Applied) : Host Unit :=
  match applied.close with
  | some close => closePart k ctx close
  | none => Txn.onlyIf (kind ≠ .shiftClosed) do
      Txn.onlyIf (ctx.shift.status = .closed) (markLate ctx)
      Txn.onlyIf (ctx.shift.myState = .closed) (markPartLate ctx)

def applyEntered (k : Crates) (env : Env) (deviceId : String) (record : FactRecord)
    (shift : FactShift) : Host Applying :=
  if admits shift.mode record.kind = false then
    pure ⟨some record.kind, some shift.id, .error (.field "shift_mode")⟩
  else do
    let ctx : Context := ⟨deviceId, record.id, record.operatorId, shift, env.timestamp k⟩
    match ← Txn.attempt (handler k env ctx record.kind record.data) with
    | .ok applied => do
      followUp k ctx record.kind applied
      pure ⟨some record.kind, some shift.id, .ok applied⟩
    | .error reject => pure ⟨some record.kind, some shift.id, .error reject⟩

/-- A record of a shift the host does not know: acknowledged and dropped when the shift was a demo
shift that was removed. -/
def applyUnknown (record : FactRecord) : Host Applying := do
  let removed ← select fun db => db.demoRemovedShifts.contains record.shiftId
  pure (if removed then ⟨some record.kind, none, .ok .accepted⟩
    else .refused (some record.kind) (.new "unknown_shift"))

/-- The checks every record passes, then its kind's handler. -/
def applyRecord (k : Crates) (env : Env) (deviceId : String) (value : Json) : Host Applying :=
  match FactRecord.read value with
  | none => pure (.refused none (.new "invalid_record"))
  | some record =>
    match record.badId with
    | some field => pure (.refused (some record.kind) (.field field))
    | none => do
      match ← enteredShift record.shiftId deviceId with
      | none => applyUnknown record
      | some none => pure (.refused (some record.kind) (.new "not_entered"))
      | some (some shift) => applyEntered k env deviceId record shift

/-- The receipt of an applied or refused record. -/
def receiptOf (id : Option String) (answer : Except Reject Applied) : FactReceipt :=
  match answer with
  | .ok applied => ⟨id, applied.outcome, none, object applied.details⟩
  | .error reject => rejected id reject

/-- The kept receipt, answered to the id it is kept under. -/
def FactReceiptRow.receipt (x : FactReceiptRow) : FactReceipt :=
  ⟨some x.recordId, x.outcome, x.code, x.details⟩

def FactReceiptRow.is (deviceId id : String) (x : FactReceiptRow) : Bool :=
  decide (x.deviceId = deviceId ∧ x.recordId = id)

/-- The kept receipt of a record. -/
def Db.storedFact (deviceId id : String) (db : Db) : Option FactReceiptRow :=
  db.factReceipts.find? (FactReceiptRow.is deviceId id)

def keepFact (row : FactReceiptRow) : Host Unit :=
  insert (fun db => ∀ x ∈ db.factReceipts, x.is row.deviceId row.recordId = false)
    fun db => { db with factReceipts := db.factReceipts ++ [row] }

def receiveNew (k : Crates) (env : Env) (deviceId : String) (value : Json) :
    Host FactReceipt := do
  let applying ← applyRecord k env deviceId value
  let receipt := receiptOf (readableId value) applying.answer
  Txn.forSome (readableId value) fun id =>
    keepFact ⟨deviceId, id, applying.kind, applying.shiftId, recordDigest k value, receipt.outcome,
      receipt.code, receipt.details, env.timestamp k⟩
  pure receipt

/-- The answer to a record whose id has a kept receipt: that receipt when the record is the same,
and a refusal that is kept nowhere when it is not. -/
def answerStored (k : Crates) (value : Json) (row : FactReceiptRow) : FactReceipt :=
  if row.digest = recordDigest k value then row.receipt
  else rejected (some row.recordId) (.new "payload_mismatch")

/-- Receive one record of a batch. -/
def receive (k : Crates) (env : Env) (deviceId : String) (value : Json) : Host FactReceipt := do
  match ← select fun db => (readableId value).bind fun id => db.storedFact deviceId id with
  | some row => pure (answerStored k value row)
  | none => receiveNew k env deviceId value

/-! ## The batch -/

/-- The most records of one batch. -/
def maxRecords : ℕ := 100

def requireLive (env : Env) (deviceId : String) : Host DeviceKind := do
  let row ← Txn.orFail (← select fun db => db.devices.find? fun d => d.id = deviceId ∧
    d.revokedAt = none) .unauthorized
  orError env.access
  pure row.kind

/-- The device is still paired and of one of the kinds. -/
def requireKinds (env : Env) (deviceId : String) (kinds : List DeviceKind) : Host DeviceKind := do
  let kind ← requireLive env deviceId
  Txn.assert (kinds.contains kind = true) .forbidden
  pure kind

/-- `POST /v1/device/facts`. A record's members have no order once the body is read. -/
def receiveFacts (k : Crates) (env : Env) (deviceId : String) (records : List Json) :
    Host (List FactReceipt) := do
  Txn.assert (1 ≤ records.length ∧ records.length ≤ maxRecords) (.validation "records")
  let _ ← requireLive env deviceId
  Txn.each (receive k env deviceId) (records.map Json.canon)

/-! ## Refusals come first -/

/-- **No fact writes before it is refused.** -/
theorem handler_clean {k : Crates} {env : Env} {ctx : Context} (kind : FactKind) (data : Json) :
    Txn.Clean (handler k env ctx kind data) := by
  cases kind with
  | scan => exact scan_clean data
  | boxClosed => exact boxClosed_clean data
  | boxLabel => exact boxLabel_clean data
  | boxException => exact exception_clean data
  | shiftClosed => exact shiftClosed_clean data
  | palletClosed => exact palletClosed_clean data
  | palletLabel => exact palletLabel_clean data
  | palletException => exact palletException_clean data
  | unitLabel => exact unitLabel_clean data

end Markiro
