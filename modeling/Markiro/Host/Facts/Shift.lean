import Markiro.Host.Facts.Packs

/-!
# A shift and its participants

A device's part in a shift (`shift_participants.rs`), what a shift and its devices add up to
(`shift_totals.rs`), the facts that close a part (`shift_closed.rs`), the unit labels of a validation
shift (`unit_label.rs`), and what the batch writes for them (`facts/mod.rs`: `close_part`,
`mark_late`, `mark_part_late`).
-/

namespace Markiro

open Calendar

/-! ## Decisions -/

/-- What an entry into an open shift does for a device. -/
inductive EntryDecision where
  | reenter | readClosed | rejoin | join | busy
  | lineFull (maxStations active : ℕ)
  deriving DecidableEq

/-- The entry of a device whose state in the shift is `current`, while `activeOthers` other live
devices hold a slot of a line that allows `maxStations`. -/
def decideEntry (current : Option ParticipantState) (activeOthers maxStations : ℕ)
    (multiCapable : Bool) : EntryDecision :=
  match current with
  | some .active => .reenter
  | some .closed => .readClosed
  | none =>
    if multiCapable = false then .busy
    else if maxStations ≤ activeOthers then .lineFull maxStations activeOthers
    else .join
  | some .left =>
    if maxStations ≤ activeOthers then .lineFull maxStations activeOthers else .rejoin

/-- What a participant's close does to an active shift. -/
inductive CloseDecision where
  | closePart (closesShift : Bool)
  | alreadyClosed
  deriving DecidableEq

def decideClose (current : ParticipantState) (openOthers : ℕ) : CloseDecision :=
  match current with
  | .closed => .alreadyClosed
  | .active | .left => .closePart (decide (openOthers = 0))

def leaves (current : ParticipantState) : Bool := decide (current = .active)

/-- Whether a participant's close needs a reason code. -/
inductive ReasonNeed where
  | none | required | shared
  deriving DecidableEq

def reasonNeed (closesShift : Bool) (participantsEver : ℕ) (factPlanned : Option ℕ)
    (ownActual : ℕ) (hostPlanned : Option ℕ) (shiftAccepted : ℕ) : ReasonNeed :=
  if closesShift = false then .none
  else if participantsEver ≤ 1 then
    if closeReasonRequired factPlanned ownActual then .required else .none
  else
    match hostPlanned with
    | some planned => if planned ≠ shiftAccepted then .shared else .none
    | none => .none

/-! ## Reads -/

def ParticipantRow.is (shiftId deviceId : String) (p : ParticipantRow) : Bool :=
  decide (p.shiftId = shiftId ∧ p.deviceId = deviceId)

/-- The part is not closed. -/
def ParticipantRow.isOpen (p : ParticipantRow) : Bool :=
  decide (p.state = .active ∨ p.state = .left)

def Db.participant (shiftId deviceId : String) (db : Db) : Option ParticipantRow :=
  db.participants.find? (ParticipantRow.is shiftId deviceId)

/-- How many other devices hold a slot: active participants whose device is not revoked. -/
def Db.activeOthers (shiftId deviceId : String) (db : Db) : ℕ :=
  db.participants.countP fun p => p.shiftId = shiftId ∧ p.deviceId ≠ deviceId ∧
    p.state = .active ∧ db.devices.any fun d => d.id = p.deviceId ∧ d.revokedAt = none

/-- How many other participants have not closed their part. -/
def Db.openOthers (shiftId deviceId : String) (db : Db) : ℕ :=
  db.participants.countP fun p => p.shiftId = shiftId ∧ p.deviceId ≠ deviceId ∧ p.isOpen

/-- Every participant the shift ever had. -/
def Db.countAll (shiftId : String) (db : Db) : ℕ :=
  db.participants.countP fun p => p.shiftId = shiftId

/-! ## Writers of a participant's state -/

def updateParticipant (shiftId deviceId : String) (expected : ParticipantRow → Bool)
    (f : ParticipantRow → ParticipantRow) : Host Unit := do
  let rows ← select fun db => db.participants.countP fun p => p.is shiftId deviceId && expected p
  Txn.assert (rows = 1) .internal
  execute fun db => { db with
    participants := Table.update (fun p => p.is shiftId deviceId && expected p) f db.participants }

/-- A new participant takes a slot. -/
def join (shiftId deviceId now : String) (rev : ℕ) : Host Unit :=
  insert (fun db => ∀ p ∈ db.participants, p.is shiftId deviceId = false)
    fun db => { db with
      participants := db.participants ++ [{
        shiftId, deviceId, firstEnteredAt := now, lastEnteredAt := now, state := .active,
        joinedAt := some now, joinedRev := some rev, leftAt := none, closedAt := none,
        closedByKind := none, closedActualQty := none, closedReason := none, lateDataAt := none }] }

/-- A participant that left takes a slot again. -/
def rejoin (shiftId deviceId now : String) (rev : ℕ) : Host Unit :=
  updateParticipant shiftId deviceId (fun p => p.state = .left) fun p =>
    { p with
      state := .active, leftAt := none, joinedAt := some now, joinedRev := some rev,
      lastEnteredAt := now }

def touchParticipant (shiftId deviceId now : String) : Host Unit :=
  updateParticipant shiftId deviceId (fun p => p.state = .active)
    fun p => { p with lastEnteredAt := now }

/-- An active participant pauses and frees its slot. -/
def leave (shiftId deviceId now : String) : Host Unit :=
  updateParticipant shiftId deviceId (fun p => p.state = .active)
    fun p => { p with state := .left, leftAt := some now }

/-- A participant's own close of its part. -/
def closeByDevice (shiftId deviceId closedAt : String) (actualQty : ℕ)
    (reasonCode : Option String) : Host Unit :=
  updateParticipant shiftId deviceId ParticipantRow.isOpen fun p =>
    { p with
      state := .closed, leftAt := none, closedAt := some closedAt, closedByKind := some .device,
      closedActualQty := some actualQty, closedReason := reasonCode }

/-- The part as the office's close of the whole shift leaves it. -/
def ParticipantRow.closeByOffice (now : String) (p : ParticipantRow) : ParticipantRow :=
  { p with
    state := .closed, leftAt := none, closedAt := some now, closedByKind := some .officeUser }

/-- The office's close closes every part still open. -/
def Db.closeOpenByOffice (shiftId now : String) (db : Db) : Db :=
  { db with
    participants := Table.update (fun p => p.shiftId = shiftId ∧ p.isOpen)
      (ParticipantRow.closeByOffice now) db.participants }

/-- A closed part that no late fact marked yet. -/
def ParticipantRow.unmarked (p : ParticipantRow) : Bool :=
  decide (p.state = .closed ∧ p.lateDataAt = none)

def Db.stampRevision (shiftId : String) (rev : ℕ) (db : Db) : Db :=
  { db with shifts := Table.update (fun s => s.id = shiftId) (fun s => { s with rev }) db.shifts }

/-! ## Totals -/

structure Totals where
  accepted : ℕ
  boxesClosed : ℕ
  pallets : ℕ
  deriving DecidableEq

def Db.liveItems (p : BoxRow → Bool) (db : Db) : ℕ :=
  (db.boxItems ×ˢ db.boxes).countP fun x => decide (x.2.id = x.1.boxId) && p x.2 && x.1.live

def BoxRow.counts (x : BoxRow) : Bool := x.closedAt.isSome && x.disassembledAt.isNone

def PalletRow.counts (x : PalletRow) : Bool := x.closedAt.isSome && x.disassembledAt.isNone

/-- The totals of the boxes, pallets and boxless owners that belong to a shift of `mode` and that
the three conditions select. -/
def Db.totals (mode : ShiftMode) (box : BoxRow → Bool) (pallet : PalletRow → Bool)
    (owner : CodeOwnerRow → Bool) (db : Db) : Totals where
  accepted :=
    match mode with
    | .validation => db.codeOwners.countP fun o => owner o && o.boxId.isNone
    | .aggregation => db.liveItems box
  boxesClosed := db.boxes.countP fun x => box x && x.counts
  pallets := db.pallets.countP fun x => pallet x && x.counts

def Db.shiftTotals (shiftId : String) (db : Db) : Option Totals :=
  (db.shifts.find? fun s => s.id = shiftId).map fun s =>
    db.totals s.mode (fun x => x.shiftId = s.id) (fun x => x.shiftId = s.id)
      (fun o => o.shiftId = s.id)

def byEntry (parts : List ParticipantRow) : List ParticipantRow :=
  parts.insertionSort fun p q => p.firstEnteredAt < q.firstEnteredAt ∨
    p.firstEnteredAt = q.firstEnteredAt ∧ p.deviceId ≤ q.deviceId

/-- `BY_DEVICE`: the same per participant, first entry first. -/
def Db.byDevice (shiftId : String) (db : Db) : List (String × Totals) :=
  (byEntry (db.participants.filter fun p => p.shiftId = shiftId)).filterMap fun p =>
    (db.shifts.find? fun s => s.id = shiftId).map fun s =>
      (p.deviceId, db.totals s.mode (fun x => x.shiftId = p.shiftId ∧ x.deviceId = p.deviceId)
        (fun x => x.shiftId = p.shiftId ∧ x.deviceId = p.deviceId)
        (fun o => o.shiftId = p.shiftId ∧ o.deviceId = p.deviceId))

/-! ## Unit labels -/

def UnitLabelEvent.errorCodes : UnitLabelEvent → List String
  | .failedBeforeSend => ["printer_unconfigured", "printer_changed"]
  | .deliveryUnknown => ["transport_failed", "persistence_failed", "interrupted"]
  | .verificationRejected => ["invalid", "mismatch"]
  | .prepared | .sending | .sent | .verified | .verificationSkipped => []

def UnitLabelFact.isOperatorDecision (f : UnitLabelFact) : Bool :=
  decide (f.event = .verificationSkipped ∨ f.event = .prepared ∧ 1 < f.attemptNo)

def UnitLabelFact.check (k : Crates) (f : UnitLabelFact) (operatorId : Option String) :
    Except Reject Unit := do
  ensure (clientUuid f.jobId) (.field "data.jobId")
  ensure (isSha256Hex f.codeHash) (.field "data.codeHash")
  ensure (1 ≤ f.attemptNo) (.field "data.attemptNo")
  ensure (f.reason.isSome = decide (f.event = .prepared ∧ 1 < f.attemptNo)) (.field "data.reason")
  ensure (match f.errorCode with
    | none => f.event.errorCodes.isEmpty
    | some code => f.event.errorCodes.contains code) (.field "data.errorCode")
  ensure (isSha256Hex f.payloadDigest) (.field "data.payloadDigest")
  ensure (isSha256Hex f.bytesDigest) (.field "data.bytesDigest")
  ensure ((deviceInstant k f.at).isSome) (.field "data.at")
  ensure (!f.isOperatorDecision || operatorId.isSome) (.field "operatorId")

def UnitLabelFact.sameJob (f : UnitLabelFact) (ctx : Context) (known : UnitLabelEventRow) :
    Except Reject Unit := do
  ensure (known.deviceId = ctx.deviceId) (.field "data.jobId")
  ensure (known.codeHash = f.codeHash ∧ known.payloadDigest = f.payloadDigest)
    (.field "data.codeHash")
  ensure (known.bytesDigest = f.bytesDigest) (.field "data.bytesDigest")

def UnitLabelFact.row (f : UnitLabelFact) (ctx : Context) (id : String) : UnitLabelEventRow where
  id := id
  recordId := ctx.recordId
  deviceId := ctx.deviceId
  shiftId := ctx.shift.id
  operatorId := ctx.operatorId
  jobId := f.jobId
  codeHash := f.codeHash
  attemptNo := f.attemptNo
  event := f.event
  reason := f.reason
  errorCode := f.errorCode
  payloadDigest := f.payloadDigest
  bytesDigest := f.bytesDigest
  «at» := f.at
  receivedAt := ctx.receivedAt

def unitLabelApply (k : Crates) (env : Env) (ctx : Context) (data : Json) : Host Applied := do
  let f ← Txn.orRefuse (UnitLabelFact.read data) (.field "data")
  Txn.check (f.check k ctx.operatorId)
  Txn.require (ctx.shift.printsDuplicate = true) (.field "validationPrint")
  let scanned ← select fun db => db.scans.any fun x => x.codeHash = some f.codeHash ∧
    x.shiftId = ctx.shift.id ∧ x.deviceId = ctx.deviceId ∧ x.verdict = .ok
  Txn.require (scanned = true) (.new "subject_unknown")
  let known ← select fun db => db.unitLabelEvents.find? fun x =>
    x.shiftId = ctx.shift.id ∧ x.jobId = f.jobId
  Txn.forSome known fun known => Txn.check (f.sameJob ctx known)
  let id ← newUuid env
  insert (fun db => ∀ x ∈ db.unitLabelEvents, x.id ≠ id ∧
      ¬(x.deviceId = ctx.deviceId ∧ x.recordId = ctx.recordId))
    fun db => { db with unitLabelEvents := db.unitLabelEvents ++ [f.row ctx id] }
  pure .accepted

/-! ## A shift's close -/

inductive Closing where
  | shiftClosed
  | partClosedBefore
  | part (closesShift : Bool)
  deriving DecidableEq

def Db.closing (ctx : Context) (db : Db) : Closing :=
  if ctx.shift.status ≠ .active then .shiftClosed
  else
    match decideClose ctx.shift.myState (db.openOthers ctx.shift.id ctx.deviceId) with
    | .alreadyClosed => .partClosedBefore
    | .closePart closesShift => .part closesShift

def ShiftClosedFact.check (c : ShiftClosedFact) (ctx : Context) : Except Reject Unit := do
  ensure (c.plannedQtySnapshot.all fun planned => 1 ≤ planned ∧ planned ≤ maxPlannedQty)
    (.field "data.plannedQtySnapshot")
  ensure (ctx.shift.mode = .validation → c.closedBoxCount = 0) (.field "data.closedBoxCount")
  ensure (c.reasonCode.all shiftCloseReasons.contains) (.field "data.reasonCode")

/-- The accepted units a close is judged by: the whole shift's, when the close closes a shared
shift. -/
def closingAccepted (ctx : Context) (closing : Closing) (ever : ℕ) : Host ℕ :=
  match closing with
  | .part true =>
    if 1 < ever then do
      let totals ← Txn.orFail (← select (Db.shiftTotals ctx.shift.id)) .notFound
      pure totals.accepted
    else pure 0
  | _ => pure 0

/-- Whether the close needs a reason. -/
def ShiftClosedFact.need (c : ShiftClosedFact) (ctx : Context) (closing : Closing)
    (ever accepted : ℕ) : ReasonNeed :=
  match closing with
  | .part closesShift =>
    reasonNeed closesShift ever c.plannedQtySnapshot c.actualQty ctx.shift.plannedQty accepted
  | .shiftClosed | .partClosedBefore =>
    reasonNeed true ever c.plannedQtySnapshot c.actualQty none 0

def ShiftClosedFact.row (c : ShiftClosedFact) (ctx : Context) (closing : Closing) (id : String) :
    ShiftCloseEventRow where
  id := id
  recordId := ctx.recordId
  shiftId := ctx.shift.id
  deviceId := ctx.deviceId
  operatorId := ctx.operatorId
  plannedQtySnapshot := c.plannedQtySnapshot
  actualQty := c.actualQty
  closedBoxCount := c.closedBoxCount
  reasonCode := c.reasonCode
  closedAt := c.closedAt
  alreadyClosed :=
    match closing with
    | .part _ => false
    | .shiftClosed | .partClosedBefore => true
  receivedAt := ctx.receivedAt

/-- The details of the `shift.close` row; a one-device shift has no more than its own. -/
def ShiftClosedFact.auditDetails (c : ShiftClosedFact) (ever accepted : ℕ)
    (reasonMissing : Bool) : Json :=
  .obj ((if 1 < ever then [("acceptedTotal", Json.ofNat accepted)] else []) ++
    [("actualQty", Json.ofNat c.actualQty), ("closedBoxCount", Json.ofNat c.closedBoxCount)] ++
    (if 1 < ever then [("participants", Json.ofNat ever)] else []) ++
    [("plannedQty", Json.ofOption Json.ofNat c.plannedQtySnapshot),
      ("reasonCode", Json.ofOption Json.str c.reasonCode)] ++
    if 1 < ever then [("reasonMissing", Json.bool reasonMissing)] else [])

/-- The close the batch writes for a part that closes. -/
def ShiftClosedFact.closeShift (k : Crates) (c : ShiftClosedFact) (ctx : Context)
    (moment : DateTime) (closesShift : Bool) (ever accepted : ℕ) (reasonMissing : Bool) :
    CloseShift where
  closedAt := formatTimestamp k moment
  reasonCode := c.reasonCode
  actualQty := c.actualQty
  closesShift := closesShift
  reasonMissing := reasonMissing
  partAudit := .obj [("actualQty", Json.ofNat c.actualQty),
    ("closedBoxCount", Json.ofNat c.closedBoxCount), ("number", .str ctx.shift.number),
    ("reasonCode", Json.ofOption Json.str c.reasonCode)]
  audit := c.auditDetails ever accepted reasonMissing

def shiftClosedApply (k : Crates) (env : Env) (ctx : Context) (data : Json) : Host Applied := do
  let c ← Txn.orRefuse (ShiftClosedFact.read data) (.field "data")
  let moment ← Txn.orRefuse (deviceInstant k c.closedAt) (.field "data.closedAt")
  Txn.check (c.check ctx)
  let ever ← select (Db.countAll ctx.shift.id)
  let closing ← select (Db.closing ctx)
  let accepted ← closingAccepted ctx closing ever
  let need := c.need ctx closing ever accepted
  Txn.require (need = .required → c.reasonCode.isSome = true) (.field "data.reasonCode")
  let id ← newUuid env
  insert (fun db => ∀ x ∈ db.shiftCloseEvents, x.id ≠ id ∧
      ¬(x.deviceId = ctx.deviceId ∧ x.recordId = ctx.recordId))
    fun db => { db with shiftCloseEvents := db.shiftCloseEvents ++ [c.row ctx closing id] }
  match closing with
  | .shiftClosed => pure ⟨.accepted, some (.obj [("alreadyClosed", .bool true)]), none⟩
  | .partClosedBefore => pure ⟨.accepted, some (.obj [("partClosed", .bool true)]), none⟩
  | .part closesShift =>
    let reasonMissing := decide (need = .shared ∧ c.reasonCode = none)
    let details :=
      if closesShift = false then some (.obj [("partClosed", .bool true)])
      else if reasonMissing then some (.obj [("reasonMissing", .bool true)])
      else none
    pure ⟨.accepted, details,
      some (c.closeShift k ctx moment closesShift ever accepted reasonMissing)⟩

/-! ## What the batch writes for a close and for late facts -/

/-- The later of two moments. -/
def later (a b : DateTime) : DateTime := if b.nanos < a.nanos then a else b

/-- The latest of a moment and of stored timestamps; none when one of them cannot be read. -/
def latestOf (k : Crates) (latest : DateTime) : List String → Option DateTime
  | [] => some latest
  | part :: rest => (parseTimestamp k part).bind fun d => latestOf k (later latest d) rest

def Db.deviceCloses (shiftId : String) (db : Db) : List String :=
  (db.participants.filter fun p => p.shiftId = shiftId ∧ p.closedByKind = some .device).filterMap
    (·.closedAt)

def ShiftRow.closeByDevice (close : CloseShift) (deviceId closedAt : String) (rev : ℕ)
    (s : ShiftRow) : ShiftRow :=
  { s with
    status := .closed, closedAt := some closedAt, closedByKind := some .device,
    closedBy := some deviceId, closeReasonCode := close.reasonCode,
    closeReasonMissing := close.reasonMissing, rev }

/-- A participant's close of its part, and of the shift with it when nobody else stays open: then
at the latest instant of the device-closed parts. -/
def closePart (k : Crates) (ctx : Context) (close : CloseShift) : Host Unit := do
  let rev ← batchRevision
  closeByDevice ctx.shift.id ctx.deviceId close.closedAt close.actualQty close.reasonCode
  if close.closesShift = false then do
    execute (Db.stampRevision ctx.shift.id rev)
    record ⟨ctx.receivedAt, .device ctx.deviceId, "shift.part_closed", some "shift",
      some ctx.shift.id, true, close.partAudit⟩
  else do
    let parts ← select (Db.deviceCloses ctx.shift.id)
    let first ← Txn.orFail (parseTimestamp k close.closedAt) .internal
    let latest ← Txn.orFail (latestOf k first parts) .internal
    execute fun db => { db with
      shifts := Table.update (fun s => s.id = ctx.shift.id)
        (ShiftRow.closeByDevice close ctx.deviceId (formatTimestamp k latest) rev) db.shifts }
    record ⟨ctx.receivedAt, .device ctx.deviceId, "shift.close", some "shift",
      some ctx.shift.id, true, close.audit⟩

/-- The first fact accepted for a closed shift marks it late, once. -/
def markLate (ctx : Context) : Host Unit := do
  let unmarked ← select fun db => db.shifts.any fun s => s.id = ctx.shift.id ∧ s.lateDataAt = none
  Txn.onlyIf (unmarked = true) do
    let rev ← batchRevision
    execute fun db => { db with
      shifts := Table.update (fun s => s.id = ctx.shift.id)
        (fun s => { s with lateDataAt := some ctx.receivedAt, rev }) db.shifts }

/-- The first fact of a closed part marks the part late, once. -/
def markPartLate (ctx : Context) : Host Unit := do
  let marked ← select fun db => db.participants.countP fun p =>
    p.is ctx.shift.id ctx.deviceId && p.unmarked
  execute fun db => { db with
    participants := Table.update (fun p => p.is ctx.shift.id ctx.deviceId && p.unmarked)
      (fun p => { p with lateDataAt := some ctx.receivedAt }) db.participants }
  Txn.onlyIf (marked = 1) do
    let rev ← batchRevision
    execute (Db.stampRevision ctx.shift.id rev)

/-! ## Refusals come first -/

section Clean

open Txn

variable {k : Crates} {env : Env} {ctx : Context}

theorem unitLabel_clean (data : Json) : Clean (unitLabelApply k env ctx data) := by
  refine Clean.bind (silent_orRefuse _ _) fun f => Clean.bind (silent_check _) fun _ => ?_
  refine Clean.bind (silent_require _ _) fun _ => Clean.bind silent_select fun _ => ?_
  refine Clean.bind (silent_require _ _) fun _ => Clean.bind silent_select fun known => ?_
  refine Clean.bind (Silent.forSome fun _ => silent_check _) fun _ => ?_
  refine NeverRefuses.clean (neverRefuses_newUuid.bind fun _ => neverRefuses_insert.bind fun _ => ?_)
  exact neverRefuses_pure _

theorem silent_closingAccepted (closing : Closing) (ever : ℕ) :
    Silent (closingAccepted ctx closing ever) := by
  unfold closingAccepted
  split
  · split
    · exact Silent.bind silent_select fun _ => Silent.bind (silent_orFail _ _) fun _ =>
        silent_pure _
    · exact silent_pure _
  · exact silent_pure _

theorem shiftClosed_clean (data : Json) : Clean (shiftClosedApply k env ctx data) := by
  refine Clean.bind (silent_orRefuse _ _) fun c => Clean.bind (silent_orRefuse _ _) fun moment => ?_
  refine Clean.bind (silent_check _) fun _ => Clean.bind silent_select fun ever => ?_
  refine Clean.bind silent_select fun closing => ?_
  refine Clean.bind (silent_closingAccepted closing ever) fun accepted => ?_
  refine Clean.bind (silent_require _ _) fun _ => NeverRefuses.clean ?_
  refine neverRefuses_newUuid.bind fun _ => neverRefuses_insert.bind fun _ => ?_
  cases closing with
  | shiftClosed => exact neverRefuses_pure _
  | partClosedBefore => exact neverRefuses_pure _
  | part closesShift => exact neverRefuses_pure _

end Clean

end Markiro
