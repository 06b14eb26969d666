import Markiro.Host.Facts.Intake

/-!
# Entering, leaving and closing a shift

A device opens a planned shift or enters an open one, and leaves it (`device_shifts.rs`); the office
closes an active shift whole (`office_shifts.rs`) and revokes a device (`devices.rs`).
-/

namespace Markiro

/-! ## Entry -/

/-- How many UTF-16 code units a text has. -/
def utf16Len (s : String) : ℕ := (s.toList.map fun c => if c.toNat < 0x10000 then 1 else 2).sum

/-- At most 32 names of 1-64 UTF-16 code units. -/
def shiftSupports (supports : List String) : Bool :=
  decide (supports.length ≤ 32) && supports.all fun name =>
    decide (1 ≤ utf16Len name ∧ utf16Len name ≤ 64)

/-- What a device must name to work a shift. -/
def neededSupports (kind : DeviceKind) (mode : ShiftMode) (prints : Bool) : List String :=
  (match mode, prints with
    | .aggregation, _ => []
    | .validation, false => ["validation-v1"]
    | .validation, true => ["validation-v1", "validation-dm-duplicate-v1"]) ++
  if kind = .handheld then ["handheld-host-v1"] else []

/-- How an entry ended. -/
inductive Entered where
  | opened | reentered | readClosed | joined | rejoined
  deriving DecidableEq

/-- The decision on an entry into a shift that is not planned; none for a planned one. -/
def Db.entryDecision (s : ShiftRow) (deviceId : String) (maxStations : ℕ) (multi : Bool)
    (db : Db) : Option EntryDecision :=
  if s.status = .planned then none
  else some (decideEntry ((db.participant s.id deviceId).map (·.state))
    (db.activeOthers s.id deviceId) maxStations multi)

def EntryDecision.refusal (d : EntryDecision) (multi : Bool) : Option ApiError :=
  match d with
  | .busy => some (.conflict "shift_busy")
  | .lineFull _ _ => some (.conflict "shift_line_full")
  | .readClosed => if multi then none else some (.conflict "shift_status")
  | .reenter | .rejoin | .join => none

/-- What an opened shift freezes. -/
def ProductRow.snapshot (p : ProductRow) (gln : String) : Snapshot :=
  ⟨p.gtin14, if p.demo then demoPrefix else issuerPrefix gln⟩

def ShiftRow.open (snapshot : Snapshot) (now deviceId : String) (rev : ℕ) (s : ShiftRow) :
    ShiftRow :=
  { s with
    status := .active, snapshot := some snapshot, openedAt := some now,
    ownerDeviceId := some deviceId, rev }

/-- Open a shift: freeze its snapshot and take the first slot. -/
def openShift (k : Crates) (env : Env) (deviceId : String) (s : ShiftRow) : Host Entered := do
  orError env.newShifts
  let product ← Txn.orFail (← select fun db => db.products.find? fun p => p.id = s.productId) .internal
  orError env.templates
  let gln ← select fun db => db.orgGln
  let rev ← nextRevision
  execute fun db => { db with
    shifts := Table.update (fun x => x.id = s.id)
      (ShiftRow.open (product.snapshot gln) (env.timestamp k) deviceId rev) db.shifts }
  join s.id deviceId (env.timestamp k) rev
  record ⟨env.timestamp k, .device deviceId, "shift.open", some "shift", some s.id, true,
    .obj [("number", .str s.number)]⟩
  pure .opened

/-- The participant's row of a slot taken again or for the first time. -/
def takeSlot (shiftId deviceId now : String) (rev : ℕ) (rejoined : Bool) : Host Unit :=
  if rejoined then rejoin shiftId deviceId now rev else join shiftId deviceId now rev

def joinShift (k : Crates) (env : Env) (deviceId : String) (s : ShiftRow) (rejoined : Bool) :
    Host Entered := do
  let rev ← nextRevision
  takeSlot s.id deviceId (env.timestamp k) rev rejoined
  execute (Db.stampRevision s.id rev)
  record ⟨env.timestamp k, .device deviceId, "shift.join", some "shift", some s.id, true,
    .obj [("number", .str s.number), ("rejoined", .bool rejoined)]⟩
  pure (if rejoined then .rejoined else .joined)

def enterOpen (k : Crates) (env : Env) (deviceId : String) (s : ShiftRow)
    (decision : Option EntryDecision) : Host Entered :=
  match decision with
  | some .reenter => do
    touchParticipant s.id deviceId (env.timestamp k)
    pure .reentered
  | some .readClosed => pure .readClosed
  | some .join => joinShift k env deviceId s false
  | some .rejoin => joinShift k env deviceId s true
  | some .busy | some (.lineFull _ _) | none => Txn.fail .internal

/-- `POST /v1/device/shifts/{id}/enter`. -/
def enterShift (k : Crates) (env : Env) (deviceId shiftId : String) (supports : List String) :
    Host Entered := do
  Txn.assert (shiftSupports supports = true) (.validation "supports")
  let kind ← requireKinds env deviceId [.station, .handheld]
  let s ← Txn.orFail (← select fun db => db.shifts.find? fun s => s.id = shiftId) .notFound
  let line ← Txn.orFail (← select fun db => db.lines.find? fun l => l.id = s.lineId) .notFound
  Txn.assert (s.status ≠ .closed) (.conflict "shift_status")
  let device ← Txn.orFail (← select fun db => db.devices.find? fun d => d.id = deviceId) .internal
  Txn.assert (device.lineId = some s.lineId) (.conflict "shift_line")
  let multi := supports.contains "multi-station-v1"
  let decision ← select (Db.entryDecision s deviceId line.maxStations multi)
  Txn.forSome (decision.bind fun d => d.refusal multi) Txn.fail
  Txn.assert ((neededSupports kind s.mode s.printsDuplicate).all supports.contains)
    (.conflict "station_update")
  match s.snapshot with
  | some _ => enterOpen k env deviceId s decision
  | none => openShift k env deviceId s

/-! ## Leaving -/

/-- Whether a leave names a stay that is over: its token is not the row's. -/
def ParticipantRow.stale (token : Option ℕ) (p : ParticipantRow) : Bool :=
  match token with
  | some token => decide (p.joinedRev ≠ some token)
  | none => false

/-- An active participant leaves; the shift's revision moves. -/
def leaveOpen (k : Crates) (env : Env) (deviceId : String) (s : ShiftRow) : Host Unit := do
  let rev ← nextRevision
  leave s.id deviceId (env.timestamp k)
  execute (Db.stampRevision s.id rev)
  record ⟨env.timestamp k, .device deviceId, "shift.leave", some "shift", some s.id, true,
    .obj [("number", .str s.number)]⟩

/-- `POST /v1/device/shifts/{id}/leave`, with the `joinedRev` of the stay it ends, if it names
one. -/
def leaveShift (k : Crates) (env : Env) (deviceId shiftId : String) (token : Option ℕ) :
    Host Unit := do
  let _ ← requireKinds env deviceId [.station, .handheld]
  let s ← Txn.orFail (← select fun db => db.shifts.find? fun s => s.id = shiftId) .notFound
  let p ← Txn.orFail (← select (Db.participant shiftId deviceId)) (.conflict "shift_not_entered")
  Txn.onlyIf (p.stale token = false ∧ leaves p.state = true) (leaveOpen k env deviceId s)

/-! ## The office -/

def Db.openParts (shiftId : String) (db : Db) : List ParticipantRow :=
  byEntry (db.participants.filter fun p => p.shiftId = shiftId ∧ p.isOpen)

def ParticipantState.text : ParticipantState → String
  | .active => "active"
  | .left => "left"
  | .closed => "closed"

def ShiftRow.closeByOffice (now userId reason : String) (rev : ℕ) (s : ShiftRow) : ShiftRow :=
  { s with
    status := .closed, closedAt := some now, closedByKind := some .officeUser,
    closedBy := some userId, closeReasonText := some reason, rev }

/-- `POST /v1/office/shifts/{id}/close`: every part still open closes as the office's. -/
def closeShift (k : Crates) (env : Env) (userId shiftId reasonText : String) (expectedRev : ℕ) :
    Host Unit := do
  let reason ← Txn.orFail (closeReason reasonText) (.validation "reason")
  orError env.access
  let s ← Txn.orFail (← select fun db => db.shifts.find? fun s => s.id = shiftId) .notFound
  Txn.assert (s.rev = expectedRev) (.staleRevision s.rev)
  Txn.assert (s.status = .active) (.conflict "shift_status")
  let rev ← nextRevision
  let notClosed ← select (Db.openParts shiftId)
  execute fun db => { db.closeOpenByOffice shiftId (env.timestamp k) with
    shifts := Table.update (fun x => x.id = shiftId)
      (ShiftRow.closeByOffice (env.timestamp k) userId reason rev) db.shifts }
  record ⟨env.timestamp k, .user userId, "shift.force_closed", some "shift", some shiftId, true,
    .obj [("notClosed", .arr (notClosed.map fun p =>
        .obj [("deviceId", .str p.deviceId), ("state", .str p.state.text)])),
      ("reason", .str reason)]⟩

/-- `POST /v1/office/devices/{id}/revoke`: revoking a device again changes nothing. -/
def revokeDevice (k : Crates) (env : Env) (userId deviceId : String) : Host Unit := do
  orError env.access
  let d ← Txn.orFail (← select fun db => db.devices.find? fun d => d.id = deviceId) .notFound
  Txn.onlyIf (d.revokedAt = none) do
    execute fun db => { db with
      devices := Table.update (fun d => d.id = deviceId)
        (fun d => { d with revokedAt := some (env.timestamp k) }) db.devices }
    record ⟨env.timestamp k, .user userId, "device.revoke", some "device", some deviceId, true,
      .obj []⟩

end Markiro
