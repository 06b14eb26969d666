import Markiro.Host.Facts.Common

/-!
# The registry of codes

Who owns a code (`registry.rs`), the scans that claim codes (`scan.rs`) and the box exceptions that
free them (`exception.rs`). Each code is owned by its earliest accepted scan since the code was last
freed; an earlier scan takes the code and the owner's item leaves its box, a later one is answered
`conflict`. A refusal comes before the first write of its record (`scan_clean`, `exception_clean`).
-/

namespace Markiro

/-! ## Checks -/

/-- A check of one field. -/
def ensure (p : Bool) (r : Reject) : Except Reject Unit :=
  if p then .ok () else .error r

@[simp] theorem ensure_ok {p : Bool} {r : Reject} {u : Unit} :
    ensure p r = .ok u ↔ p = true := by
  unfold ensure
  split <;> simp_all

@[simp] theorem except_bind_ok {ε α β : Type} {x : Except ε α} {f : α → Except ε β} {b : β} :
    (x >>= f) = .ok b ↔ ∃ a, x = .ok a ∧ f a = .ok b := by
  cases x <;> simp [bind, Except.bind]

/-! ## Owners -/

/-- The shift number as people read it. -/
def formatNumber (monthKey : String) (seq : ℕ) (origin : ShiftOrigin) : String :=
  monthKey ++ "-" ++ String.ofList (Text.pad 3 seq) ++
    match origin with
    | .office => ""
    | .station => "/S"

def ShiftRow.number (s : ShiftRow) : String :=
  formatNumber s.numberMonthKey s.numberSeq s.createdFrom

/-- The scan that owns a code now; an imported owner has no local scan. -/
structure Owner where
  scanId : Option String
  shiftId : String
  shiftNumber : String
  deviceId : String
  scannedAt : String

/-- The NIL UUID, which stands for the device of an imported owner. -/
def nilUuid : String := "00000000-0000-0000-0000-000000000000"

def Owner.toWire (o : Owner) (deviceId : String) : Json :=
  .obj [("deviceId", .str o.deviceId),
    ("sameDevice", .bool (o.scanId.isSome && decide (o.deviceId = deviceId))),
    ("scannedAt", .str o.scannedAt), ("shiftId", .str o.shiftId),
    ("shiftNumber", .str o.shiftNumber)]

def Db.nativeOwner (codeHash : String) (db : Db) : Option Owner := do
  let row ← db.codeOwners.find? fun o => o.codeHash = codeHash
  let shift ← db.shifts.find? fun s => s.id = row.shiftId
  some ⟨some row.scanId, row.shiftId, shift.number, row.deviceId, row.scannedAt⟩

def Db.owner (codeHash : String) (db : Db) : Option Owner :=
  match db.cloud.completedOwner codeHash with
  | some cloud => some ⟨none, cloud.shiftId, cloud.number, nilUuid, cloud.scannedAt⟩
  | none => db.nativeOwner codeHash

/-- An accepted scan, already in the journal, that claims its code. -/
structure Claim where
  scanId : String
  codeHash : String
  boxId : Option String
  scannedAt : String

/-- A conflict of two scans of one code. -/
def conflictRow (env : Env) (codeHash winner loser : String) (kind : ConflictKind)
    (detectedAt : String) : Host Unit := do
  let id ← newUuid env
  insert (fun db => ∀ x ∈ db.codeConflicts, x.id ≠ id)
    fun db => { db with codeConflicts :=
      db.codeConflicts ++ [⟨id, codeHash, winner, loser, kind, detectedAt⟩] }

def cloudConflict (env : Env) (ctx : Context) (c : Claim) : Host Unit := do
  let id ← newUuid env
  execute fun db =>
    match db.cloud.owners.find? fun o => o.hash = c.codeHash ∧ o.releasedAt = none with
    | some o => { db with cloud := { db.cloud with conflicts := db.cloud.conflicts ++
        [⟨id, o.hash, c.scanId, o.shiftId, o.number, o.scannedAt, o.boxId, ctx.receivedAt⟩] } }
    | none => db

def Claim.ownerRow (c : Claim) (ctx : Context) : CodeOwnerRow :=
  ⟨c.codeHash, c.scanId, ctx.shift.id, ctx.deviceId, c.boxId, c.scannedAt⟩

def Claim.item (c : Claim) (boxId : String) : BoxItemRow :=
  ⟨c.scanId, boxId, c.codeHash, c.scannedAt, none, none⟩

def putInBox (c : Claim) : Host Unit :=
  Txn.forSome c.boxId fun boxId =>
    insert (fun db => (∀ i ∈ db.boxItems, i.scanId ≠ c.scanId) ∧
        ∀ i ∈ db.boxItems, i.live = true → ¬(i.boxId = boxId ∧ i.codeHash = c.codeHash))
      fun db => { db with boxItems := db.boxItems ++ [c.item boxId] }

/-- The owner's live item leaves its box. -/
def Db.displaceItems (scanId receivedAt : String) (db : Db) : Db :=
  { db with
    boxItems := Table.update (fun i => i.scanId = scanId ∧ i.live)
      (fun i => { i with displacedAt := some receivedAt }) db.boxItems }

/-- The conflict a claim is answered with. -/
def Owner.conflict (o : Owner) (ctx : Context) : Applied :=
  ⟨.conflict, some (.obj [("winner", o.toWire ctx.deviceId)]), none⟩

/-- Give the code to the claim when it is free or owned by a later scan, and put it in its box;
otherwise keep the owner and answer `conflict`. Of two scans at one instant the owner keeps it. -/
def claim (env : Env) (ctx : Context) (c : Claim) : Host Applied := do
  match ← select (Db.owner c.codeHash) with
  | some owner =>
    match owner.scanId with
    | none => do
      cloudConflict env ctx c
      pure (owner.conflict ctx)
    | some ownerScan =>
      if owner.scannedAt ≤ c.scannedAt then do
        conflictRow env c.codeHash ownerScan c.scanId .late ctx.receivedAt
        pure (owner.conflict ctx)
      else do
        execute (Db.displaceItems ownerScan ctx.receivedAt)
        conflictRow env c.codeHash c.scanId ownerScan .displaced ctx.receivedAt
        insert (fun db => ∀ o ∈ db.codeOwners, o.codeHash ≠ c.codeHash → o.scanId ≠ c.scanId)
          fun db => { db with
            codeOwners := Table.update (fun o => o.codeHash = c.codeHash)
              (fun _ => c.ownerRow ctx) db.codeOwners }
        putInBox c
        pure .accepted
  | none => do
    insert (fun db => ∀ o ∈ db.codeOwners, o.codeHash ≠ c.codeHash ∧ o.scanId ≠ c.scanId)
      fun db => { db with codeOwners := db.codeOwners ++ [c.ownerRow ctx] }
    putInBox c
    pure .accepted

/-- Free the code the scan owns, if it owns one. -/
def Db.release (scanId : String) (db : Db) : Db :=
  { db with codeOwners := Table.delete (fun o => o.scanId = scanId) db.codeOwners }

/-! ## Scans -/

def ScanFact.check (k : Crates) (scan : ScanFact) (mode : ShiftMode) : Except Reject Unit := do
  let invalid : Bool := scan.verdict = .invalid
  ensure ((deviceInstant k scan.scannedAt).isSome) (.field "data.scannedAt")
  ensure (invalid ≠ decide (scan.rawKind = .km)) (.field "data.rawKind")
  ensure (invalid = scan.code.isNone) (.field "data.code")
  ensure (decide (scan.verdict = .duplicate) = scan.duplicateSource.isSome)
    (.field "data.duplicateSource")
  let boxed : Bool := scan.verdict = .ok ∧ mode = .aggregation
  ensure (match scan.boxId with
    | some id => boxed && clientUuid id
    | none => !boxed) (.field "data.boxId")
  match scan.code with
  | some code => do
    ensure (isCodeHash code.codeHash) (.field "data.code.codeHash")
    ensure (digits 14 code.gtin14) (.field "data.code.gtin14")
    ensure (1 ≤ byteLen code.serial ∧ byteLen code.serial ≤ 64 ∧
      code.serial.toList.any isControl = false) (.field "data.code.serial")
    ensure (1 ≤ byteLen code.canonical ∧ byteLen code.canonical ≤ 1024 ∧
      code.canonical.toList.all (· ≠ '\x00')) (.field "data.code.canonical")
  | none => .ok ()

/-- The box an accepted scan goes into: an open box of this device and shift, else a new one. -/
def openBox (ctx : Context) (boxId scannedAt : String) : Host Unit := do
  match ← findBox ctx boxId with
  | some found => Txn.require (found.closedAt = none) (.new "box_closed")
  | none =>
    insert (fun db => ∀ x ∈ db.boxes, x.id ≠ boxId)
      fun db => { db with boxes := db.boxes ++ [ctx.newBox boxId scannedAt] }

/-- The code an `ok` scan claims, once its GTIN fits and its box is open; none for a scan that is
a journal row only. -/
def ScanFact.accept (ctx : Context) (scan : ScanFact) : Host (Option ScannedCode) :=
  match scan.code with
  | some code =>
    if scan.verdict = .ok then do
      Txn.require (code.gtin14 = ctx.shift.gtin14) (.new "gtin_mismatch")
      Txn.forSome scan.boxId fun boxId => openBox ctx boxId scan.scannedAt
      pure (some code)
    else pure none
  | none => pure none

def ScanFact.row (scan : ScanFact) (ctx : Context) (id : String) : ScanRow where
  id := id
  recordId := ctx.recordId
  deviceId := ctx.deviceId
  shiftId := ctx.shift.id
  verdict := scan.verdict
  duplicateSource := scan.duplicateSource
  rawKind := scan.rawKind
  rawLength := scan.rawLength
  codeHash := scan.code.map (·.codeHash)
  gtin14 := scan.code.map (·.gtin14)
  serial := scan.code.map (·.serial)
  canonical := scan.code.map (·.canonical)
  boxId := scan.boxId
  operatorId := ctx.operatorId
  scannedAt := scan.scannedAt
  receivedAt := ctx.receivedAt

def insertScan (row : ScanRow) : Host Unit :=
  insert (fun db => ∀ x ∈ db.scans, x.id ≠ row.id ∧
      ¬(x.deviceId = row.deviceId ∧ x.recordId = row.recordId))
    fun db => { db with scans := db.scans ++ [row] }

def scanApply (k : Crates) (env : Env) (ctx : Context) (data : Json) : Host Applied := do
  let scan ← Txn.orRefuse (ScanFact.read data) (.field "data")
  Txn.check (scan.check k ctx.shift.mode)
  let accepted ← scan.accept ctx
  let scanId ← newUuid env
  insertScan (scan.row ctx scanId)
  match accepted with
  | some code => claim env ctx ⟨scanId, code.codeHash, scan.boxId, scan.scannedAt⟩
  | none => pure .accepted

/-! ## Box exceptions -/

def reasonWords (code : Option String) (text : Option String) : Except Reject (Option String) :=
  match text with
  | none => .ok none
  | some text =>
    if code = some "other" then
      match exceptionReasonText text with
      | some words => .ok (some words)
      | none => .error (.field "data.reasonText")
    else .error (.field "data.reasonText")

/-- The fields of an exception agree with its kind; the reason's words, trimmed. -/
def BoxExceptionFact.check (k : Crates) (e : BoxExceptionFact) :
    Except Reject (Option String) := do
  ensure (clientUuid e.boxId) (.field "data.boxId")
  ensure ((deviceInstant k e.occurredAt).isSome) (.field "data.occurredAt")
  let undo : Bool := e.exception = .undo
  ensure (match e.codeHash with
    | some hash => undo && isCodeHash hash
    | none => !undo) (.field "data.codeHash")
  ensure (match e.targetScannedAt with
    | some target => undo && (deviceInstant k target).isSome
    | none => !undo) (.field "data.targetScannedAt")
  let reasons : Option (List String) :=
    match e.exception with
    | .undo | .clear => none
    | .reprint => some reprintReasons
    | .disassemble => some disassembleReasons
  ensure (match reasons, e.reasonCode with
    | none, none => true
    | some reasons, some code => reasons.contains code
    | _, _ => false) (.field "data.reasonCode")
  reasonWords e.reasonCode e.reasonText

def BoxExceptionFact.takenOut (e : BoxExceptionFact) (db : Db) : List String :=
  let live := db.boxItems.filter fun i => i.boxId = e.boxId ∧ i.live
  match e.exception with
  | .reprint => []
  | .undo => (live.filter fun i => some i.codeHash = e.codeHash ∧
      some i.addedAt = e.targetScannedAt).map (·.scanId)
  | .clear => (live.filter fun i => i.addedAt ≤ e.occurredAt).map (·.scanId)
  | .disassemble => live.map (·.scanId)

/-- One item leaves its box and its code is free. -/
def Db.takeOut (occurredAt : String) (db : Db) (scanId : String) : Db :=
  Db.release scanId { db with
    boxItems := Table.update (fun i => i.scanId = scanId)
      (fun i => { i with removedAt := some occurredAt }) db.boxItems }

/-- The items leave their box one by one. -/
def takeOutAll (occurredAt : String) : List String → Host Unit
  | [] => pure ()
  | scanId :: rest => do
    execute fun db => db.takeOut occurredAt scanId
    takeOutAll occurredAt rest

def BoxExceptionFact.row (e : BoxExceptionFact) (ctx : Context) (id : String)
    (words : Option String) : BoxExceptionRow where
  id := id
  recordId := ctx.recordId
  kind := e.exception
  boxId := e.boxId
  codeHash := e.codeHash
  targetScannedAt := e.targetScannedAt
  reasonCode := e.reasonCode
  reasonText := words
  shiftId := ctx.shift.id
  deviceId := ctx.deviceId
  operatorId := ctx.operatorId
  occurredAt := e.occurredAt
  receivedAt := ctx.receivedAt

def Db.disassembleBox (boxId occurredAt : String) (db : Db) : Db :=
  { db with
    boxes := Table.update (fun x => x.id = boxId)
      (fun x => { x with disassembledAt := some occurredAt }) db.boxes }

def ExceptionKind.fits (kind : ExceptionKind) (found : BoxRow) : Bool :=
  match kind with
  | .undo | .clear => found.closedAt.isNone
  | .reprint | .disassemble => found.closedAt.isSome && found.disassembledAt.isNone

def exceptionApply (k : Crates) (env : Env) (ctx : Context) (data : Json) : Host Applied := do
  let e ← Txn.orRefuse (BoxExceptionFact.read data) (.field "data")
  let words ← Txn.check (e.check k)
  let found ← Txn.orRefuse (← findBox ctx e.boxId) (.new "box_unknown")
  Txn.require (e.exception.fits found = true) (.new "box_state")
  let taken ← select e.takenOut
  takeOutAll e.occurredAt taken
  Txn.onlyIf (e.exception = .disassemble) <|
    execute fun db => (db.disassembleBox e.boxId e.occurredAt).touchBox e.boxId ctx.receivedAt
  let id ← newUuid env
  insert (fun db => ∀ x ∈ db.boxExceptions, x.id ≠ id ∧
      ¬(x.deviceId = ctx.deviceId ∧ x.recordId = ctx.recordId))
    fun db => { db with boxExceptions := db.boxExceptions ++ [e.row ctx id words] }
  pure .accepted

/-! ## Refusals come first -/

section Clean

open Txn

variable {k : Crates} {env : Env} {ctx : Context}

theorem neverRefuses_conflictRow {h w l : String} {kind : ConflictKind} {t : String} :
    NeverRefuses (conflictRow env h w l kind t) :=
  neverRefuses_newUuid.bind fun _ => neverRefuses_insert

theorem neverRefuses_putInBox (c : Claim) : NeverRefuses (putInBox c) :=
  NeverRefuses.forSome fun _ => neverRefuses_insert

theorem neverRefuses_claim (c : Claim) : NeverRefuses (claim env ctx c) := by
  refine neverRefuses_select.bind fun o => ?_
  cases o with
  | none =>
    exact neverRefuses_insert.bind fun _ => (neverRefuses_putInBox c).bind fun _ =>
      neverRefuses_pure _
  | some owner =>
    show NeverRefuses (match owner.scanId with | none => _ | some ownerScan => _)
    split
    · exact (neverRefuses_newUuid.bind fun _ => neverRefuses_execute).bind fun _ =>
        neverRefuses_pure _
    · split
      · exact neverRefuses_conflictRow.bind fun _ => neverRefuses_pure _
      · exact neverRefuses_execute.bind fun _ => neverRefuses_conflictRow.bind fun _ =>
          neverRefuses_insert.bind fun _ => (neverRefuses_putInBox c).bind fun _ =>
            neverRefuses_pure _

theorem openBox_clean (boxId scannedAt : String) : Clean (openBox ctx boxId scannedAt) := by
  refine Clean.bind silent_findBox fun o => ?_
  cases o with
  | none => exact neverRefuses_insert.clean
  | some found => exact (silent_require _ _).clean

theorem accept_clean (scan : ScanFact) : Clean (scan.accept ctx) := by
  unfold ScanFact.accept
  split
  · split
    · refine Clean.bind (silent_require _ _) fun _ => ?_
      refine (Clean.forSome fun boxId => ?_).bind_neverRefuses fun _ => neverRefuses_pure _
      exact openBox_clean boxId _
    · exact (silent_pure _).clean
  · exact (silent_pure _).clean

theorem scan_clean (data : Json) : Clean (scanApply k env ctx data) := by
  refine Clean.bind (silent_orRefuse _ _) fun scan => Clean.bind (silent_check _) fun _ => ?_
  refine (accept_clean scan).bind_neverRefuses fun accepted => ?_
  refine neverRefuses_newUuid.bind fun _ => neverRefuses_insert.bind fun _ => ?_
  cases accepted with
  | none => exact neverRefuses_pure _
  | some code => exact neverRefuses_claim _

theorem neverRefuses_takeOutAll (occurredAt : String) (taken : List String) :
    NeverRefuses (takeOutAll occurredAt taken) := by
  induction taken with
  | nil => exact neverRefuses_pure _
  | cons scanId rest ih => exact neverRefuses_execute.bind fun _ => ih

theorem exception_clean (data : Json) : Clean (exceptionApply k env ctx data) := by
  refine Clean.bind (silent_orRefuse _ _) fun e => Clean.bind (silent_check _) fun words => ?_
  refine Clean.bind silent_findBox fun o => Clean.bind (silent_orRefuse _ _) fun found => ?_
  refine Clean.bind (silent_require _ _) fun _ => Clean.bind silent_select fun taken => ?_
  refine NeverRefuses.clean ?_
  refine (neverRefuses_takeOutAll _ _).bind fun _ => neverRefuses_execute.onlyIf.bind fun _ => ?_
  refine neverRefuses_newUuid.bind fun _ => neverRefuses_insert.bind fun _ => ?_
  exact neverRefuses_pure _

end Clean

end Markiro
