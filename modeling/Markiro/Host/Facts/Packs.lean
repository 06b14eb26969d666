import Markiro.Host.Facts.Registry

/-!
# Closed boxes and pallets

The facts that close a box or a pallet with an SSCC of the device's block (`box_closed.rs`,
`pallet_closed.rs`), that tell of a printed label (`box_label.rs`, `pallet_label.rs`), and that
reprint a pallet's label or take the pallet apart (`pallet_exception.rs`).
-/

namespace Markiro

/-- A `u64` that fits the database's `INTEGER`. -/
def i64Bound : ℕ := 2 ^ 63

/-! ## Closed boxes -/

/-- The fields of a closed box have the shape the station gives them. -/
def BoxClosedFact.check (k : Crates) (c : BoxClosedFact) : Except Reject Unit := do
  ensure (clientUuid c.boxId) (.field "data.boxId")
  ensure (clientUuid c.blockId) (.field "data.blockId")
  ensure ((deviceInstant k c.openedAt).isSome) (.field "data.openedAt")
  ensure ((deviceInstant k c.closedAt).isSome) (.field "data.closedAt")
  ensure (digits 18 c.sscc) (.field "data.sscc")
  ensure (c.itemCount ≠ 0) (.field "data.itemCount")
  ensure (isCodeHash c.membershipDigest) (.field "data.membershipDigest")
  ensure (c.palletId.all clientUuid) (.field "data.palletId")

def BoxClosedFact.closeBox (c : BoxClosedFact) (ctx : Context) (digestMatches : Bool)
    (x : BoxRow) : BoxRow :=
  { x with
    openedAt := c.openedAt
    closedAt := some c.closedAt
    sscc := some c.sscc
    blockId := some c.blockId
    serial := some c.serial
    itemCountReported := some c.itemCount
    membershipDigest := some c.membershipDigest
    digestMatches := some digestMatches
    operatorId := ctx.operatorId
    palletId := c.palletId }

def Db.members (boxId : String) (db : Db) : List String :=
  (db.boxItems.filter fun i => i.boxId = boxId ∧ i.live).map (·.codeHash)

def Db.boxTaken (sscc blockId : String) (serial : ℕ) (db : Db) : Bool :=
  db.boxes.any fun x => x.sscc = some sscc ∨ x.blockId = some blockId ∧ x.serial = some serial

/-- The pallet a closed box names, when the host does not know it yet: another device's or another
shift's is `pallet_unknown`. -/
def newPallet (ctx : Context) (palletId : Option String) : Host (Option String) :=
  match palletId with
  | some id => do
    let found ← findPallet ctx id
    pure (if found.isNone then some id else none)
  | none => pure none

def closeNewBox (k : Crates) (ctx : Context) (c : BoxClosedFact) : Host Applied := do
  let isIssued ← issued ctx c.blockId 0 c.serial
  Txn.require (namesSerial c.sscc 0 ctx.shift.issuerPrefix c.serial = true ∧ isIssued = true)
    (.new "sscc_not_issued")
  let taken ← select fun db => db.boxTaken c.sscc c.blockId c.serial || db.cloud.reservedSscc c.sscc
  Txn.require (taken = false) (.new "sscc_taken")
  let opens ← newPallet ctx c.palletId
  let members ← select (Db.members c.boxId)
  let digestMatches := decide (boxMembershipDigest k members = c.membershipDigest)
  Txn.forSome opens fun palletId => openPallet ctx palletId c.closedAt
  insert (fun db => ∀ x ∈ db.boxes, x.id ≠ c.boxId → x.sscc ≠ some c.sscc ∧
      ¬(x.blockId = some c.blockId ∧ x.serial = some c.serial))
    fun db => { db with
      boxes := Table.update (fun x => x.id = c.boxId) (c.closeBox ctx digestMatches) db.boxes }
  execute (Db.touchBox c.boxId ctx.receivedAt)
  execute (Db.consume c.blockId c.serial)
  pure .accepted

def boxClosedApply (k : Crates) (ctx : Context) (data : Json) : Host Applied := do
  let c ← Txn.orRefuse (BoxClosedFact.read data) (.field "data")
  Txn.check (c.check k)
  Txn.require (c.serial < i64Bound) (.field "data.serial")
  Txn.forSome c.palletId fun _ => requirePallets ctx
  let found ← Txn.orRefuse (← findBox ctx c.boxId) (.new "box_unknown")
  match found.sscc with
  | some sscc => do
    -- The same close sent again under another id changes nothing.
    Txn.require (sscc = c.sscc ∧ found.palletId = c.palletId) (.new "box_already_closed")
    pure .accepted
  | none => closeNewBox k ctx c

/-! ## Labels -/

/-- The instant of a label's check, kept in the column of its outcome. -/
def BoxRow.label (l : LabelFact) (x : BoxRow) : BoxRow :=
  match l.outcome with
  | .verified => { x with printVerifiedAt := some l.at }
  | .skipped => { x with printSkippedAt := some l.at }

def PalletRow.label (l : LabelFact) (x : PalletRow) : PalletRow :=
  match l.outcome with
  | .verified => { x with printVerifiedAt := some l.at }
  | .skipped => { x with printSkippedAt := some l.at }

def boxLabelApply (k : Crates) (ctx : Context) (data : Json) : Host Applied := do
  let l ← Txn.orRefuse (LabelFact.read "boxId" data) (.field "data")
  Txn.require (clientUuid l.subjectId = true) (.field "data.boxId")
  Txn.require ((deviceInstant k l.at).isSome = true) (.field "data.at")
  let found ← Txn.orRefuse (← findBox ctx l.subjectId) (.new "box_unknown")
  Txn.require (found.closedAt.isSome = true) (.new "box_state")
  execute fun db => { db with
    boxes := Table.update (fun x => x.id = l.subjectId) (BoxRow.label l) db.boxes }
  pure .accepted

def palletLabelApply (k : Crates) (ctx : Context) (data : Json) : Host Applied := do
  let l ← Txn.orRefuse (LabelFact.read "palletId" data) (.field "data")
  Txn.require (clientUuid l.subjectId = true) (.field "data.palletId")
  Txn.require ((deviceInstant k l.at).isSome = true) (.field "data.at")
  requirePallets ctx
  let found ← Txn.orRefuse (← findPallet ctx l.subjectId) (.new "pallet_unknown")
  Txn.require (found.closedAt.isSome = true) (.new "pallet_state")
  execute fun db => { db with
    pallets := Table.update (fun x => x.id = l.subjectId) (PalletRow.label l) db.pallets }
  pure .accepted

/-! ## Closed pallets -/

/-- The fields of a closed pallet have the shape the station gives them. -/
def PalletClosedFact.check (k : Crates) (c : PalletClosedFact) : Except Reject Unit := do
  ensure (clientUuid c.palletId) (.field "data.palletId")
  ensure (clientUuid c.blockId) (.field "data.blockId")
  ensure ((deviceInstant k c.openedAt).isSome) (.field "data.openedAt")
  ensure ((deviceInstant k c.closedAt).isSome) (.field "data.closedAt")
  ensure (digits 18 c.sscc) (.field "data.sscc")
  ensure (c.boxCount ≠ 0) (.field "data.boxCount")

def PalletClosedFact.closePallet (c : PalletClosedFact) (ctx : Context) (x : PalletRow) :
    PalletRow :=
  { x with
    openedAt := c.openedAt
    closedAt := some c.closedAt
    sscc := some c.sscc
    blockId := some c.blockId
    serial := some c.serial
    boxCountReported := some c.boxCount
    operatorId := ctx.operatorId }

def Db.palletTaken (sscc blockId : String) (serial : ℕ) (db : Db) : Bool :=
  db.pallets.any fun x => x.sscc = some sscc ∨ x.blockId = some blockId ∧ x.serial = some serial

/-- Whether a warehouse pallet other than `except` holds the SSCC or the serial of the block. -/
def Db.warehousePalletTaken (sscc blockId : String) (serial : ℕ) (except : Option String)
    (db : Db) : Bool :=
  db.warehousePallets.any fun x => some x.id ≠ except ∧
    (x.sscc = some sscc ∨ x.blockId = some blockId ∧ x.serial = some serial)

/-- The pallet closes; one none of whose boxes reached the host opens closed. -/
def Db.closePallet (ctx : Context) (c : PalletClosedFact) (db : Db) : Db :=
  if db.pallets.any fun x => x.id = c.palletId then
    { db with
      pallets := Table.update (fun x => x.id = c.palletId) (c.closePallet ctx) db.pallets }
  else
    { db with
      pallets := db.pallets ++ [c.closePallet ctx (ctx.newPallet c.palletId c.openedAt)] }

def closeNewPallet (ctx : Context) (c : PalletClosedFact) : Host Applied := do
  let isIssued ← issued ctx c.blockId 1 c.serial
  Txn.require (namesSerial c.sscc 1 ctx.shift.issuerPrefix c.serial = true ∧ isIssued = true)
    (.new "sscc_not_issued")
  let taken ← select fun db => db.palletTaken c.sscc c.blockId c.serial ||
    db.warehousePalletTaken c.sscc c.blockId c.serial none || db.cloud.reservedSscc c.sscc
  Txn.require (taken = false) (.new "sscc_taken")
  execute (Db.closePallet ctx c)
  execute (Db.touchPallet c.palletId ctx.receivedAt)
  execute (Db.consume c.blockId c.serial)
  pure .accepted

def palletClosedApply (k : Crates) (ctx : Context) (data : Json) : Host Applied := do
  let c ← Txn.orRefuse (PalletClosedFact.read data) (.field "data")
  Txn.check (c.check k)
  Txn.require (c.serial < i64Bound) (.field "data.serial")
  requirePallets ctx
  let found ← findPallet ctx c.palletId
  match found.bind (·.sscc) with
  | some sscc => do
    Txn.require (sscc = c.sscc) (.new "pallet_already_closed")
    pure .accepted
  | none => closeNewPallet ctx c

/-! ## Pallet exceptions -/

/-- The fields of a pallet exception agree with its kind; the reason's words, trimmed. -/
def PalletExceptionFact.check (k : Crates) (e : PalletExceptionFact) :
    Except Reject (Option String) := do
  ensure (clientUuid e.palletId) (.field "data.palletId")
  ensure ((deviceInstant k e.occurredAt).isSome) (.field "data.occurredAt")
  let reasons : List String :=
    match e.exception with
    | .reprint => reprintReasons
    | .disassemble => disassembleReasons
  ensure (reasons.contains e.reasonCode) (.field "data.reasonCode")
  reasonWords (some e.reasonCode) e.reasonText

def PalletExceptionFact.row (e : PalletExceptionFact) (ctx : Context) (id : String)
    (words : Option String) : PalletExceptionRow where
  id := id
  recordId := ctx.recordId
  kind := e.exception
  palletId := e.palletId
  reasonCode := e.reasonCode
  reasonText := words
  shiftId := ctx.shift.id
  deviceId := ctx.deviceId
  operatorId := ctx.operatorId
  occurredAt := e.occurredAt
  receivedAt := ctx.receivedAt

/-- The pallet `palletId` is taken apart; its boxes keep their pallet. -/
def Db.disassemblePallet (palletId occurredAt : String) (db : Db) : Db :=
  { db with
    pallets := Table.update (fun x => x.id = palletId)
      (fun x => { x with disassembledAt := some occurredAt }) db.pallets }

def palletExceptionApply (k : Crates) (env : Env) (ctx : Context) (data : Json) :
    Host Applied := do
  let e ← Txn.orRefuse (PalletExceptionFact.read data) (.field "data")
  let words ← Txn.check (e.check k)
  requirePallets ctx
  let found ← Txn.orRefuse (← findPallet ctx e.palletId) (.new "pallet_unknown")
  Txn.require (found.closedAt.isSome = true ∧ found.disassembledAt = none) (.new "pallet_state")
  Txn.onlyIf (e.exception = .disassemble) <|
    execute fun db => (db.disassemblePallet e.palletId e.occurredAt).touchPallet e.palletId
      ctx.receivedAt
  let id ← newUuid env
  insert (fun db => ∀ x ∈ db.palletExceptions, x.id ≠ id ∧
      ¬(x.deviceId = ctx.deviceId ∧ x.recordId = ctx.recordId))
    fun db => { db with palletExceptions := db.palletExceptions ++ [e.row ctx id words] }
  pure .accepted

/-! ## Refusals come first -/

section Clean

open Txn

variable {k : Crates} {env : Env} {ctx : Context}

theorem silent_newPallet {palletId : Option String} : Silent (newPallet ctx palletId) := by
  cases palletId with
  | none => exact silent_pure _
  | some id => exact silent_findPallet.bind fun _ => silent_pure _

theorem closeNewBox_clean (c : BoxClosedFact) : Clean (closeNewBox k ctx c) := by
  refine Clean.bind silent_issuedTo fun _ => Clean.bind (silent_require _ _) fun _ => ?_
  refine Clean.bind silent_select fun _ => Clean.bind (silent_require _ _) fun _ => ?_
  refine Clean.bind silent_newPallet fun opens => Clean.bind silent_select fun members => ?_
  have hopen : NeverRefuses (Txn.forSome opens fun palletId =>
      openPallet ctx palletId c.closedAt) := NeverRefuses.forSome fun _ => neverRefuses_insert
  refine NeverRefuses.clean (hopen.bind fun _ => neverRefuses_insert.bind fun _ => ?_)
  exact neverRefuses_execute.bind fun _ => neverRefuses_execute.bind fun _ => neverRefuses_pure _

theorem boxClosed_clean (data : Json) : Clean (boxClosedApply k ctx data) := by
  refine Clean.bind (silent_orRefuse _ _) fun c => Clean.bind (silent_check _) fun _ => ?_
  refine Clean.bind (silent_require _ _) fun _ => ?_
  refine Clean.bind (Silent.forSome fun _ => silent_requirePallets) fun _ => ?_
  refine Clean.bind silent_findBox fun o => Clean.bind (silent_orRefuse _ _) fun found => ?_
  show Clean (match found.sscc with | some sscc => _ | none => _)
  split
  · exact Clean.bind (silent_require _ _) fun _ => (silent_pure _).clean
  · exact closeNewBox_clean c

theorem boxLabel_clean (data : Json) : Clean (boxLabelApply k ctx data) := by
  refine Clean.bind (silent_orRefuse _ _) fun l => Clean.bind (silent_require _ _) fun _ => ?_
  refine Clean.bind (silent_require _ _) fun _ => Clean.bind silent_findBox fun o => ?_
  refine Clean.bind (silent_orRefuse _ _) fun found => Clean.bind (silent_require _ _) fun _ => ?_
  exact (neverRefuses_execute.bind fun _ => neverRefuses_pure _).clean

theorem palletLabel_clean (data : Json) : Clean (palletLabelApply k ctx data) := by
  refine Clean.bind (silent_orRefuse _ _) fun l => Clean.bind (silent_require _ _) fun _ => ?_
  refine Clean.bind (silent_require _ _) fun _ => Clean.bind silent_requirePallets fun _ => ?_
  refine Clean.bind silent_findPallet fun o => Clean.bind (silent_orRefuse _ _) fun found => ?_
  refine Clean.bind (silent_require _ _) fun _ => ?_
  exact (neverRefuses_execute.bind fun _ => neverRefuses_pure _).clean

theorem closeNewPallet_clean (c : PalletClosedFact) : Clean (closeNewPallet ctx c) := by
  refine Clean.bind silent_issuedTo fun _ => Clean.bind (silent_require _ _) fun _ => ?_
  refine Clean.bind silent_select fun _ => Clean.bind (silent_require _ _) fun _ => ?_
  refine NeverRefuses.clean (neverRefuses_execute.bind fun _ => neverRefuses_execute.bind fun _ => ?_)
  exact neverRefuses_execute.bind fun _ => neverRefuses_pure _

theorem palletClosed_clean (data : Json) : Clean (palletClosedApply k ctx data) := by
  refine Clean.bind (silent_orRefuse _ _) fun c => Clean.bind (silent_check _) fun _ => ?_
  refine Clean.bind (silent_require _ _) fun _ => Clean.bind silent_requirePallets fun _ => ?_
  refine Clean.bind silent_findPallet fun found => ?_
  show Clean (match found.bind (·.sscc) with | some sscc => _ | none => _)
  split
  · exact Clean.bind (silent_require _ _) fun _ => (silent_pure _).clean
  · exact closeNewPallet_clean c

theorem palletException_clean (data : Json) : Clean (palletExceptionApply k env ctx data) := by
  refine Clean.bind (silent_orRefuse _ _) fun e => Clean.bind (silent_check _) fun words => ?_
  refine Clean.bind silent_requirePallets fun _ => Clean.bind silent_findPallet fun o => ?_
  refine Clean.bind (silent_orRefuse _ _) fun found => Clean.bind (silent_require _ _) fun _ => ?_
  refine NeverRefuses.clean (neverRefuses_execute.onlyIf.bind fun _ => ?_)
  refine neverRefuses_newUuid.bind fun _ => neverRefuses_insert.bind fun _ => ?_
  exact neverRefuses_pure _

end Clean

end Markiro
