import Mathlib

/-!
# The station batches of the cloud

`station-scans.service.ts` applies a device's batch in one transaction that holds the tenant's
registry lock, so the batches of a tenant run one after another. The model keeps the tables that
decide who owns a code: `code_registry` by its primary key, `box_items` by box and code, `boxes`,
`code_conflicts` and the claimed batches. A box's row is named by the columns of
`boxes_device_box_uq`; its random id is only ever compared with another one, and `Server.uuid`
gives that order.
-/

namespace Markiro.Cloud

/-! ## conflict-resolution.ts -/

/-- A scan without its code: `sideOf` a claim or of a registry row. -/
structure Scan where
  shiftId : String
  terminalId : Option String
  scannedAt : ℤ
deriving DecidableEq, Repr

/-- An accepted code of a batch, competing for ownership. -/
structure ClaimItem extends Scan where
  codeHash : String
deriving DecidableEq, Repr

/-- A batch's claim together with the device-local box it was scanned into. -/
structure BatchScan extends ClaimItem where
  boxId : Option String
deriving DecidableEq, Repr

structure ConflictRow where
  codeHash : String
  losing : Scan
  winning : Scan
deriving DecidableEq, Repr

def sameScan (a b : Scan) : Bool :=
  a.shiftId == b.shiftId && a.terminalId == b.terminalId && a.scannedAt == b.scannedAt

/-- The winner of one code's group: a later item replaces it only when strictly earlier scanned. -/
def earliest : List ClaimItem → Option ClaimItem
  | [] => none
  | first :: rest => some (rest.foldl (fun winner candidate =>
      if candidate.scannedAt < winner.scannedAt then candidate else winner) first)

def collapseClaims (items : List ClaimItem) : List ClaimItem :=
  (items.map (·.codeHash)).dedup.filterMap fun h => earliest (items.filter (·.codeHash == h))

def conflictsAgainstOwner (items : List ClaimItem) (ownerByHash : String → Option Scan) :
    List ConflictRow :=
  items.filterMap fun item =>
    match ownerByHash item.codeHash with
    | none => none
    | some owner =>
      if sameScan item.toScan owner then none else some ⟨item.codeHash, item.toScan, owner⟩

def displacedIncumbents (claims : List ClaimItem) (wonHashes : List String)
    (priorByHash : String → Option Scan) : List ConflictRow :=
  claims.filterMap fun claim =>
    if claim.codeHash ∈ wonHashes then
      match priorByHash claim.codeHash with
      | none => none
      | some prior =>
        if sameScan prior claim.toScan then none else some ⟨claim.codeHash, prior, claim.toScan⟩
    else none

/-! ## box-exceptions.ts -/

inductive ExceptionKind
  | undo
  | clear
  | disassemble
  | reprint
deriving DecidableEq, Repr

def ExceptionKind.name : ExceptionKind → String
  | .undo => "undo"
  | .clear => "clear"
  | .disassemble => "disassemble"
  | .reprint => "reprint"

/-- One exception fact of a batch; the terminal is the authenticated device's. -/
structure ExceptionFact where
  kind : ExceptionKind
  boxId : String
  codeHash : Option String
  targetScannedAt : Option ℤ
  shiftId : String
  occurredAt : ℤ
deriving DecidableEq, Repr

def releases (exception : ExceptionFact) (scan : BatchScan) : Bool :=
  if scan.boxId = none ∨ some exception.boxId ≠ scan.boxId then false
  else if exception.shiftId ≠ scan.shiftId then false
  else match exception.kind with
    | .disassemble => true
    | .clear => scan.scannedAt ≤ exception.occurredAt
    | .undo => exception.codeHash == some scan.codeHash &&
        exception.targetScannedAt == some scan.scannedAt
    | .reprint => false

/-- The scans of a code that no exception of the batch takes back, earliest first. -/
def heldScans (scans : List BatchScan) (exceptions : List ExceptionFact) (codeHash : String) :
    List BatchScan :=
  ((scans.filter fun scan => !exceptions.any (releases · scan)).filter
    (·.codeHash == codeHash)).insertionSort fun a b => a.scannedAt ≤ b.scannedAt

/-! ## The tables -/

structure BoxKey where
  shiftId : String
  terminalId : Option String
  deviceBoxId : String
deriving DecidableEq, Repr

structure BoxRow where
  key : BoxKey
  closedAt : Option ℤ
  disassembledAt : Option ℤ
deriving DecidableEq, Repr

structure BoxItem where
  addedAt : ℤ
  displacedAt : Option ℤ
  removedAt : Option ℤ
deriving DecidableEq, Repr

/-- `displaced_at IS NULL AND removed_at IS NULL`. -/
def BoxItem.live (row : BoxItem) : Bool := row.displacedAt.isNone && row.removedAt.isNone

structure ConflictRecord extends ConflictRow where
  detectedAt : ℤ
deriving DecidableEq, Repr

structure BatchConflict where
  codeHash : String
  winningTerminalId : Option String
  winningScannedAt : ℤ
deriving DecidableEq, Repr

structure BatchResponse where
  applied : ℕ
  alreadyApplied : Bool
  conflicts : List BatchConflict
deriving DecidableEq, Repr

structure ClaimedBatch where
  terminalId : Option String
  payloadDigest : Option String
  result : Option BatchResponse
deriving DecidableEq, Repr

structure Tables where
  boxes : List BoxRow
  codeRegistry : String → Option Scan
  boxItems : BoxKey → String → Option BoxItem
  codeConflicts : List ConflictRecord
  syncBatches : String → Option ClaimedBatch

def Tables.empty : Tables := ⟨[], fun _ => none, fun _ _ => none, [], fun _ => none⟩

def boxAt (boxes : List BoxRow) (key : BoxKey) : Option BoxRow := boxes.find? (·.key == key)

/-! ## A batch as the service receives it -/

structure ScanItem where
  shiftId : String
  code : Option String
  scannedAt : ℤ
  boxId : Option String
deriving DecidableEq, Repr

structure BoxClosure where
  boxId : String
  shiftId : String
  closedAt : ℤ
deriving DecidableEq, Repr

structure StationBatch where
  batchId : String
  items : List ScanItem
  boxes : List BoxClosure
  exceptions : List ExceptionFact
deriving DecidableEq, Repr

/-- What the service has from outside: the order of random box ids, `localeCompare`, the digest
of a payload with the authenticated terminal substituted. -/
structure Server where
  uuid : BoxKey → ℕ
  localeCompare : String → String → Ordering
  payloadDigest : String → StationBatch → String

/-- What the subscription lets a batch do: everything on the tenant's own shifts, or, when it is
read-only, only the records of shifts opened before it ended. -/
inductive Access
  | full (known : String → Bool)
  | readOnly (eligible : String → Bool)

/-- One call: the authenticated terminal, the transaction's `now()` and the tenant's access. -/
structure Call where
  terminal : String
  now : ℤ
  access : Access

inductive Refusal
  | stationBatchMismatch
  | unknownShift
deriving DecidableEq, Repr

def sortExceptions (srv : Server) (exceptions : List ExceptionFact) : List ExceptionFact :=
  exceptions.insertionSort fun a b =>
    if a.boxId ≠ b.boxId then srv.localeCompare a.boxId b.boxId ≠ .gt
    else if a.kind ≠ b.kind then srv.localeCompare a.kind.name b.kind.name ≠ .gt
    else srv.localeCompare (a.codeHash.getD "") (b.codeHash.getD "") ≠ .gt

/-- The records the subscription lets through. -/
def admitted (access : Access) (body : StationBatch) : Except Refusal StationBatch :=
  match access with
  | .readOnly eligible => .ok { body with
      items := body.items.filter (eligible ·.shiftId)
      boxes := body.boxes.filter (eligible ·.shiftId)
      exceptions := body.exceptions.filter (eligible ·.shiftId) }
  | .full known =>
    if body.items.all (known ·.shiftId) && body.boxes.all (known ·.shiftId) &&
        body.exceptions.all (known ·.shiftId) then .ok body
    else .error .unknownShift

/-- The coded items as claims, with the authenticated terminal. -/
def batchScans (terminal : String) (items : List ScanItem) : List BatchScan :=
  items.filterMap fun i => i.code.map fun h =>
    ⟨⟨⟨i.shiftId, some terminal, i.scannedAt⟩, h⟩, i.boxId⟩

/-! ## Ownership -/

/-- The batch's codes, once each, in the order every statement takes its locks. -/
def claimHashes (items : List ClaimItem) : List String :=
  (items.map (·.codeHash)).dedup.insertionSort fun a b => a ≤ b

def claimsByHash (items : List ClaimItem) (h : String) : Option ClaimItem :=
  (collapseClaims items).find? (·.codeHash == h)

/-- `INSERT ... ON CONFLICT DO NOTHING` of the claims. -/
def insertClaims (claims : String → Option ClaimItem) (registry : String → Option Scan)
    (h : String) : Option Scan :=
  match registry h with
  | some row => some row
  | none => (claims h).map (·.toScan)

/-- Whether the upsert writes the claim: no row, or `excluded.scanned_at < scanned_at`. -/
def upsertWrites (claims : String → Option ClaimItem) (registry : String → Option Scan)
    (h : String) : Bool :=
  match claims h, registry h with
  | none, _ => false
  | some _, none => true
  | some claim, some row => claim.scannedAt < row.scannedAt

/-- `INSERT ... ON CONFLICT DO UPDATE` of the claims. -/
def upsertClaims (claims : String → Option ClaimItem) (registry : String → Option Scan)
    (h : String) : Option Scan :=
  if upsertWrites claims registry h then (claims h).map (·.toScan) else registry h

/-- What the ownership part of a batch leaves for its membership part. -/
structure Claimed where
  hashes : List String
  registry : String → Option Scan
  ownerByHash : String → Option Scan
  ownLosses : List ConflictRow
  displaced : List ConflictRow

def claimCodes (registry : String → Option Scan) (items : List ClaimItem) : Claimed :=
  let hashes := claimHashes items
  let claims := claimsByHash items
  let freshHashes := hashes.filter fun h => (registry h).isNone
  let priorByHash := insertClaims claims registry
  let won := hashes.filter (upsertWrites claims priorByHash)
  let wonHashes := freshHashes ++ won
  let ownerByHash := fun h =>
    if h ∈ hashes then
      if h ∈ wonHashes then (claims h).map (·.toScan) else priorByHash h
    else none
  { hashes
    registry := upsertClaims claims priorByHash
    ownerByHash
    ownLosses := conflictsAgainstOwner items ownerByHash
    displaced := displacedIncumbents (hashes.filterMap claims) wonHashes priorByHash }

/-! ## Box membership -/

structure MembershipRow where
  box : BoxKey
  codeHash : String
  addedAt : ℤ
  ownerIsThisScan : Bool
deriving DecidableEq, Repr

def BatchScan.boxKey? (scan : BatchScan) : Option BoxKey :=
  scan.boxId.map fun b => ⟨scan.shiftId, scan.terminalId, b⟩

/-- A box row is created when its first item arrives. -/
def openBoxes (srv : Server) (scans : List BatchScan) (boxes : List BoxRow) : List BoxRow :=
  let keys := (scans.filterMap (·.boxKey?)).dedup.insertionSort fun a b =>
    srv.localeCompare a.deviceBoxId b.deviceBoxId ≠ .gt
  boxes ++ (keys.filter fun k => !boxes.any (·.key == k)).map fun k => ⟨k, none, none⟩

/-- Whether the scan's box was taken apart. -/
def retiredBox (boxes : List BoxRow) (key : BoxKey) : Bool :=
  (boxAt boxes key).any (·.disassembledAt.isSome)

def membershipRows (boxes : List BoxRow) (ownerByHash : String → Option Scan)
    (scans : List BatchScan) : List MembershipRow :=
  scans.filterMap fun scan =>
    match scan.boxKey? with
    | none => none
    | some key =>
      if retiredBox boxes key then none
      else some ⟨key, scan.codeHash, scan.scannedAt,
        (ownerByHash scan.codeHash).any (sameScan scan.toScan)⟩

/-- The scans into boxes taken apart. -/
def retiredBoxScans (boxes : List BoxRow) (scans : List BatchScan) : List BatchScan :=
  scans.filter fun scan => scan.boxKey?.any (retiredBox boxes)

def firstOwnerBoxByHash (srv : Server) (rows : List MembershipRow) (h : String) : Option BoxKey :=
  (((rows.filter (·.ownerIsThisScan)).insertionSort fun a b =>
    srv.uuid a.box ≤ srv.uuid b.box).find? (·.codeHash == h)).map (·.box)

/-- One exact scan keeps one membership, whatever boxes a malformed batch names for it. -/
def oneOwnerBox (srv : Server) (rows : List MembershipRow) : List MembershipRow :=
  rows.map fun row => { row with
    ownerIsThisScan := row.ownerIsThisScan &&
      firstOwnerBoxByHash srv rows row.codeHash == some row.box }

def sortBoxItems (srv : Server) (rows : List MembershipRow) : List MembershipRow :=
  rows.insertionSort fun a b =>
    if a.box = b.box then srv.localeCompare a.codeHash b.codeHash ≠ .gt
    else srv.uuid a.box ≤ srv.uuid b.box

def rowOf (rows : List MembershipRow) (box : BoxKey) (h : String) : Option MembershipRow :=
  (rows.filter fun row => row.box == box && row.codeHash == h).getLast?

/-- The upsert of the owners' rows: `excluded.added_at <> added_at` writes the row anew. -/
def upsertMemberships (rows : List MembershipRow) (items : BoxKey → String → Option BoxItem)
    (box : BoxKey) (h : String) : Option BoxItem :=
  match rowOf rows box h with
  | none => items box h
  | some row =>
    match items box h with
    | none => some ⟨row.addedAt, none, none⟩
    | some old => if row.addedAt ≠ old.addedAt then some ⟨row.addedAt, none, none⟩ else some old

def insertFreshDisplacedMemberships (now : ℤ) (rows : List MembershipRow)
    (items : BoxKey → String → Option BoxItem) (box : BoxKey) (h : String) : Option BoxItem :=
  match items box h with
  | some old => some old
  | none => (rowOf rows box h).map fun row => ⟨row.addedAt, some now, none⟩

/-- `UPDATE box_items SET displaced_at = now()` on the live rows of a condition. -/
def displaceWhere (now : ℤ) (p : BoxKey → String → ℤ → Bool)
    (items : BoxKey → String → Option BoxItem) (box : BoxKey) (h : String) : Option BoxItem :=
  (items box h).map fun row =>
    if row.live && p box h row.addedAt then { row with displacedAt := some now } else row

/-- `UPDATE box_items SET removed_at = now()` on the live rows of a condition. -/
def removeWhere (now : ℤ) (p : BoxKey → String → ℤ → Bool)
    (items : BoxKey → String → Option BoxItem) (box : BoxKey) (h : String) : Option BoxItem :=
  (items box h).map fun row =>
    if row.live && p box h row.addedAt then { row with removedAt := some now } else row

def writeMemberships (srv : Server) (now : ℤ) (rows : List MembershipRow)
    (items : BoxKey → String → Option BoxItem) : BoxKey → String → Option BoxItem :=
  let sorted := sortBoxItems srv (oneOwnerBox srv rows)
  let ownerRows := sorted.filter (·.ownerIsThisScan)
  let displacedRows := sorted.filter fun row => !row.ownerIsThisScan
  displaceWhere now (fun box h addedAt => (rowOf displacedRows box h).any (·.addedAt == addedAt))
    (insertFreshDisplacedMemberships now displacedRows (upsertMemberships ownerRows items))

/-- The incumbents' own rows, opened by an earlier batch. -/
def displaceIncumbents (srv : Server) (now : ℤ) (displaced : List ConflictRow)
    (items : BoxKey → String → Option BoxItem) : BoxKey → String → Option BoxItem :=
  (displaced.insertionSort fun a b => srv.localeCompare a.codeHash b.codeHash ≠ .gt).foldl
    (fun items scan => displaceWhere now (fun box h addedAt =>
      h == scan.codeHash && addedAt == scan.losing.scannedAt &&
        box.shiftId == scan.losing.shiftId && box.terminalId == scan.losing.terminalId) items)
    items

structure ActiveMembership where
  box : BoxKey
  codeHash : String
  addedAt : ℤ
deriving DecidableEq, Repr

def ActiveMembership.scan (row : ActiveMembership) : Scan :=
  ⟨row.box.shiftId, row.box.terminalId, row.addedAt⟩

/-- The live rows of the batch's codes in boxes still standing, by code and box id, that hold the
code for its owner. -/
def activeOwnerMemberships (srv : Server) (boxes : List BoxRow) (hashes : List String)
    (ownerByHash : String → Option Scan) (items : BoxKey → String → Option BoxItem) :
    List ActiveMembership :=
  let standing := (boxes.filter (·.disassembledAt.isNone)).insertionSort fun a b =>
    srv.uuid a.key ≤ srv.uuid b.key
  let active := hashes.flatMap fun h => standing.filterMap fun box =>
    match items box.key h with
    | none => none
    | some row => if row.live then some ⟨box.key, h, row.addedAt⟩ else none
  active.filter fun row => (ownerByHash row.codeHash).any (sameScan row.scan)

/-- All but the lowest box of a code. -/
def duplicateMemberships (active : List ActiveMembership) : List ActiveMembership :=
  active.filter fun row => (active.find? (·.codeHash == row.codeHash)).any (·.box != row.box)

/-- Releases a code held by exactly this scan. -/
def releaseCode (codeHash : String) (scan : Scan) (registry : String → Option Scan) (h : String) :
    Option Scan :=
  if h = codeHash ∧ registry h = some scan then none else registry h

/-- A scan into a box taken apart gives its code back, unless a live row holds the same scan. -/
def releaseRetired (active : List ActiveMembership) (retired : List BatchScan)
    (registry : String → Option Scan) : String → Option Scan :=
  retired.foldl (fun registry scan =>
    if active.any fun row => row.codeHash == scan.codeHash && sameScan row.scan scan.toScan
    then registry else releaseCode scan.codeHash scan.toScan registry) registry

/-- What the items part answers: the echoed conflicts, each with the scan behind it. -/
abbrev Echo := List (BatchConflict × ClaimItem)

def echo (c : ConflictRow) : BatchConflict × ClaimItem :=
  (⟨c.codeHash, c.winning.terminalId, c.winning.scannedAt⟩, ⟨c.losing, c.codeHash⟩)

def applyScans (srv : Server) (now : ℤ) (scans : List BatchScan) (t : Tables) : Tables × Echo :=
  let claimed := claimCodes t.codeRegistry (scans.map (·.toClaimItem))
  let boxes := openBoxes srv scans t.boxes
  let rows := membershipRows boxes claimed.ownerByHash scans
  let written := writeMemberships srv now rows t.boxItems
  let items := displaceIncumbents srv now claimed.displaced written
  let active := activeOwnerMemberships srv boxes claimed.hashes claimed.ownerByHash items
  let duplicates := duplicateMemberships active
  ({ t with
      boxes
      boxItems := displaceWhere now (fun box h addedAt => duplicates.any fun d =>
        d.box == box && d.codeHash == h && d.addedAt == addedAt) items
      codeRegistry := releaseRetired active (retiredBoxScans boxes scans) claimed.registry
      codeConflicts := t.codeConflicts ++
        (claimed.ownLosses ++ claimed.displaced).map fun c => ⟨c, now⟩ },
    claimed.ownLosses.map echo)

/-! ## Closures and exceptions -/

def applyClosure (terminal : String) (t : Tables) (closure : BoxClosure) : Tables :=
  { t with boxes := t.boxes.map fun box =>
      if box.key = ⟨closure.shiftId, some terminal, closure.boxId⟩ ∧ box.closedAt = none then
        { box with closedAt := some closure.closedAt } else box }

def sortClosures (srv : Server) (closures : List BoxClosure) : List BoxClosure :=
  closures.insertionSort fun a b => srv.localeCompare a.boxId b.boxId ≠ .gt

def applyClosures (srv : Server) (terminal : String) (closures : List BoxClosure) (t : Tables) :
    Tables :=
  (sortClosures srv closures).foldl (applyClosure terminal) t

/-- Whether `emptyBox` reaches a live row: a clear the rows added up to its instant. -/
def reachedBy (occurredAt : Option ℤ) (addedAt : ℤ) : Bool := occurredAt.all (addedAt ≤ ·)

/-- Releases every active membership of the box, then marks its rows removed. -/
def emptyBox (now : ℤ) (key : BoxKey) (occurredAt : Option ℤ) (t : Tables) : Tables :=
  { t with
    codeRegistry := fun h =>
      match t.boxItems key h with
      | none => t.codeRegistry h
      | some row =>
        if row.live && reachedBy occurredAt row.addedAt then
          releaseCode h ⟨key.shiftId, key.terminalId, row.addedAt⟩ t.codeRegistry h
        else t.codeRegistry h
    boxItems := removeWhere now
      (fun box _ addedAt => box == key && reachedBy occurredAt addedAt) t.boxItems }

def ExceptionFact.boxKey (ex : ExceptionFact) (terminal : String) : BoxKey :=
  ⟨ex.shiftId, some terminal, ex.boxId⟩

/-- An undo releases its scan wherever it stands and takes it out of the box it names. -/
def undoScan (now : ℤ) (key : BoxKey) (codeHash : String) (target : ℤ) (t : Tables) : Tables :=
  { t with
    codeRegistry := releaseCode codeHash ⟨key.shiftId, key.terminalId, target⟩ t.codeRegistry
    boxItems := removeWhere now
      (fun box h addedAt => box == key && h == codeHash && addedAt == target) t.boxItems }

def retireBox (key : BoxKey) (occurredAt : ℤ) (t : Tables) : Tables :=
  { t with boxes := t.boxes.map fun box =>
      if box.key = key ∧ box.closedAt ≠ none ∧ box.disassembledAt = none then
        { box with disassembledAt := some occurredAt } else box }

def applyException (now : ℤ) (terminal : String) (t : Tables) (ex : ExceptionFact) : Tables :=
  let key := ex.boxKey terminal
  match boxAt t.boxes key with
  | none => t
  | some box =>
    match ex.kind with
    | .undo =>
      match ex.codeHash, ex.targetScannedAt with
      | some codeHash, some target => undoScan now key codeHash target t
      | _, _ => t
    | .clear =>
      -- A clear made after the box closed is a no-op: that action is a disassembly.
      if box.disassembledAt = none ∧ (∀ closedAt ∈ box.closedAt, ex.occurredAt ≤ closedAt) then
        emptyBox now key (some ex.occurredAt) t
      else t
    | .disassemble =>
      if box.closedAt ≠ none ∧ box.disassembledAt = none then
        retireBox key ex.occurredAt (emptyBox now key none t)
      else t
    | .reprint => t

/-- The earliest held scan of a released code claims it, and its membership is live again. -/
def reclaimCode (now : ℤ) (scans : List BatchScan) (exceptions : List ExceptionFact)
    (acc : Tables × Echo) (codeHash : String) : Tables × Echo :=
  let (t, echoed) := acc
  match heldScans scans exceptions codeHash with
  | [] => acc
  | holder :: later =>
    if holder.boxKey?.any fun key => (boxAt t.boxes key).all (·.disassembledAt.isSome) then acc
    else if t.codeRegistry codeHash ≠ none then acc
    else
      let losses := later.map fun loser : BatchScan =>
        (⟨codeHash, loser.toScan, holder.toScan⟩ : ConflictRow)
      ({ t with
          codeRegistry := Function.update t.codeRegistry codeHash (some holder.toScan)
          boxItems := fun box h =>
            if holder.boxKey? = some box ∧ h = codeHash then some ⟨holder.scannedAt, none, none⟩
            else t.boxItems box h
          codeConflicts := t.codeConflicts ++ losses.map fun c => ⟨c, now⟩ },
        echoed ++ losses.map echo)

/-- The batch's codes that nobody owns after its exceptions. -/
def releasedHashes (scans : List BatchScan) (t : Tables) : List String :=
  (claimHashes (scans.map (·.toClaimItem))).filter fun h => (t.codeRegistry h).isNone

/-- Takes back the conflicts this transaction wrote against the released scans. -/
def withdrawConflicts (now : ℤ) (releasedScans : List BatchScan) (t : Tables) : Tables :=
  { t with codeConflicts := t.codeConflicts.filter fun c =>
      !releasedScans.any fun scan => c.codeHash == scan.codeHash && c.losing == scan.toScan &&
        c.detectedAt == now }

def reclaimReleasedCodes (srv : Server) (now : ℤ) (scans : List BatchScan)
    (exceptions : List ExceptionFact) (acc : Tables × Echo) : Tables × Echo :=
  let released := releasedHashes scans acc.1
  let releasedScans := scans.filter fun scan => scan.codeHash ∈ released
  (released.insertionSort fun a b => srv.localeCompare a b ≠ .gt).foldl
    (reclaimCode now releasedScans exceptions)
    (withdrawConflicts now releasedScans acc.1, acc.2.filter fun e => e.2.codeHash ∉ released)

def applyExceptions (srv : Server) (now : ℤ) (terminal : String) (scans : List BatchScan)
    (exceptions : List ExceptionFact) (acc : Tables × Echo) : Tables × Echo :=
  if exceptions = [] then acc
  else
    let t := (sortExceptions srv exceptions).foldl (applyException now terminal) acc.1
    reclaimReleasedCodes srv now scans exceptions (t, acc.2)

def applyRecords (srv : Server) (call : Call) (body : StationBatch) (t : Tables) : Tables × Echo :=
  let scans := batchScans call.terminal body.items
  let (t, echoed) := applyScans srv call.now scans t
  let t := applyClosures srv call.terminal body.boxes t
  applyExceptions srv call.now call.terminal scans body.exceptions (t, echoed)

/-- The row that binds a batch id to its terminal, its payload and its answer. -/
def bindBatch (batchId : String) (row : ClaimedBatch) (t : Tables) : Tables :=
  { t with syncBatches := Function.update t.syncBatches batchId (some row) }

/-- A batch id is bound to the payload it first came with. -/
def applyBatch (srv : Server) (call : Call) (body : StationBatch) (t : Tables) :
    Except Refusal (Tables × BatchResponse) :=
  let digest := srv.payloadDigest call.terminal body
  match t.syncBatches body.batchId with
  | some ⟨none, none, _⟩ => .ok (t, ⟨0, true, []⟩)
  | some existing =>
    if existing.terminalId = some call.terminal ∧ existing.payloadDigest = some digest then
      .ok (t, ⟨0, true, (existing.result.map (·.conflicts)).getD []⟩)
    else .error .stationBatchMismatch
  | none => do
    let body ← admitted call.access body
    let (t, echoed) := applyRecords srv call body t
    let result : BatchResponse := ⟨body.items.length, false, echoed.map (·.1)⟩
    .ok (bindBatch body.batchId ⟨some call.terminal, some digest, some result⟩ t, result)

end Markiro.Cloud
