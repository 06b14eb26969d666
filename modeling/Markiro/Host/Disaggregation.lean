import Markiro.Host.PalletEvents

/-!
# Disaggregation documents

The office takes closed boxes and pallets apart (`disaggregation.rs`, `routes/disaggregation.rs`):
each line's SSCC is resolved again under the write lock, and only when every line is `ok` is the
document applied. A box's codes are freed and its items leave it; a pallet's boxes stay as they are.
Imported packs are `cloud_history/operations.rs`.
-/

namespace Markiro

open Calendar

/-! ## Lines -/

inductive LineStatus where
  | ok | notClosed | shiftOpen | alreadyDisassembled
  deriving DecidableEq

/-- The first rule that holds: an open pack, an open shift, a pack taken apart already. -/
def classify (closed shiftClosed disassembled : Bool) : LineStatus :=
  if closed = false then .notClosed
  else if shiftClosed = false then .shiftOpen
  else if disassembled then .alreadyDisassembled
  else .ok

/-- What a line's SSCC names. -/
inductive Pack where
  | box (id : String)
  | pallet (id : String)
  | warehousePallet (id : String)
  | cloudBox (id : String)
  | cloudPallet (id : String)
  deriving DecidableEq

/-- What an SSCC names now and the line's status for it. -/
structure Target where
  pack : Pack
  status : LineStatus

def ShiftRow.isClosed (s : ShiftRow) : Bool := decide (s.status = .closed)

def Db.resolveBox (sscc : String) (db : Db) : Option Target := do
  let x ← db.boxes.find? fun x => x.sscc = some sscc
  let s ← db.shifts.find? fun s => s.id = x.shiftId
  some ⟨.box x.id, classify x.closedAt.isSome s.isClosed x.disassembledAt.isSome⟩

def Db.resolvePallet (sscc : String) (db : Db) : Option Target := do
  let x ← db.pallets.find? fun x => x.sscc = some sscc
  let s ← db.shifts.find? fun s => s.id = x.shiftId
  some ⟨.pallet x.id, classify x.closedAt.isSome s.isClosed x.disassembledAt.isSome⟩

def Db.resolveWarehousePallet (sscc : String) (db : Db) : Option Target :=
  (db.warehousePallets.find? fun x => x.sscc = some sscc).map fun x =>
    ⟨.warehousePallet x.id, classify x.closedAt.isSome true x.disassembledAt.isSome⟩

/-- An imported pack of a completed import. -/
def CloudHistory.resolve (sscc : String) (c : CloudHistory) : Option Target :=
  let box := c.boxes.find? fun x => x.sscc = some sscc ∧ c.completed x.batchId ∧
    c.shifts.any fun s => s.id = x.shiftId
  match box with
  | some x => some ⟨.cloudBox x.id, classify x.closedAt.isSome true x.disassembledAt.isSome⟩
  | none =>
    (c.pallets.find? fun x => x.sscc = some sscc ∧ c.completed x.batchId).map fun x =>
      ⟨.cloudPallet x.id, classify x.closedAt.isSome true x.disassembledAt.isSome⟩

/-- What `sscc` names: a box first, then a pallet, then an imported pack. -/
def Db.resolve (sscc : String) (db : Db) : Option Target :=
  ((db.resolveBox sscc).orElse fun _ => db.resolvePallet sscc).orElse fun _ =>
    (db.resolveWarehousePallet sscc).orElse fun _ => db.cloud.resolve sscc

/-! ## Packs of this host -/

/-- The codes the live items' scans own are free, and every live item leaves its box. -/
def Db.emptyBox (boxId instant : String) (db : Db) : Db :=
  { db with
    codeOwners := Table.delete (fun o => db.boxItems.any fun i =>
      i.boxId = boxId ∧ i.live ∧ i.scanId = o.scanId) db.codeOwners
    boxItems := Table.update (fun i => i.boxId = boxId ∧ i.live)
      (fun i => { i with removedAt := some instant }) db.boxItems }

/-- What taking a pack apart changed: the shift of this host, and how many of each. -/
structure Taken where
  shiftId : Option String
  boxes : ℕ
  pallets : ℕ
  codes : ℕ

/-- Take a box apart. A box taken apart already is an error. -/
def applyBox (documentId boxId instant now : String) (rev : ℕ) : Host Taken := do
  let taken ← select fun db => db.boxItems.countP fun i => decide (i.boxId = boxId) && i.live
  execute (Db.emptyBox boxId instant)
  let box ← Txn.orFail (← select fun db => db.boxes.find? fun x =>
    x.id = boxId ∧ x.disassembledAt = none) .internal
  execute fun db => { db with
    boxes := Table.update (fun x => x.id = boxId ∧ x.disassembledAt = none)
      (fun x => { x with disassembledAt := some instant }) db.boxes }
  execute (Db.touchBox boxId now)
  insert (fun db => ∀ x ∈ db.codeReleases, x.boxId ≠ boxId)
    fun db => { db with
      codeReleases := db.codeReleases ++ [⟨boxId, box.shiftId, documentId, taken, instant, rev⟩] }
  pure ⟨some box.shiftId, 1, 0, taken⟩

/-- Take a production pallet apart. -/
def applyPallet (palletId instant now : String) : Host Taken := do
  let pallet ← Txn.orFail (← select fun db => db.pallets.find? fun x =>
    x.id = palletId ∧ x.disassembledAt = none) .internal
  execute fun db => { db with
    pallets := Table.update (fun x => x.id = palletId ∧ x.disassembledAt = none)
      (fun x => { x with disassembledAt := some instant }) db.pallets }
  execute (Db.touchPallet palletId now)
  pure ⟨some pallet.shiftId, 0, 1, 0⟩

/-- Take a warehouse pallet apart. -/
def applyWarehousePallet (palletId instant now : String) : Host Taken := do
  let rows ← select fun db => db.warehousePallets.countP fun x =>
    decide (x.id = palletId ∧ x.disassembledAt = none)
  Txn.assert (rows = 1) .internal
  execute fun db => { db with
    warehousePallets := Table.update (fun x => x.id = palletId ∧ x.disassembledAt = none)
      (fun x => { x with disassembledAt := some instant }) db.warehousePallets }
  execute (Db.touchWarehousePallet palletId now)
  execute (Db.endStays palletId instant)
  pure ⟨none, 0, 1, 0⟩

/-! ## Imported packs -/

def CloudOwnerRow.ownsItem (x : CloudBoxRow) (i : CloudItemRow) (o : CloudOwnerRow) : Bool :=
  decide (o.hash = i.hash ∧ o.boxId = some x.id ∧ o.shiftId = x.shiftId ∧
    o.batchId = x.batchId ∧ o.releasedAt = none)

/-- Some item of the box is no longer owned as it was imported. -/
def CloudHistory.mismatch (boxId : String) (c : CloudHistory) : Bool :=
  (c.items ×ˢ c.boxes).any fun x => decide (x.2.id = x.1.boxId) && decide (x.2.id = boxId) &&
    x.1.removedAt.isNone && c.owners.all fun o => !o.ownsItem x.2 x.1

/-- The codes an imported box frees. -/
def CloudOwnerRow.freedBy (c : CloudHistory) (boxId shiftId : String) (o : CloudOwnerRow) : Bool :=
  decide (o.boxId = some boxId ∧ o.shiftId = shiftId ∧ o.releasedAt = none) &&
    c.items.any fun i => i.boxId = boxId ∧ i.removedAt = none ∧ i.hash = o.hash

def CloudShiftRow.markLate (now : String) (s : CloudShiftRow) : CloudShiftRow :=
  { s with lateDataAt := some (s.lateDataAt.getD now) }

/-- Take an imported box apart: its codes are released and its items leave it. -/
def applyCloudBox (documentId boxId instant now : String) (rev : ℕ) : Host Taken := do
  let mismatch ← select fun db => db.cloud.mismatch boxId
  Txn.assert (mismatch = false) (.conflict "history_owner_mismatch")
  let box ← Txn.orFail (← select fun db => db.cloud.boxes.find? fun x => x.id = boxId ∧
    x.disassembledAt = none ∧ db.cloud.completed x.batchId) .internal
  let taken ← select fun db =>
    db.cloud.owners.countP (CloudOwnerRow.freedBy db.cloud boxId box.shiftId)
  insert (fun db => ∀ x ∈ db.cloud.releases, x.boxId ≠ boxId)
    fun db => { db with
      cloud := { db.cloud with
        boxes := Table.update (fun x => x.id = boxId ∧ x.disassembledAt = none ∧
            db.cloud.completed x.batchId)
          (fun x => { x with
            disassembledAt := some instant, locallyDisassembledAt := some instant }) db.cloud.boxes
        owners := Table.update (CloudOwnerRow.freedBy db.cloud boxId box.shiftId)
          (fun o => { o with releasedAt := some instant }) db.cloud.owners
        items := Table.update (fun i => i.boxId = boxId ∧ i.removedAt = none)
          (fun i => { i with removedAt := some instant }) db.cloud.items
        releases := db.cloud.releases ++ [⟨boxId, box.shiftId, documentId, taken, instant, rev⟩]
        shifts := Table.update (fun s => s.id = box.shiftId) (CloudShiftRow.markLate now)
          db.cloud.shifts } }
  pure ⟨none, 1, 0, taken⟩

/-- The imported shifts whose boxes or self a pallet belongs to. -/
def CloudHistory.palletShift (palletId : String) (c : CloudHistory) (s : CloudShiftRow) : Bool :=
  (c.boxes.any fun x => x.palletId = some palletId ∧ x.shiftId = s.id) ||
    c.pallets.any fun x => x.id = palletId ∧ x.shiftId = some s.id

/-- Take an imported pallet apart. -/
def applyCloudPallet (palletId instant now : String) : Host Taken := do
  let rows ← select fun db => db.cloud.pallets.countP fun x =>
    decide (x.id = palletId ∧ x.disassembledAt = none) && db.cloud.completed x.batchId
  Txn.assert (rows = 1) (.conflict "history_pack_state")
  execute fun db => { db with
    cloud := { db.cloud with
      pallets := Table.update (fun x => decide (x.id = palletId ∧ x.disassembledAt = none) &&
          db.cloud.completed x.batchId)
        (fun x => { x with disassembledAt := some instant }) db.cloud.pallets
      shifts := Table.update (db.cloud.palletShift palletId) (CloudShiftRow.markLate now)
        db.cloud.shifts } }
  pure ⟨none, 0, 1, 0⟩

/-! ## The document -/

/-- Take one pack apart. -/
def applyTarget (documentId instant now : String) (rev : ℕ) (pack : Pack) : Host Taken :=
  match pack with
  | .box id => applyBox documentId id instant now rev
  | .pallet id => applyPallet id instant now
  | .warehousePallet id => applyWarehousePallet id instant now
  | .cloudBox id => applyCloudBox documentId id instant now rev
  | .cloudPallet id => applyCloudPallet id instant now

def applyPacks (documentId instant now : String) (rev : ℕ) : List Pack → Host (List Taken)
  | [] => pure []
  | pack :: rest => do
    let taken ← applyTarget documentId instant now rev pack
    let more ← applyPacks documentId instant now rev rest
    pure (taken :: more)

def Db.markShiftsLate (shifts : List String) (now : String) (rev : ℕ) (db : Db) : Db :=
  { db with
    shifts := Table.update (fun s => s.id ∈ shifts ∧ s.lateDataAt = none)
      (fun s => { s with lateDataAt := some now, rev }) db.shifts }

def applyTargets (documentId : String) (packs : List Pack) (instant now : String) (rev : ℕ) :
    Host (List Taken) := do
  let taken ← applyPacks documentId instant now rev packs
  execute (Db.markShiftsLate (taken.filterMap (·.shiftId)) now rev)
  pure taken

/-- The counts of an applied document, as its audit row names them. -/
def appliedDetails (docNo : String) (taken : List Taken) : Json :=
  .obj [("boxes", Json.ofNat (taken.map (·.boxes)).sum), ("codes", Json.ofNat (taken.map (·.codes)).sum),
    ("docNo", .str docNo), ("pallets", Json.ofNat (taken.map (·.pallets)).sum)]

/-- How an apply ended: every line was `ok`, or some were not and the document stays a draft. -/
inductive DocumentAnswer where
  | applied
  | invalidLines (count : ℕ)
  deriving DecidableEq

/-- The lines that are not `ok`; a line without an SSCC never is. -/
def Db.okPacks (lines : List (Option String)) (db : Db) : List (Option Pack) :=
  lines.map fun sscc => do
    let target ← db.resolve (← sscc)
    if target.status = .ok then some target.pack else none

/-- `POST /v1/office/disaggregation/{id}/apply`: the lines of the document's draft. -/
def applyDocument (k : Crates) (env : Env) (userId documentId docNo : String)
    (lines : List (Option String)) : Host DocumentAnswer := do
  orError env.access
  let held ← select fun db => db.site.factsHeldSince
  Txn.assert (held = none) (.conflict "restore_hold")
  Txn.assert (lines ≠ []) (.conflict "no_lines")
  let packs ← select (Db.okPacks lines)
  let invalid := packs.countP Option.isNone
  let rev ← nextRevision
  if 0 < invalid then do
    record ⟨env.timestamp k, .user userId, "disaggregation.apply", some "disaggregation_document",
      some documentId, false, .obj [("docNo", .str docNo), ("invalidLines", Json.ofNat invalid)]⟩
    pure (.invalidLines invalid)
  else do
    let taken ← applyTargets documentId packs.reduceOption (deviceText env.now) (env.timestamp k)
      rev
    record ⟨env.timestamp k, .user userId, "disaggregation.apply", some "disaggregation_document",
      some documentId, true, appliedDetails docNo taken⟩
    pure .applied

end Markiro
