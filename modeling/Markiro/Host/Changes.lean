import Markiro.Host.OfficePallets
import Markiro.Host.Disaggregation
import Markiro.Host.Shifts

/-!
# What can happen to the tables

The host's writes as a relation on the database: `Scanned`, the row of a scan with what became of
its code, and `Written`, every other change, each with the conditions its handler checked before it.
A handler's run is a sequence of such changes (`Refine`), so an invariant of the tables is shown once
per change and holds after every request. The relations are over the crates and over the moment the
request holds the write lock, `now`.
-/

namespace Markiro

open Calendar

/-! ## What the handlers check -/

/-- A moment of the host's clock, as it is stored. -/
def IsTimestamp (text : String) : Prop := ∃ d : UtcDateTime, text = secondText d.1

structure Worked (shiftId deviceId : String) (shifts : List ShiftRow)
    (participants : List ParticipantRow) : Prop where
  shift : ∃ s ∈ shifts, s.id = shiftId
  participant : ∃ p ∈ participants, p.shiftId = shiftId ∧ p.deviceId = deviceId

/-- The device of the record entered its shift, and both are as the record's context says. -/
structure Context.EnteredIn (ctx : Context) (shifts : List ShiftRow)
    (participants : List ParticipantRow) : Prop where
  shift : ∃ s snapshot, shifts.find? (fun s => s.id = ctx.shift.id) = some s ∧
    s.snapshot = some snapshot ∧ ctx.shift = s.entered snapshot ctx.shift.myState
  participant : ∃ p, participants.find? (ParticipantRow.is ctx.shift.id ctx.deviceId) = some p ∧
    p.state = ctx.shift.myState

def Context.Entered (ctx : Context) (db : Db) : Prop := ctx.EnteredIn db.shifts db.participants

theorem Context.EnteredIn.worked {ctx : Context} {shifts : List ShiftRow}
    {participants : List ParticipantRow} (h : ctx.EnteredIn shifts participants) :
    Worked ctx.shift.id ctx.deviceId shifts participants := by
  obtain ⟨s, -, hs, -⟩ := h.shift
  obtain ⟨p, hp, -⟩ := h.participant
  have hp' := List.find?_some hp
  simp only [ParticipantRow.is, decide_eq_true_eq] at hp'
  have hs' := List.find?_some hs
  exact ⟨⟨s, List.mem_of_find?_eq_some hs, by simpa using hs'⟩,
    ⟨p, List.mem_of_find?_eq_some hp, hp'⟩⟩

/-- What a device's close of its part met. -/
structure Context.Closes (k : Crates) (ctx : Context) (c : CloseShift) (db : Db) : Prop where
  active : ctx.shift.status = .active
  isOpen : ctx.shift.myState ≠ .closed
  last : c.closesShift = true ↔ db.openOthers ctx.shift.id ctx.deviceId = 0
  instant : ∃ moment : DateTime, moment.offset = 0 ∧ c.closedAt = formatTimestamp k moment

def Db.Issued (deviceId sscc blockId : String) (extension serial : ℕ) (db : Db) : Prop :=
  ∃ issuer, namesSerial sscc extension issuer serial = true ∧
    ∃ x ∈ db.blocks, x.issuedTo deviceId issuer blockId extension serial = true

/-- Blocks have at least one serial, as the office's limits keep them. -/
def Site.Sized (s : Site) : Prop :=
  (1 ≤ s.boxBlockSize ∧ s.boxBlockSize ≤ 100000) ∧
    (1 ≤ s.palletBlockSize ∧ s.palletBlockSize ≤ 10000)

/-! ## Scans -/

def ScanRow.owner (row : ScanRow) (hash : String) : CodeOwnerRow :=
  ⟨hash, row.id, row.shiftId, row.deviceId, row.boxId, row.scannedAt⟩

def ScanRow.items (row : ScanRow) (hash : String) : List BoxItemRow :=
  (row.boxId.map fun b => ⟨row.id, b, hash, row.scannedAt, none, none⟩).toList

/-- A scan's row may be written: it is new, its device entered its shift, its box is the device's
and its instant is an instant. -/
structure NewScan (k : Crates) (row : ScanRow) (db : Db) : Prop where
  fresh : ∀ x ∈ db.scans, x.id ≠ row.id ∧ ¬(x.deviceId = row.deviceId ∧ x.recordId = row.recordId)
  worked : Worked row.shiftId row.deviceId db.shifts db.participants
  box : ∀ b, row.boxId = some b →
    ∃ x ∈ db.boxes, x.id = b ∧ x.shiftId = row.shiftId ∧ x.deviceId = row.deviceId
  instant : (deviceInstant k row.scannedAt).isSome = true

/-- The items of a scan may be inserted. -/
def ScanRow.Fits (row : ScanRow) (hash : String) (items : List BoxItemRow) : Prop :=
  ∀ b, row.boxId = some b → (∀ i ∈ items, i.scanId ≠ row.id) ∧
    ∀ i ∈ items, i.live = true → ¬(i.boxId = b ∧ i.codeHash = hash)

def displaced (scanId now : String) (items : List BoxItemRow) : List BoxItemRow :=
  Table.update (fun i => i.scanId = scanId ∧ i.live)
    (fun i => { i with displacedAt := some now }) items

/-- A scan is written, and its code goes to the earliest scan: to this one when the code is free or
its owner's scan is later. -/
inductive Scanned (k : Crates) (now : String) (row : ScanRow) (db : Db) : Db → Prop
  | noted : row.verdict ≠ .ok → NewScan k row db →
      Scanned k now row db { db with scans := db.scans ++ [row] }
  | imported (hash : String) (conflicts : List CloudConflictRow) :
      row.verdict = .ok → row.codeHash = some hash → NewScan k row db →
      db.cloud.completedOwner hash ≠ none →
      Scanned k now row db { db with
        scans := db.scans ++ [row]
        cloud := { db.cloud with conflicts } }
  | late (hash id : String) (o : CodeOwnerRow) :
      row.verdict = .ok → row.codeHash = some hash → NewScan k row db →
      db.codeOwners.find? (fun o => o.codeHash = hash) = some o → o.scannedAt ≤ row.scannedAt →
      (∀ x ∈ db.codeConflicts, x.id ≠ id) →
      Scanned k now row db { db with
        scans := db.scans ++ [row]
        codeConflicts := db.codeConflicts ++ [⟨id, hash, o.scanId, row.id, .late, now⟩] }
  | took (hash id : String) (o : CodeOwnerRow) :
      row.verdict = .ok → row.codeHash = some hash → NewScan k row db →
      db.codeOwners.find? (fun o => o.codeHash = hash) = some o → row.scannedAt < o.scannedAt →
      (∀ x ∈ db.codeConflicts, x.id ≠ id) →
      (∀ o ∈ db.codeOwners, o.codeHash ≠ hash → o.scanId ≠ row.id) →
      row.Fits hash (displaced o.scanId now db.boxItems) →
      Scanned k now row db { db with
        scans := db.scans ++ [row]
        boxItems := displaced o.scanId now db.boxItems ++ row.items hash
        codeConflicts := db.codeConflicts ++ [⟨id, hash, row.id, o.scanId, .displaced, now⟩]
        codeOwners := Table.update (fun o => o.codeHash = hash) (fun _ => row.owner hash)
          db.codeOwners }
  | claimed (hash : String) :
      row.verdict = .ok → row.codeHash = some hash → NewScan k row db →
      (∀ o ∈ db.codeOwners, o.codeHash ≠ hash ∧ o.scanId ≠ row.id) →
      row.Fits hash db.boxItems →
      Scanned k now row db { db with
        scans := db.scans ++ [row]
        codeOwners := db.codeOwners ++ [row.owner hash]
        boxItems := db.boxItems ++ row.items hash }

/-! ## Everything else -/

/-- A box no scan, close or pallet changed yet. -/
structure BoxRow.IsNew (x : BoxRow) : Prop where
  closedAt : x.closedAt = none
  sscc : x.sscc = none
  blockId : x.blockId = none
  serial : x.serial = none
  palletId : x.palletId = none
  changedAt : x.changedAt = none

structure WarehousePalletRow.TakenApart (x y : WarehousePalletRow) (instant : String) : Prop where
  id : y.id = x.id
  deviceId : y.deviceId = x.deviceId
  productId : y.productId = x.productId
  closedAt : y.closedAt = x.closedAt
  sscc : y.sscc = x.sscc
  blockId : y.blockId = x.blockId
  serial : y.serial = x.serial
  disassembledAt : y.disassembledAt = some instant

def ShiftRow.SameButMarks (x y : ShiftRow) : Prop :=
  y = { x with lateDataAt := y.lateDataAt, rev := y.rev }

/-- The same part apart from its late mark and its last entry. -/
def ParticipantRow.SameButMarks (x y : ParticipantRow) : Prop :=
  y = { x with lateDataAt := y.lateDataAt, lastEnteredAt := y.lastEnteredAt }

/-- A participant's row as its first slot writes it. -/
def newParticipant (shiftId deviceId now : String) (rev : ℕ) : ParticipantRow where
  shiftId := shiftId
  deviceId := deviceId
  firstEnteredAt := now
  lastEnteredAt := now
  state := .active
  joinedAt := some now
  joinedRev := some rev
  leftAt := none
  closedAt := none
  closedByKind := none
  closedActualQty := none
  closedReason := none
  lateDataAt := none

/-- A participant that left, with a slot again. -/
def ParticipantRow.rejoined (now : String) (rev : ℕ) (p : ParticipantRow) : ParticipantRow :=
  { p with
    state := .active, leftAt := none, joinedAt := some now, joinedRev := some rev,
    lastEnteredAt := now }

/-- A part as its device's close leaves it. -/
def ParticipantRow.closedByDevice (c : CloseShift) (p : ParticipantRow) : ParticipantRow :=
  { p with
    state := .closed, leftAt := none, closedAt := some c.closedAt, closedByKind := some .device,
    closedActualQty := some c.actualQty, closedReason := c.reasonCode }

def Context.closeOwn (ctx : Context) (c : CloseShift) (participants : List ParticipantRow) :
    List ParticipantRow :=
  Table.update (fun p => p.is ctx.shift.id ctx.deviceId && p.isOpen)
    (ParticipantRow.closedByDevice c) participants

/-- The box of an SSCC may go onto a warehouse pallet of `productId`: it is whole, of the product,
and on no production pallet that stands. -/
def Db.Loose (sscc productId : String) (db : Db) : Prop :=
  ∃ x s, db.boxes.find? (fun x => x.sscc = some sscc) = some x ∧ x.disassembledAt = none ∧
    db.shifts.find? (fun s => s.id = x.shiftId) = some s ∧ s.productId = productId ∧
    ∀ p, db.palletOf x = some p → p.disassembledAt ≠ none

def Db.HasClosed (palletId : String) (db : Db) : Prop :=
  ∃ x ∈ db.warehousePallets, x.id = palletId ∧ x.closedAt ≠ none

/-- Every change of the tables but a scan's. -/
inductive Written (k : Crates) (now : String) (db : Db) : Db → Prop
  /-- The logs, the devices and the revision. -/
  | aside {revision : ℕ} {devices : List DeviceRow} {boxExceptions : List BoxExceptionRow}
      {palletExceptions : List PalletExceptionRow} {unitLabelEvents : List UnitLabelEventRow}
      {shiftCloseEvents : List ShiftCloseEventRow} {codeReleases : List CodeReleaseRow}
      {audit : List AuditRow} : db.revision ≤ revision →
      Written k now db { db with
        revision, devices, boxExceptions, palletExceptions, unitLabelEvents, shiftCloseEvents,
        codeReleases, audit }
  | cloud (c : CloudHistory) :
      (∀ h, db.cloud.completedOwner h = none → c.completedOwner h = none) →
      Written k now db { db with cloud := c }
  | sizes (site : Site) : site.Sized → Written k now db { db with site }
  -- Boxes and their items.
  | openBox (x : BoxRow) : x.IsNew → (∀ y ∈ db.boxes, y.id ≠ x.id) →
      Worked x.shiftId x.deviceId db.shifts db.participants →
      Written k now db { db with boxes := db.boxes ++ [x] }
  | takeOut (instant scanId : String) : Written k now db (db.takeOut instant scanId)
  | emptyBox (boxId instant : String) : Written k now db (db.emptyBox boxId instant)
  | closeBox (ctx : Context) (c : BoxClosedFact) (digestMatches : Bool) (x : BoxRow) :
      ctx.Entered db → digits 18 c.sscc = true →
      db.boxes.find? (fun x => x.id = c.boxId) = some x → x.shiftId = ctx.shift.id →
      x.deviceId = ctx.deviceId → x.sscc = none →
      db.Issued ctx.deviceId c.sscc c.blockId 0 c.serial →
      db.boxTaken c.sscc c.blockId c.serial = false →
      (∀ id, c.palletId = some id → ∃ p ∈ db.pallets, p.id = id) →
      Written k now db ((Db.touchBox c.boxId now { db with
        boxes := Table.update (fun x => x.id = c.boxId) (c.closeBox ctx digestMatches)
          db.boxes }).consume c.blockId c.serial)
  | labelBox (l : LabelFact) :
      Written k now db { db with
        boxes := Table.update (fun x => x.id = l.subjectId) (BoxRow.label l) db.boxes }
  | disassembleBox (boxId instant : String) (p : BoxRow → Bool) :
      (∀ x, p x = true → x.id = boxId) →
      Written k now db (Db.touchBox boxId now { db with
        boxes := Table.update p (fun x => { x with disassembledAt := some instant }) db.boxes })
  -- Production pallets.
  | openPallet (ctx : Context) (id openedAt : String) : ctx.Entered db →
      (∀ x ∈ db.pallets, x.id ≠ id) →
      Written k now db { db with pallets := db.pallets ++ [ctx.newPallet id openedAt] }
  | closePallet (ctx : Context) (c : PalletClosedFact) : ctx.Entered db →
      (∀ x, db.pallets.find? (fun x => x.id = c.palletId) = some x →
        x.shiftId = ctx.shift.id ∧ x.deviceId = ctx.deviceId ∧ x.sscc = none) →
      db.Issued ctx.deviceId c.sscc c.blockId 1 c.serial →
      db.palletTaken c.sscc c.blockId c.serial = false →
      db.warehousePalletTaken c.sscc c.blockId c.serial none = false →
      Written k now db (((db.closePallet ctx c).touchPallet c.palletId now).consume c.blockId
        c.serial)
  | labelPallet (l : LabelFact) :
      Written k now db { db with
        pallets := Table.update (fun x => x.id = l.subjectId) (PalletRow.label l) db.pallets }
  | disassemblePallet (palletId instant : String) (p : PalletRow → Bool) :
      (∀ x, p x = true → x.id = palletId) →
      Written k now db (Db.touchPallet palletId now { db with
        pallets := Table.update p (fun x => { x with disassembledAt := some instant }) db.pallets })
  -- Warehouse pallets.
  | openWarehousePallet (x : WarehousePalletRow) : x.closedAt = none → x.sscc = none →
      x.blockId = none → x.serial = none → x.disassembledAt = none →
      (∀ y ∈ db.warehousePallets, y.id ≠ x.id) →
      Written k now db { db with warehousePallets := db.warehousePallets ++ [x] }
  | dropDraft (x : WarehousePalletRow) : x ∈ db.warehousePallets → x.closedAt = none →
      db.boxesOn x.id = 0 → Written k now db (db.dropDraft x.id)
  | addStay (w : StayRow) (x : WarehousePalletRow) : w.live = true → x ∈ db.warehousePallets →
      x.id = w.palletId → x.closedAt = none → db.Loose w.boxSscc x.productId →
      (∀ v ∈ db.stays, v.live = true → v.boxSscc ≠ w.boxSscc) →
      Written k now db (Db.touchSscc w.boxSscc now { db with stays := db.stays ++ [w] })
  | endStay (palletId boxSscc instant : String) :
      Written k now db ((db.endStay palletId boxSscc instant).touchSscc boxSscc now)
  | closeWarehousePallet (ctx : EventContext) (c : PalletClosedFact) (x : WarehousePalletRow) :
      db.warehousePallets.find? (fun x => x.id = c.palletId ∧ x.deviceId = ctx.deviceId) = some x →
      x.closedAt = none → db.Issued ctx.deviceId c.sscc c.blockId 1 c.serial →
      db.palletTaken c.sscc c.blockId c.serial = false →
      db.warehousePalletTaken c.sscc c.blockId c.serial (some c.palletId) = false →
      Written k now db ((Db.touchWarehousePallet c.palletId now { db with
        warehousePallets := Table.update (fun x => x.id = c.palletId) (c.closeWarehousePallet ctx)
          db.warehousePallets }).consume c.blockId c.serial)
  | disassembleWarehousePallet (palletId instant : String) (p : WarehousePalletRow → Bool)
      (f : WarehousePalletRow → WarehousePalletRow) :
      (∀ x, p x = true ↔ x.id = palletId ∧ x.disassembledAt = none) →
      (∀ x, WarehousePalletRow.TakenApart x (f x) instant) → db.HasClosed palletId →
      Written k now db ((Db.touchWarehousePallet palletId now { db with
        warehousePallets := Table.update p f db.warehousePallets }).endStays palletId instant)
  | createPallet (x : CounterRow) (rev : ℕ) (block : BlockRow) (pallet : WarehousePalletRow)
      (stays : List StayRow) : db.counter x.issuerPrefix 1 = some x →
      x.nextSerial < serialCapacity x.issuerPrefix →
      (block.issuerPrefix, block.extension, block.fromSerial, block.toSerial,
          block.consumedThrough) =
        (x.issuerPrefix, 1, x.nextSerial, x.nextSerial, some x.nextSerial) →
      (∀ y ∈ db.blocks, y.id ≠ block.id ∧ y.isOf block.deviceId block.requestId = false) →
      (pallet.deviceId, pallet.blockId, pallet.serial) =
        (block.deviceId, some block.id, some x.nextSerial) →
      (∃ sscc closedAt, pallet.sscc = some sscc ∧ pallet.closedAt = some closedAt ∧
        sscc.toList.take 17 = ssccBody 1 x.issuerPrefix x.nextSerial) →
      pallet.disassembledAt = none → (∀ y ∈ db.warehousePallets, y.id ≠ pallet.id) →
      (∀ w ∈ stays, w.palletId = pallet.id ∧ w.live = true ∧ db.Loose w.boxSscc pallet.productId) →
      (stays.map (·.boxSscc)).Nodup →
      (∀ w ∈ stays, ∀ v ∈ db.stays, v.live = true → v.boxSscc ≠ w.boxSscc) →
      Written k now db (Db.touchWarehousePallet pallet.id now { db with
        counters := (db.setCounter x.issuerPrefix 1 (x.nextSerial + 1) rev).counters
        blocks := db.blocks ++ [block]
        warehousePallets := db.warehousePallets ++ [pallet]
        stays := db.stays ++ stays })
  -- SSCC serials.
  | issueBlock (x : CounterRow) (rev : ℕ) (block : BlockRow) :
      db.counter block.issuerPrefix block.extension = some x →
      block.fromSerial = x.nextSerial → (db.site.Sized → block.fromSerial ≤ block.toSerial) →
      block.toSerial < serialCapacity block.issuerPrefix → block.consumedThrough = none →
      (∀ y ∈ db.blocks, y.id ≠ block.id ∧ y.isOf block.deviceId block.requestId = false) →
      Written k now db { db with
        counters := (db.setCounter block.issuerPrefix block.extension (block.toSerial + 1)
          rev).counters
        blocks := db.blocks ++ [block] }
  | registerBlock (rev : ℕ) (block : BlockRow) :
      db.counter block.issuerPrefix block.extension ≠ none →
      block.fromSerial ≤ block.toSerial → block.toSerial < serialCapacity block.issuerPrefix →
      db.overlapping block.issuerPrefix block.extension block.fromSerial block.toSerial = false →
      block.consumedThrough = none →
      (∀ y ∈ db.blocks, y.id ≠ block.id ∧ y.isOf block.deviceId block.requestId = false) →
      Written k now db { db with
        blocks := db.blocks ++ [block]
        counters := (db.raiseCounter block.issuerPrefix block.extension block.toSerial
          rev).counters }
  | setCounter (x : CounterRow) (issuer : String) (extension nextSerial rev : ℕ) :
      db.counter issuer extension = some x → x.nextSerial ≤ nextSerial →
      nextSerial < serialCapacity issuer →
      Written k now db (db.setCounter issuer extension nextSerial rev)
  -- Shifts and their participants.
  | openShift (s : ShiftRow) (deviceId : String) (snapshot : Snapshot) :
      db.shifts.find? (fun x => x.id = s.id) = some s → s.status ≠ .closed → s.snapshot = none →
      (∀ p ∈ db.participants, p.is s.id deviceId = false) →
      Written k now db { db with
        revision := db.revision + 1
        shifts := Table.update (fun x => x.id = s.id)
          (ShiftRow.open snapshot now deviceId (db.revision + 1)) db.shifts
        participants := db.participants ++ [newParticipant s.id deviceId now (db.revision + 1)] }
  | join (s : ShiftRow) (deviceId : String) :
      db.shifts.find? (fun x => x.id = s.id) = some s → s.status = .active →
      (∀ p ∈ db.participants, p.is s.id deviceId = false) →
      Written k now db { db with
        revision := db.revision + 1
        participants := db.participants ++ [newParticipant s.id deviceId now (db.revision + 1)] }
  | rejoin (shiftId deviceId : String) :
      Written k now db { db with
        revision := db.revision + 1
        participants := Table.update
          (fun p => p.is shiftId deviceId && decide (p.state = .left))
          (ParticipantRow.rejoined now (db.revision + 1)) db.participants }
  | leave (shiftId deviceId : String) :
      Written k now db { db with
        participants := Table.update
          (fun p => p.is shiftId deviceId && decide (p.state = .active))
          (fun p => { p with state := .left, leftAt := some now }) db.participants }
  | closePart (ctx : Context) (c : CloseShift) : ctx.Entered db → ctx.Closes k c db →
      c.closesShift = false →
      Written k now db { db with participants := ctx.closeOwn c db.participants }
  | closeLast (ctx : Context) (c : CloseShift) (rev : ℕ) (first latest : DateTime) :
      ctx.Entered db → ctx.Closes k c db → c.closesShift = true →
      parseTimestamp k c.closedAt = some first →
      latestOf k first (Db.deviceCloses ctx.shift.id
        { db with participants := ctx.closeOwn c db.participants }) = some latest →
      Written k now db { db with
        participants := ctx.closeOwn c db.participants
        shifts := Table.update (fun s => s.id = ctx.shift.id)
          (ShiftRow.closeByDevice c ctx.deviceId (formatTimestamp k latest) rev) db.shifts }
  | closeByOffice (s : ShiftRow) (userId reason : String) (rev : ℕ) :
      db.shifts.find? (fun x => x.id = s.id) = some s → s.status = .active →
      Written k now db { db.closeOpenByOffice s.id now with
        shifts := Table.update (fun x => x.id = s.id)
          (ShiftRow.closeByOffice now userId reason rev) db.shifts }
  | markShift (p : ShiftRow → Bool) (f : ShiftRow → ShiftRow) :
      (∀ s, ShiftRow.SameButMarks s (f s)) →
      Written k now db { db with shifts := Table.update p f db.shifts }
  | markPart (p : ParticipantRow → Bool) (f : ParticipantRow → ParticipantRow) :
      (∀ x, ParticipantRow.SameButMarks x (f x)) →
      Written k now db { db with participants := Table.update p f db.participants }

/-! ## Sequences of changes -/

inductive Filed (db : Db) : Db → Prop
  | fact (row : FactReceiptRow) : Filed db { db with factReceipts := db.factReceipts ++ [row] }
  | event (row : EventReceiptRow) : Filed db { db with eventReceipts := db.eventReceipts ++ [row] }

inductive Change (k : Crates) (now : String) (db db' : Db) : Prop
  | scanned {row : ScanRow} : Scanned k now row db db' → Change k now db db'
  | written : Written k now db db' → Change k now db db'
  | filed : Filed db db' → Change k now db db'

/-- Changes that are neither scans nor receipts, one after the other. -/
def Writes (k : Crates) (now : String) : Db → Db → Prop := Relation.ReflTransGen (Written k now)

/-- Changes that are no scans, one after the other. -/
def Files (k : Crates) (now : String) : Db → Db → Prop :=
  Relation.ReflTransGen fun db db' => Written k now db db' ∨ Filed db db'

/-- Changes of one request, one after the other. -/
def Changes (k : Crates) (now : String) : Db → Db → Prop := Relation.ReflTransGen (Change k now)

variable {k : Crates} {now : String} {db db' : Db}

theorem Writes.files (h : Writes k now db db') : Files k now db db' :=
  Relation.ReflTransGen.mono (fun _ _ h => Or.inl h) _ _ h

theorem Writes.changes (h : Writes k now db db') : Changes k now db db' :=
  Relation.ReflTransGen.mono (fun _ _ h => .written h) _ _ h

theorem Files.changes (h : Files k now db db') : Changes k now db db' :=
  Relation.ReflTransGen.mono (fun _ _ h => h.elim .written .filed) _ _ h

theorem Written.revised {revision : ℕ} (h : db.revision ≤ revision) :
    Written k now db { db with revision } := .aside h

def Beside (k : Crates) (now : String) (db db' : Db) : Prop :=
  Writes k now db db' ∧ db'.codeOwners = db.codeOwners

theorem Beside.refl : Beside k now db db := ⟨.refl, rfl⟩

theorem Beside.trans {db'' : Db} (h : Beside k now db db') (h' : Beside k now db' db'') :
    Beside k now db db'' :=
  ⟨h.1.trans h'.1, h'.2.trans h.2⟩

theorem Beside.head {db'' : Db} (h : Written k now db db') (ho : db'.codeOwners = db.codeOwners)
    (h' : Beside k now db' db'') : Beside k now db db'' :=
  ⟨.head h h'.1, h'.2.trans ho⟩

theorem Written.beside (h : Written k now db db') (ho : db'.codeOwners = db.codeOwners) :
    Beside k now db db' :=
  ⟨.single h, ho⟩

/-- What applying one record did: it wrote, or it scanned once and freed no code. -/
def Received (k : Crates) (now : String) (db db' : Db) : Prop :=
  Writes k now db db' ∨
    ∃ before after row, Beside k now db before ∧ Scanned k now row before after ∧
      Beside k now after db'

theorem Received.beside {db'' : Db} (h : Received k now db db') (hw : Beside k now db' db'') :
    Received k now db db'' := by
  rcases h with h | ⟨before, after, row, h1, hs, h2⟩
  · exact .inl (h.trans hw.1)
  · exact .inr ⟨before, after, row, h1, hs, h2.trans hw⟩

theorem Received.changes (h : Received k now db db') : Changes k now db db' := by
  rcases h with h | ⟨before, after, row, h1, hs, h2⟩
  · exact h.changes
  · exact (h1.1.changes.tail (.scanned hs)).trans h2.1.changes

end Markiro
