import Markiro.Host.Wire

/-!
# What the fact handlers share

A record's context, the boxes and pallets of a device (`boxes.rs`, `pallets.rs`), the SSCC blocks a
serial comes from (`blocks.rs`) and the change time of a closed box (`registry_touch.rs`). Each
lookup has one lemma that says what it found; the writes are functions on the tables, so a handler
is read as a composition of them.
-/

namespace Markiro

/-! ## Context -/

/-- The shift a record names, as the device entered it. -/
structure FactShift where
  id : String
  number : String
  status : ShiftStatus
  mode : ShiftMode
  gtin14 : String
  issuerPrefix : String
  palletsEnabled : Bool
  printsDuplicate : Bool
  myState : ParticipantState
  plannedQty : Option ℕ

/-- What every kind's handler knows of its record. -/
structure Context where
  deviceId : String
  recordId : String
  operatorId : Option String
  shift : FactShift
  receivedAt : String

/-- A participant's close of its part of an active shift. -/
structure CloseShift where
  closedAt : String
  reasonCode : Option String
  actualQty : ℕ
  closesShift : Bool
  reasonMissing : Bool
  partAudit : Json
  audit : Json

structure Applied where
  outcome : FactOutcome
  details : Option Json
  close : Option CloseShift

def Applied.accepted : Applied := ⟨.accepted, none, none⟩

/-! ## Boxes and pallets of a device -/

/-- The row `id` of a table when it is this device's in this shift (`key` reads its id, its shift
and its device), none when no row has the id, and the refusal `unknown` when another device's or
another shift's row has it. -/
def findOwn {α : Type} (table : Db → List α) (key : α → String × String × String)
    (unknown : String) (ctx : Context) (id : String) : Host (Option α) := do
  Txn.require ((← select fun db => db.cloud.reservedIdentity id) = false) (.new unknown)
  match ← select fun db => (table db).find? fun x => (key x).1 = id with
  | none => pure none
  | some row => do
    Txn.require ((key row).2 = (ctx.shift.id, ctx.deviceId)) (.new unknown)
    pure (some row)

def findBox : Context → String → Host (Option BoxRow) :=
  findOwn (·.boxes) (fun x => (x.id, x.shiftId, x.deviceId)) "box_unknown"

/-- `no_pallets` unless the record's shift works with pallets. -/
def requirePallets (ctx : Context) : Host Unit :=
  Txn.require (ctx.shift.palletsEnabled = true) (.new "no_pallets")

def findPallet : Context → String → Host (Option PalletRow) :=
  findOwn (·.pallets) (fun x => (x.id, x.shiftId, x.deviceId)) "pallet_unknown"

/-- A box as its first scan opens it. -/
def Context.newBox (ctx : Context) (id openedAt : String) : BoxRow where
  id := id
  shiftId := ctx.shift.id
  deviceId := ctx.deviceId
  openedAt := openedAt
  closedAt := none
  sscc := none
  blockId := none
  serial := none
  itemCountReported := none
  membershipDigest := none
  digestMatches := none
  operatorId := none
  printVerifiedAt := none
  printSkippedAt := none
  disassembledAt := none
  receivedAt := ctx.receivedAt
  palletId := none
  changedAt := none

def Context.newPallet (ctx : Context) (id openedAt : String) : PalletRow where
  id := id
  shiftId := ctx.shift.id
  deviceId := ctx.deviceId
  openedAt := openedAt
  closedAt := none
  sscc := none
  blockId := none
  serial := none
  boxCountReported := none
  operatorId := none
  printVerifiedAt := none
  printSkippedAt := none
  disassembledAt := none
  receivedAt := ctx.receivedAt

/-- Open the pallet `id` of this device and this shift. -/
def openPallet (ctx : Context) (id openedAt : String) : Host Unit :=
  insert (fun db => ∀ x ∈ db.pallets, x.id ≠ id)
    fun db => { db with pallets := db.pallets ++ [ctx.newPallet id openedAt] }

/-! ## SSCC blocks -/

/-- The block a serial of `extension` and `issuer` comes from, issued to the device and live. -/
def BlockRow.issuedTo (deviceId issuer blockId : String) (extension serial : ℕ)
    (x : BlockRow) : Bool :=
  decide (x.id = blockId ∧ x.deviceId = deviceId ∧ x.issuerPrefix = issuer ∧
    x.extension = extension ∧ x.fromSerial ≤ serial ∧ serial ≤ x.toSerial ∧ x.revokedAt = none)

def issuedTo (deviceId issuer blockId : String) (extension serial : ℕ) : Host Bool :=
  select fun db => db.blocks.any (BlockRow.issuedTo deviceId issuer blockId extension serial)

def issued (ctx : Context) (blockId : String) (extension serial : ℕ) : Host Bool :=
  issuedTo ctx.deviceId ctx.shift.issuerPrefix blockId extension serial

def BlockRow.consume (serial : ℕ) (x : BlockRow) : BlockRow :=
  { x with consumedThrough := some (max (x.consumedThrough.getD serial) serial) }

/-- Raise the block's `consumedThrough` to `serial`. -/
def Db.consume (blockId : String) (serial : ℕ) (db : Db) : Db :=
  { db with blocks := Table.update (fun x => x.id = blockId) (BlockRow.consume serial) db.blocks }

/-! ## The change time of a closed box -/

/-- The newest stamp among the closed boxes. -/
def Db.newestChange (db : Db) : Option String :=
  (db.boxes.filterMap fun x => if x.sscc.isSome then x.changedAt else none).max?

def Db.stamp (now : String) (db : Db) : String :=
  match db.newestChange with
  | some newest => max newest now
  | none => now

def Db.touch (p : BoxRow → Bool) (now : String) (db : Db) : Db :=
  { db with boxes := Table.update p (fun x => { x with changedAt := some (db.stamp now) }) db.boxes }

def Db.touchBox (boxId now : String) : Db → Db :=
  Db.touch (fun x => x.id = boxId ∧ x.sscc.isSome) now

/-- One closed box, by its SSCC. -/
def Db.touchSscc (sscc now : String) : Db → Db :=
  Db.touch (fun x => x.sscc = some sscc) now

/-- Every closed box of a production pallet. -/
def Db.touchPallet (palletId now : String) : Db → Db :=
  Db.touch (fun x => x.palletId = some palletId ∧ x.sscc.isSome) now

def Db.touchWarehousePallet (palletId now : String) (db : Db) : Db :=
  db.touch (fun x => db.stays.any fun w => w.palletId = palletId ∧ w.live ∧ x.sscc = some w.boxSscc)
    now

/-! ## What the lookups find -/

section Inversion

variable {ctx : Context} {id : String} {b b' : Batch}

section

variable {α : Type} {table : Db → List α} {key : α → String × String × String} {unknown : String}

theorem findOwn_done {o : Option α} (h : findOwn table key unknown ctx id b = .done o b') :
    b' = b ∧ b.db.cloud.reservedIdentity id = false ∧
      (table b.db).find? (fun x => (key x).1 = id) = o ∧
      ∀ row ∈ o, row ∈ table b.db ∧ key row = (id, ctx.shift.id, ctx.deviceId) := by
  unfold findOwn at h
  simp only [Txn.bind_done, select_done, Txn.require_done] at h
  obtain ⟨_, _, ⟨rfl, rfl⟩, _, _, ⟨hr, rfl⟩, o', _, ⟨ho, rfl⟩, h⟩ := h
  cases o' with
  | none =>
    simp only [Txn.pure_done] at h
    obtain ⟨rfl, rfl⟩ := h
    exact ⟨rfl, hr, ho, by simp⟩
  | some row =>
    simp only [Txn.bind_done, Txn.require_done, Txn.pure_done] at h
    obtain ⟨_, _, ⟨hk, rfl⟩, rfl, rfl⟩ := h
    refine ⟨rfl, hr, ho, ?_⟩
    rintro _ ⟨⟩
    have hid : (key row).1 = id := by simpa using List.find?_some ho
    exact ⟨List.mem_of_find?_eq_some ho, Prod.ext hid hk⟩

theorem silent_findOwn : Txn.Silent (findOwn table key unknown ctx id) := by
  refine Txn.Silent.bind silent_select fun _ => Txn.Silent.bind (Txn.silent_require _ _)
    fun _ => Txn.Silent.bind silent_select fun o => ?_
  cases o with
  | none => exact Txn.silent_pure _
  | some row => exact Txn.Silent.bind (Txn.silent_require _ _) fun _ => Txn.silent_pure _

end

theorem findBox_done {o : Option BoxRow} (h : findBox ctx id b = .done o b') :
    b' = b ∧ b.db.cloud.reservedIdentity id = false ∧ b.db.boxes.find? (fun x => x.id = id) = o ∧
      ∀ row ∈ o, row ∈ b.db.boxes ∧ row.id = id ∧ row.shiftId = ctx.shift.id ∧
        row.deviceId = ctx.deviceId := by
  obtain ⟨hb, hr, ho, hrow⟩ := findOwn_done h
  refine ⟨hb, hr, ho, fun row hm => ⟨(hrow row hm).1, ?_⟩⟩
  simpa using (hrow row hm).2

theorem silent_findBox : Txn.Silent (findBox ctx id) := silent_findOwn

theorem findPallet_done {o : Option PalletRow} (h : findPallet ctx id b = .done o b') :
    b' = b ∧ b.db.cloud.reservedIdentity id = false ∧
      b.db.pallets.find? (fun x => x.id = id) = o ∧
      ∀ row ∈ o, row ∈ b.db.pallets ∧ row.id = id ∧ row.shiftId = ctx.shift.id ∧
        row.deviceId = ctx.deviceId := by
  obtain ⟨hb, hr, ho, hrow⟩ := findOwn_done h
  refine ⟨hb, hr, ho, fun row hm => ⟨(hrow row hm).1, ?_⟩⟩
  simpa using (hrow row hm).2

theorem silent_findPallet : Txn.Silent (findPallet ctx id) := silent_findOwn

theorem silent_requirePallets : Txn.Silent (requirePallets ctx) := Txn.silent_require _ _

theorem silent_issuedTo {deviceId issuer blockId : String} {extension serial : ℕ} :
    Txn.Silent (issuedTo deviceId issuer blockId extension serial) := silent_select

end Inversion

end Markiro
