import Markiro.Host.PalletEvents
import Markiro.Host.Sscc

/-!
# Pallets the office creates

The office names the boxes of a warehouse pallet by their SSCCs and the host creates it closed,
with one serial of the pallet counter (`office_pallet_create.rs`).
-/

namespace Markiro

/-! ## SSCC texts -/

def checkDigit (body : List Char) : ℕ :=
  let sum := (body.reverse.zipIdx.map fun (c, i) =>
    (c.toNat - '0'.toNat) * if i % 2 = 0 then 3 else 1).sum
  (10 - sum % 10) % 10

def stripStart (start s : String) : Option String :=
  if start.toList.isPrefixOf s.toList then some (String.ofList (s.toList.drop start.toList.length))
  else none

/-- The 18 digits inside a scanner's wrapping, without the application identifier. -/
def unwrapSscc (raw : String) : Option String :=
  let raw := (stripStart "]C1" raw).getD raw
  match stripStart "(00)" raw with
  | some rest => some rest
  | none => if byteLen raw = 20 then stripStart "00" raw else some raw

/-- A scanned SSCC as its 18 digits, when its check digit is right. -/
def normalizeSscc (raw : String) : Option String :=
  let raw := trimMatches (fun c => (isWhitespace c && c != '\x85') || c == '\ufeff') raw
  if 25 < byteLen raw then none
  else
    match unwrapSscc raw with
    | none => none
    | some raw =>
      if digits 18 raw = true ∧
          some (checkDigit (raw.toList.take 17)) = (raw.toList[17]?).map fun c => c.toNat - '0'.toNat
      then some raw
      else none

def buildPalletSscc (issuer : String) (serial : ℕ) : Option String :=
  if prefixOk issuer = true ∧ serial < serialCapacity issuer then
    let body := ssccBody 1 issuer serial
    some (String.ofList (body ++ Nat.toDigits 10 (checkDigit body)))
  else none

/-! ## The boxes a pallet may take -/

/-- A box the office named. -/
structure Candidate where
  closedAt : Option String
  disassembledAt : Option String
  productId : String
  productName : String
  demo : Bool
  productionPallet : Option String
  warehousePallet : Option String
  units : ℕ

def Db.standingPalletOf (sscc : String) (db : Db) : Option String :=
  db.stays.findSome? fun w =>
    if w.boxSscc = sscc ∧ w.live then
      (db.warehousePallets.find? fun x => x.id = w.palletId ∧ x.disassembledAt = none).map (·.id)
    else none

def Db.candidate (sscc : String) (db : Db) : Option Candidate := do
  let box ← db.boxes.find? fun x => x.sscc = some sscc
  let shift ← db.shifts.find? fun s => s.id = box.shiftId
  let product ← db.products.find? fun p => p.id = shift.productId
  some {
    closedAt := box.closedAt
    disassembledAt := box.disassembledAt
    productId := shift.productId
    productName := product.name
    demo := product.demo
    productionPallet := ((db.palletOf box).filter fun p => p.disassembledAt.isNone).map (·.id)
    warehousePallet := db.standingPalletOf sscc
    units := db.boxItems.countP fun i => decide (i.boxId = box.id) && i.live }

/-- Why the box does not go onto the pallet of `product`. -/
def Candidate.fault (c : Candidate) (product : Option String) : Option String :=
  if c.demo then some "demo_box"
  else if c.closedAt.isNone then some "not_closed"
  else if c.disassembledAt.isSome then some "disassembled"
  else if c.productionPallet.isSome || c.warehousePallet.isSome then some "already_on_pallet"
  else if product.any fun id => id ≠ c.productId then some "product_mismatch"
  else none

structure OfficePalletInputError where
  line : ℕ
  code : String
  sscc : Option String
  palletId : Option String
  palletKind : Option String

/-- What the lines read so far come to. -/
structure Inspection where
  productId : Option String
  productName : Option String
  boxes : ℕ
  units : ℕ
  errors : List OfficePalletInputError

def Inspection.empty : Inspection := ⟨none, none, 0, 0, []⟩

def Inspection.error (s : Inspection) (e : OfficePalletInputError) : Inspection :=
  { s with errors := s.errors ++ [e] }

/-- The lines that are not blank, with their numbers. -/
def numberedLines (codes : List String) : List (ℕ × String) :=
  ((codes.zipIdx 1).filter fun x => decide (trim x.1 ≠ "")).map fun x => (x.2, x.1)

/-- The pallet a candidate stands on, and of which kind it is. -/
def Candidate.occupied (c : Candidate) : Option String × Option String :=
  match c.productionPallet, c.warehousePallet with
  | some id, _ => (some id, some "production")
  | none, some id => (some id, some "warehouse")
  | none, none => (none, none)

/-- One line after those before it; `named` are the box SSCCs of all the lines. Lines come in their
order, and so do their errors. -/
def inspectLine (db : Db) (named : List String) (s : Inspection) (x : ℕ × String) :
    Inspection :=
  match normalizeSscc x.2 with
  | none => s.error ⟨x.1, "invalid_sscc", none, none, none⟩
  | some sscc =>
    if sscc.toList.head? ≠ some '0' then s.error ⟨x.1, "not_box", some sscc, none, none⟩
    else if 1 < named.count sscc then s.error ⟨x.1, "duplicate", some sscc, none, none⟩
    else
      match db.candidate sscc with
      | none => s.error ⟨x.1, "not_found", some sscc, none, none⟩
      | some c =>
        match c.fault s.productId with
        | some code => s.error ⟨x.1, code, some sscc, c.occupied.1, c.occupied.2⟩
        | none => { s with
            productId := some c.productId, productName := some c.productName,
            boxes := s.boxes + 1, units := s.units + c.units }

/-- The boxes of a list of scanned codes, in one snapshot. -/
def inspect (codes : List String) (db : Db) : Inspection :=
  (numberedLines codes).foldl
    (inspectLine db ((numberedLines codes).filterMap fun x => normalizeSscc x.2)) .empty

def Inspection.valid (s : Inspection) : Bool := s.errors.isEmpty && decide (0 < s.boxes)

/-! ## Creation -/

def maxPalletBoxes : ℕ := 1000

/-- 1-1000 nonempty box codes, at most 256 bytes each. -/
def checkSize (codes : List String) : Bool :=
  decide (1 ≤ (numberedLines codes).length ∧ (numberedLines codes).length ≤ maxPalletBoxes) &&
    codes.all fun s => byteLen s ≤ 256

/-- The codes as they are compared: normalized and in order. -/
def canonicalCodes (codes : List String) : List String :=
  ((numberedLines codes).map fun x => (normalizeSscc x.2).getD (trim x.2)).insertionSort (· ≤ ·)

structure OfficePalletCreated where
  id : String
  sscc : Option String
  deriving DecidableEq

/-- The boxes go onto the pallet one by one. -/
def addStays (row : String → StayRow) : List String → Host Unit
  | [] => pure ()
  | code :: rest => do
    insert (fun db => ∀ w ∈ db.stays, w.live = true → w.boxSscc ≠ code)
      fun db => { db with stays := db.stays ++ [row code] }
    addStays row rest

def officePallet (id deviceId userId requestId hash now sscc blockId : String)
    (product : ProductRow) (serial boxes : ℕ) : WarehousePalletRow where
  id := id
  deviceId := deviceId
  productId := product.id
  gtin14 := product.gtin14
  openedAt := now
  closedAt := some now
  sscc := some sscc
  blockId := some blockId
  serial := some serial
  boxCountReported := some boxes
  operatorId := none
  receivedAt := now
  disassembledAt := none
  disassemblyReasonCode := none
  disassemblyReasonText := none
  disassemblyOperatorId := none
  source := .cabinet
  createdByUserId := some userId
  creationRequestId := some requestId
  creationHash := some hash

def insertWarehousePallet (row : WarehousePalletRow) : Host Unit :=
  insert (fun db => ∀ x ∈ db.warehousePallets, x.id ≠ row.id ∧ x.sscc ≠ row.sscc ∧
      ¬(x.blockId = row.blockId ∧ x.serial = row.serial) ∧
      x.creationRequestId ≠ row.creationRequestId)
    fun db => { db with warehousePallets := db.warehousePallets ++ [row] }

/-- The organisation's prefix, once its GLN is set. -/
def orgPrefix : Host String := do
  let gln ← select fun db => db.orgGln
  Txn.assert (digits 13 gln = true) (.conflict "org_gln_missing")
  pure (issuerPrefix gln)

/-- One serial of the pallet counter becomes a block of its own and a closed pallet with the
boxes. -/
def createPallet (k : Crates) (env : Env) (deviceId userId requestId hash : String)
    (codes : List String) (product : ProductRow) (found : Inspection) (issuer sscc : String)
    (serial : ℕ) : Host OfficePalletCreated := do
  let now := env.timestamp k
  let rev ← nextRevision
  let id ← newUuid env
  let block ← newUuid env
  execute (Db.setCounter issuer 1 (serial + 1) rev)
  let blockRequest ← newUuid env
  insertBlock ⟨block, issuer, 1, deviceId, blockRequest, serial, serial, some serial, now, none⟩
  insertWarehousePallet
    (officePallet id deviceId userId requestId hash now sscc block product serial found.boxes)
  addStays (fun code => ⟨id, code, now, none, none, requestId, deviceId⟩) codes
  execute (Db.touchWarehousePallet id now)
  record ⟨now, .user userId, "pallet.create", some "warehouse_pallet", some id, true,
    .obj [("boxes", Json.ofNat found.boxes), ("sscc", .str sscc), ("units", Json.ofNat found.units)]⟩
  pure ⟨id, some sscc⟩

def createNew (k : Crates) (env : Env) (deviceId userId requestId hash : String)
    (codes : List String) : Host OfficePalletCreated := do
  let held ← select fun db => db.site.factsHeldSince
  Txn.assert (held = none) (.conflict "restore_hold")
  orError env.newShifts
  orError env.palletsFeature
  let found ← select (inspect codes)
  Txn.assert (found.valid = true) (.conflict "pallet_codes")
  let productId ← Txn.orFail found.productId .internal
  let product ← Txn.orFail (← select fun db => db.products.find? fun p => p.id = productId) .internal
  let issuer ← orgPrefix
  let counter ← Txn.orFail (← select (Db.counter issuer 1)) (.conflict "org_gln_missing")
  let sscc ← Txn.orFail (buildPalletSscc issuer counter.nextSerial) .ssccExhausted
  let reserved ← select fun db => db.cloud.reservedSscc sscc ||
    (db.pallets.any fun x => x.sscc = some sscc) ||
    db.warehousePallets.any fun x => x.sscc = some sscc
  Txn.assert (reserved = false) (.conflict "sscc_reserved")
  createPallet k env deviceId userId requestId hash (canonicalCodes codes) product found issuer
    sscc counter.nextSerial

/-- `POST /v1/office/pallets`: a repeated request answers the pallet it created. -/
def create (k : Crates) (env : Env) (deviceId userId requestId : String) (codes : List String) :
    Host OfficePalletCreated := do
  Txn.assert (checkSize codes = true) (.validation "codes")
  Txn.assert (clientUuid requestId = true) (.validation "requestId")
  orError env.access
  let hash := recordDigest k (.arr ((canonicalCodes codes).map Json.str))
  match ← select fun db => db.warehousePallets.find? fun x => x.creationRequestId = some requestId with
  | some old => do
    Txn.assert (old.creationHash = some hash) (.conflict "request_id")
    pure ⟨old.id, old.sscc⟩
  | none => createNew k env deviceId userId requestId hash codes

end Markiro
