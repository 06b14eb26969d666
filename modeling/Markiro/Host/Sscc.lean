import Markiro.Host.Facts.Intake

/-!
# SSCC counters and blocks

The serials of an issuer prefix and an extension digit are handed out in blocks, each past the
counter: to a device that asks (`sscc_blocks.rs`), to a device that brings back a block a restored
host lost (`known_blocks.rs`), and around what the office sets (`sscc.rs`).
-/

namespace Markiro

/-! ## Counters -/

def CounterRow.is (issuer : String) (extension : ℕ) (x : CounterRow) : Bool :=
  decide (x.issuerPrefix = issuer ∧ x.extension = extension)

/-- The counter of a prefix and an extension digit. -/
def Db.counter (issuer : String) (extension : ℕ) (db : Db) : Option CounterRow :=
  db.counters.find? (CounterRow.is issuer extension)

def Db.setCounter (issuer : String) (extension nextSerial rev : ℕ) (db : Db) : Db :=
  { db with
    counters := Table.update (CounterRow.is issuer extension)
      (fun x => { x with nextSerial, rev }) db.counters }

def blockDetails (issuer : String) (extension fromSerial toSerial : ℕ) : Json :=
  .obj [("extension", Json.ofNat extension), ("fromSerial", Json.ofNat fromSerial),
    ("issuerPrefix", .str issuer), ("toSerial", Json.ofNat toSerial)]

/-! ## A device asks for a block -/

structure SsccBlockRequest where
  requestId : String
  issuerPrefix : String
  extension : ℕ

structure SsccBlock where
  id : String
  issuerPrefix : String
  extension : ℕ
  fromSerial : ℕ
  toSerial : ℕ
  deriving DecidableEq

def BlockRow.toWire (x : BlockRow) : SsccBlock :=
  ⟨x.id, x.issuerPrefix, x.extension, x.fromSerial, x.toSerial⟩

def BlockRow.isOf (deviceId requestId : String) (x : BlockRow) : Bool :=
  decide (x.deviceId = deviceId ∧ x.requestId = requestId)

def Db.requestedBlock (deviceId requestId : String) (db : Db) : Option BlockRow :=
  db.blocks.find? (BlockRow.isOf deviceId requestId)

def insertBlock (row : BlockRow) : Host Unit :=
  insert (fun db => ∀ x ∈ db.blocks, x.id ≠ row.id ∧ x.isOf row.deviceId row.requestId = false)
    fun db => { db with blocks := db.blocks ++ [row] }

/-- How many serials a block of the extension has. -/
def Site.blockSize (s : Site) (extension : ℕ) : ℕ :=
  if extension = 0 then s.boxBlockSize else s.palletBlockSize

def issueNewBlock (k : Crates) (env : Env) (deviceId : String) (r : SsccBlockRequest) :
    Host SsccBlock := do
  requireReady
  let counter ← Txn.orFail (← select (Db.counter r.issuerPrefix r.extension))
    (.validation "issuerPrefix")
  let size ← select fun db => db.site.blockSize r.extension
  let capacity := serialCapacity r.issuerPrefix
  Txn.assert (counter.nextSerial < capacity) .ssccExhausted
  let toSerial := min (counter.nextSerial + size - 1) (capacity - 1)
  let rev ← nextRevision
  execute (Db.setCounter r.issuerPrefix r.extension (toSerial + 1) rev)
  let id ← newUuid env
  let row : BlockRow := ⟨id, r.issuerPrefix, r.extension, deviceId, r.requestId,
    counter.nextSerial, toSerial, none, env.timestamp k, none⟩
  insertBlock row
  record ⟨env.timestamp k, .device deviceId, "sscc.block.issue", some "sscc_block", some id, true,
    blockDetails r.issuerPrefix r.extension counter.nextSerial toSerial⟩
  pure row.toWire

/-- `POST /v1/device/sscc/blocks`: a repeated request answers the block it was answered with. -/
def issueBlock (k : Crates) (env : Env) (deviceId : String) (r : SsccBlockRequest) :
    Host SsccBlock := do
  Txn.assert (clientUuid r.requestId = true) (.validation "requestId")
  Txn.assert (r.extension = 0 ∨ r.extension = 1) (.validation "extension")
  let _ ← requireKinds env deviceId [.station, .handheld]
  match ← select (Db.requestedBlock deviceId r.requestId) with
  | some x => do
    Txn.assert (x.issuerPrefix = r.issuerPrefix ∧ x.extension = r.extension)
      (.validation "requestId")
    pure x.toWire
  | none => issueNewBlock k env deviceId r

/-! ## A device brings back its blocks -/

structure KnownBlock where
  id : String
  issuerPrefix : String
  extension : ℕ
  fromSerial : ℕ
  toSerial : ℕ

inductive KnownBlockOutcome where
  | known | registered | refused
  deriving DecidableEq

structure KnownBlockResult where
  id : String
  outcome : KnownBlockOutcome
  code : Option String
  deriving DecidableEq

def KnownBlock.refused (b : KnownBlock) (code : String) : KnownBlockResult :=
  ⟨b.id, .refused, some code⟩

/-- The most blocks one request may carry. -/
def maxBlocks : ℕ := 64

/-- The largest extension digit an SSCC has. -/
def maxExtension : ℕ := 9

def KnownBlock.serials (b : KnownBlock) : Option (ℕ × ℕ) :=
  if b.toSerial < b.fromSerial ∨ serialCapacity b.issuerPrefix ≤ b.toSerial then none
  else if b.fromSerial < i64Bound ∧ b.toSerial < i64Bound then some (b.fromSerial, b.toSerial)
  else none

def prefixOk (issuer : String) : Bool :=
  decide (4 ≤ byteLen issuer ∧ byteLen issuer ≤ 12) && allDigits issuer

/-- The block is stored as the device says. -/
def KnownBlock.same (b : KnownBlock) (deviceId : String) (x : BlockRow) : Bool :=
  decide (x.deviceId = deviceId ∧ x.issuerPrefix = b.issuerPrefix ∧ x.extension = b.extension ∧
    x.fromSerial = b.fromSerial ∧ x.toSerial = b.toSerial)

/-- Some block, of any device, holds a serial of the range. -/
def Db.overlapping (issuer : String) (extension fromSerial toSerial : ℕ) (db : Db) : Bool :=
  db.blocks.any fun x => x.issuerPrefix = issuer ∧ x.extension = extension ∧
    x.fromSerial ≤ toSerial ∧ fromSerial ≤ x.toSerial

/-- What becomes of one block; its serials when it is to be registered. -/
def Db.decideBlock (deviceId : String) (b : KnownBlock) (db : Db) :
    KnownBlockResult × Option (ℕ × ℕ) :=
  match db.blocks.find? fun x => x.id = b.id with
  | some x =>
    if b.same deviceId x then (⟨b.id, .known, none⟩, none)
    else (b.refused "block_mismatch", none)
  | none =>
    if maxExtension < b.extension then (b.refused "range_invalid", none)
    else if prefixOk b.issuerPrefix = false ∨ db.counter b.issuerPrefix b.extension = none then
      (b.refused "prefix_unknown", none)
    else
      match b.serials with
      | none => (b.refused "range_invalid", none)
      | some (fromSerial, toSerial) =>
        if db.overlapping b.issuerPrefix b.extension fromSerial toSerial then
          (b.refused "block_overlap", none)
        else if (db.requestedBlock deviceId b.id).isSome then
          (b.refused "block_mismatch", none)
        else (⟨b.id, .registered, none⟩, some (fromSerial, toSerial))

/-- The counter moves past `toSerial` if it was below. -/
def Db.raiseCounter (issuer : String) (extension toSerial rev : ℕ) (db : Db) : Db :=
  { db with
    counters := Table.update
      (fun x => x.is issuer extension && decide (x.nextSerial < toSerial + 1))
      (fun x => { x with nextSerial := toSerial + 1, rev }) db.counters }

/-- Store a block under the device, with its own id as the request id. -/
def registerBlock (k : Crates) (env : Env) (deviceId : String) (b : KnownBlock)
    (fromSerial toSerial : ℕ) : Host Unit := do
  requireReady
  let rev ← batchRevision
  insertBlock ⟨b.id, b.issuerPrefix, b.extension, deviceId, b.id, fromSerial, toSerial, none,
    env.timestamp k, none⟩
  execute (Db.raiseCounter b.issuerPrefix b.extension toSerial rev)
  record ⟨env.timestamp k, .device deviceId, "sscc.block.register", some "sscc_block", some b.id,
    true, blockDetails b.issuerPrefix b.extension b.fromSerial b.toSerial⟩

/-- The blocks of a request, in order. -/
def registerAll (k : Crates) (env : Env) (deviceId : String) :
    List KnownBlock → Host (List KnownBlockResult)
  | [] => pure []
  | b :: rest => do
    let (result, serials) ← select (Db.decideBlock deviceId b)
    Txn.forSome serials fun s => registerBlock k env deviceId b s.1 s.2
    let results ← registerAll k env deviceId rest
    pure (result :: results)

def Db.markEpoch (deviceId epoch : String) (db : Db) : Db :=
  { db with
    devices := Table.update (fun d => d.id = deviceId ∧ d.knownBlocksEpoch ≠ some epoch)
      (fun d => { d with knownBlocksEpoch := some epoch }) db.devices }

/-- `POST /v1/device/sscc/blocks/known`. -/
def registerKnownBlocks (k : Crates) (env : Env) (deviceId : String) (blocks : List KnownBlock)
    (more : Bool) : Host (List KnownBlockResult) := do
  Txn.assert (blocks.length ≤ maxBlocks ∧ ¬(blocks = [] ∧ more = true)) (.validation "blocks")
  Txn.forSome (blocks.findIdx? fun b => !clientUuid b.id) fun i =>
    Txn.fail (.validation ("blocks." ++ toString i ++ ".id"))
  let _ ← requireKinds env deviceId [.station, .handheld]
  let epoch ← Txn.orFail (← select fun db => db.site.restoreEpoch) (.conflict "no_restore")
  let results ← registerAll k env deviceId blocks
  Txn.onlyIf (more = false) (execute (Db.markEpoch deviceId epoch))
  pure results

/-! ## The office -/

structure SsccCounterUpdate where
  nextSerial : ℕ
  expectedRev : ℕ

/-- The office neither lists nor moves the demo prefix's counters while the demo product exists. -/
def Db.isDemoCounter (issuer : String) (db : Db) : Bool :=
  decide (issuer = demoPrefix) && db.products.any (·.demo)

def ssccSerial (extension : ℕ) (issuer : String) (serial : ℕ) : Bool :=
  decide (firstSerial extension ≤ serial ∧ serial < serialCapacity issuer)

/-- The counter moves forward to a serial of its prefix. -/
def advanceCounter (k : Crates) (env : Env) (userId issuer : String) (extension : ℕ)
    (current : CounterRow) (u : SsccCounterUpdate) : Host CounterRow := do
  Txn.assert (current.nextSerial ≤ u.nextSerial) (.ssccBelowFloor current.nextSerial)
  Txn.assert (ssccSerial extension issuer u.nextSerial = true) (.validation "nextSerial")
  let rev ← nextRevision
  execute (Db.setCounter issuer extension u.nextSerial rev)
  record ⟨env.timestamp k, .user userId, "sscc.counter.update", some "sscc_counter",
    some (issuer ++ "/" ++ toString extension), true,
    .obj [("changed", .arr [.str "nextSerial"]),
      ("nextSerial", .obj [("from", Json.ofNat current.nextSerial),
        ("to", Json.ofNat u.nextSerial)])]⟩
  pure ⟨issuer, extension, u.nextSerial, rev⟩

/-- `PUT /v1/office/sscc/{prefix}/{extension}`. -/
def putCounter (k : Crates) (env : Env) (userId issuer : String) (extension : ℕ)
    (u : SsccCounterUpdate) : Host CounterRow := do
  orError env.access
  let row ← select fun db =>
    if db.isDemoCounter issuer then none else db.counter issuer extension
  let current ← Txn.orFail row .notFound
  Txn.assert (current.rev = u.expectedRev) (.staleRevision current.rev)
  if u.nextSerial = current.nextSerial then pure current
  else advanceCounter k env userId issuer extension current u

structure BlockSizesUpdate where
  boxBlockSize : ℕ
  palletBlockSize : ℕ
  expectedRev : ℕ

/-- What an update changed, as the audit log names it. -/
def updateDetails (fields : List (String × ℕ × ℕ)) : Json :=
  let changed := fields.filter fun f => f.2.1 ≠ f.2.2
  .obj (changed.map (fun f => (f.1, .obj [("from", Json.ofNat f.2.1), ("to", Json.ofNat f.2.2)])) ++
    [("changed", .arr (changed.map fun f => .str f.1))])

/-- The sizes within their limits, written. -/
def setBlockSizes (k : Crates) (env : Env) (userId : String) (site : Site)
    (u : BlockSizesUpdate) : Host Unit := do
  let rev ← nextRevision
  execute fun db => { db with
    site := { db.site with
      boxBlockSize := u.boxBlockSize, palletBlockSize := u.palletBlockSize, rev } }
  record ⟨env.timestamp k, .user userId, "sscc.block_sizes.update", some "site", some "1", true,
    (updateDetails [("boxBlockSize", site.boxBlockSize, u.boxBlockSize),
      ("palletBlockSize", site.palletBlockSize, u.palletBlockSize)]).canon⟩

/-- `PUT /v1/office/sscc/block-sizes`. -/
def putBlockSizes (k : Crates) (env : Env) (userId : String) (u : BlockSizesUpdate) :
    Host Unit := do
  Txn.assert (1 ≤ u.boxBlockSize ∧ u.boxBlockSize ≤ 100000) (.validation "boxBlockSize")
  Txn.assert (1 ≤ u.palletBlockSize ∧ u.palletBlockSize ≤ 10000) (.validation "palletBlockSize")
  orError env.access
  let site ← select fun db => db.site
  Txn.assert (site.rev = u.expectedRev) (.staleRevision site.rev)
  if u.boxBlockSize = site.boxBlockSize ∧ u.palletBlockSize = site.palletBlockSize then pure ()
  else setBlockSizes k env userId site u

end Markiro
