import Markiro.Domain.Gs1

/-!
# The SSCC numbers of the cloud

`sscc.service.ts` hands blocks of serials to the devices of a tenant from one counter for each issuer
prefix and extension digit; an administrator may move the counter, which revokes the blocks handed
out so far. The model keeps `sscc_counters` by its primary key, `sscc_blocks` in the order of their
insertion, and the columns of `shifts` and `station_devices` that a reseed looks at. A body of
statements gives the tables it has written so far together with what it returns or throws;
`transaction` takes the writes of a body that throws back, as the database does.
-/

namespace Markiro.CloudSscc

open Utf16

/-! ## Issuer prefixes -/

/-- The first nine digits of a GLN, `char(9)` in the tables. -/
structure IssuerPrefix where
  units : Units
  digits : units.all isDigit = true
  length : units.length = 9
  deriving DecidableEq

/-- `^\d{13}$`. -/
def isGln (gln : Units) : Bool := gln.all isDigit && gln.length == 13

/-! ## Tables -/

/-- The primary key of `sscc_counters`. -/
structure Key where
  tenantId : String
  issuerPrefix : IssuerPrefix
  extensionDigit : ℕ
  deriving DecidableEq

def boxExtensionDigit : ℕ := 0

def palletExtensionDigit : ℕ := 1

structure BlockRow extends Key where
  allocationOrder : ℕ
  deviceId : String
  fromSerial : ℕ
  toSerial : ℕ
  consumedThroughSerial : Option ℕ
  revokedAt : Option ℤ
  deriving DecidableEq

inductive ShiftStatus where
  | draft | active | closed
  deriving DecidableEq

inductive CreatedFrom where
  | admin | station
  deriving DecidableEq

structure ShiftRow where
  tenantId : String
  id : String
  status : ShiftStatus
  numberMonthKey : String
  numberSeq : ℕ
  createdFrom : CreatedFrom
  closedAt : Option ℤ
  deriving DecidableEq

structure DeviceRow where
  tenantId : String
  id : String
  name : String
  lastSeenAt : Option ℤ
  revokedAt : Option ℤ
  deriving DecidableEq

structure Tables where
  ssccCounters : Key → Option ℕ
  ssccBlocks : List BlockRow
  shifts : List ShiftRow
  stationDevices : List DeviceRow

/-- A database without a row. -/
def Tables.empty : Tables := ⟨fun _ => none, [], [], []⟩

/-- A counter's row written, by an insert or an update. -/
def setCounter (t : Tables) (k : Key) (nextSerial : ℕ) : Tables :=
  { t with ssccCounters := Function.update t.ssccCounters k (some nextSerial) }

def BlockRow.isOf (k : Key) (deviceId : String) (b : BlockRow) : Bool :=
  decide (b.toKey = k ∧ b.deviceId = deviceId)

def BlockRow.live (b : BlockRow) : Bool := b.revokedAt.isNone

/-! ## Answers and refusals -/

/-- A block as it is handed to a device. -/
structure SsccBlock where
  issuerPrefix : IssuerPrefix
  extensionDigit : ℕ
  fromSerial : ℕ
  toSerial : ℕ
  consumedThroughSerial : Option ℕ
  deriving DecidableEq

structure OrderedSsccBlock extends SsccBlock where
  allocationOrder : ℕ
  deriving DecidableEq

/-- Why a counter may not be reseeded now. -/
inductive SeedBlocker where
  | activeShift (shiftId shiftNumber : String)
  | deviceOutOfSync (deviceId deviceName : String)
  deriving DecidableEq

inductive Refusal where
  | domain (error : DomainError)
  | capacityExhausted (issuerPrefix : IssuerPrefix) (extensionDigit : ℕ)
  | orderExhausted
  | blockUnidentified
  | seedActiveShift (blockedBy : SeedBlocker)
  | seedDeviceOutOfSync (blockedBy : SeedBlocker)
  | seedBelowFloor (minSerial : ℕ)
  | seedFloorMoved

/-- What a body of statements has written, and what it returned or threw. -/
abbrev Body (α : Type) := Tables → Tables × Except Refusal α

/-- A body that throws has its writes taken back: a transaction, or a savepoint in one. -/
def transaction {α : Type} (body : Body α) : Body α := fun t =>
  match body t with
  | (t', .ok a) => (t', .ok a)
  | (_, .error e) => (t, .error e)

/-! ## Reseeding -/

/-- Boxes never take the serial 0. -/
def firstSerial (extensionDigit : ℕ) : ℕ := if extensionDigit = 0 then 1 else 0

/-- `MAX(consumed_through_serial)` over the blocks of a key, revoked ones too. -/
def printed (t : Tables) (k : Key) : Option ℕ :=
  ((t.ssccBlocks.filter (·.toKey = k)).filterMap (·.consumedThroughSerial)).max?

def seedFloor (t : Tables) (k : Key) : ℕ :=
  match printed t k with
  | none => firstSerial k.extensionDigit
  | some n => max (n + 1) (firstSerial k.extensionDigit)

/-- The counter's upsert with the floor in its `WHERE`; `none` when that excludes the update. -/
def atomicSeedSscc (t : Tables) (k : Key) (nextSerial : ℕ) : Option Tables :=
  match t.ssccCounters k with
  | none => some (setCounter t k nextSerial)
  | some _ =>
    if ((printed t k).map (· + 1)).getD (firstSerial k.extensionDigit) ≤ nextSerial then
      some (setCounter t k nextSerial)
    else none

def formatShiftNumber (s : ShiftRow) : String :=
  s.numberMonthKey ++ "-" ++ String.ofList ((Nat.toDigits 10 s.numberSeq).leftpad 3 '0') ++
    (if s.createdFrom = .station then "/S" else "")

/-- `(number_month_key, number_seq, id)`. -/
def ShiftRow.before (a b : ShiftRow) : Prop :=
  a.numberMonthKey < b.numberMonthKey ∨
    a.numberMonthKey = b.numberMonthKey ∧
      (a.numberSeq < b.numberSeq ∨ a.numberSeq = b.numberSeq ∧ a.id ≤ b.id)

instance (a b : ShiftRow) : Decidable (a.before b) := by
  unfold ShiftRow.before
  infer_instance

def isStale (t : Tables) (k : Key) (closedAt : ℤ) (d : DeviceRow) : Bool :=
  d.tenantId == k.tenantId && d.revokedAt.isNone && d.lastSeenAt.all (· < closedAt) &&
    t.ssccBlocks.any fun b => b.isOf k d.id && b.live

def findSeedBlocker (t : Tables) (k : Key) : Option SeedBlocker :=
  let own : List ShiftRow := t.shifts.filter (·.tenantId = k.tenantId)
  match ((own.filter (·.status = .active)).insertionSort ShiftRow.before).head? with
  | some s => some (.activeShift s.id (formatShiftNumber s))
  | none =>
    match (own.filterMap (·.closedAt)).max? with
    | none => none
    | some closedAt =>
      (t.stationDevices.find? (isStale t k closedAt)).map fun d => .deviceOutOfSync d.id d.name

def revokeBlocks (now : ℤ) (t : Tables) (k : Key) : Tables :=
  { t with ssccBlocks := t.ssccBlocks.map fun b =>
      if b.toKey = k ∧ b.live = true then { b with revokedAt := some now } else b }

/-- An administrator's `nextSerial`. The blocker is looked up again after the write, where only a
shift that was opened meanwhile counts; the blocks are revoked only when the value moved. -/
def seedCounter (now : ℤ) (k : Key) (nextSerial : ℕ) : Body Unit := fun t =>
  match findSeedBlocker t k with
  | some (.activeShift i n) => (t, .error (.seedActiveShift (.activeShift i n)))
  | some (.deviceOutOfSync i n) => (t, .error (.seedDeviceOutOfSync (.deviceOutOfSync i n)))
  | none =>
    if nextSerial < seedFloor t k then (t, .error (.seedBelowFloor (seedFloor t k)))
    else
      match atomicSeedSscc t k nextSerial with
      | none => (t, .error .seedFloorMoved)
      | some seeded =>
        match findSeedBlocker seeded k with
        | some (.activeShift i n) => (seeded, .error (.seedActiveShift (.activeShift i n)))
        | _ =>
          if t.ssccCounters k = some nextSerial then (seeded, .ok ())
          else (revokeBlocks now seeded k, .ok ())

/-! ## Allocation -/

def maxSafeInteger : ℕ := 2 ^ 53 - 1

/-- `max(allocation_order)` of a device's stream, plus one. -/
def nextOrder (t : Tables) (k : Key) (deviceId : String) : ℕ :=
  (((t.ssccBlocks.filter (·.isOf k deviceId)).map (·.allocationOrder)).max?).getD 0 + 1

/-- What the counter's upsert returns, `GREATEST(next_serial, first) + size` of a row that exists. -/
def rawNext (t : Tables) (k : Key) (size : ℕ+) : ℕ :=
  match t.ssccCounters k with
  | none => firstSerial k.extensionDigit + size
  | some next => max next (firstSerial k.extensionDigit) + size

/-- Reserves `size` serials and records who received them. -/
def allocate (k : Key) (deviceId : String) (size : ℕ+) : Body SsccBlock := fun t =>
  match ssccSerialCapacity k.issuerPrefix.units with
  | .error e => (t, .error (.domain e))
  | .ok capacity =>
    let rawNext := rawNext t k size
    let counted := setCounter t k rawNext
    let before := rawNext - size
    if capacity ≤ before then
      (counted, .error (.capacityExhausted k.issuerPrefix k.extensionDigit))
    else
      let toExclusive := min rawNext capacity
      let clamped := if toExclusive = rawNext then counted else setCounter counted k toExclusive
      let allocationOrder := nextOrder clamped k deviceId
      if maxSafeInteger < allocationOrder then (clamped, .error .orderExhausted)
      else
        ({ clamped with ssccBlocks := clamped.ssccBlocks ++
            [⟨k, allocationOrder, deviceId, before, toExclusive - 1, none, none⟩] },
          .ok ⟨k.issuerPrefix, k.extensionDigit, before, toExclusive - 1, none⟩)

/-- The device's block of the latest order among those that are not revoked. -/
def latestLive (t : Tables) (k : Key) (deviceId : String) : Option BlockRow :=
  (t.ssccBlocks.filter fun b => b.isOf k deviceId && b.live).argmax (·.allocationOrder)

/-- A serial of the block is still to be used. -/
def BlockRow.unspent (b : BlockRow) : Bool := b.consumedThroughSerial.all (· < b.toSerial)

/-- A fresh block with its order, read back by its range. -/
def allocateOrdered (k : Key) (deviceId : String) (size : ℕ+) : Body OrderedSsccBlock := fun t =>
  match allocate k deviceId size t with
  | (t', .error e) => (t', .error e)
  | (t', .ok block) =>
    match (t'.ssccBlocks.filter fun b => b.isOf k deviceId && b.fromSerial == block.fromSerial &&
        b.toSerial == block.toSerial).argmax (·.allocationOrder) with
    | none => (t', .error .blockUnidentified)
    | some created => (t', .ok ⟨block, created.allocationOrder⟩)

/-- A row as it is handed out. -/
def BlockRow.toOrdered (b : BlockRow) : OrderedSsccBlock :=
  ⟨⟨b.issuerPrefix, b.extensionDigit, b.fromSerial, b.toSerial, b.consumedThroughSerial⟩,
    b.allocationOrder⟩

/-- The device's own block as long as a serial of it is left, else a fresh one. -/
def allocateOrderedForBundle (k : Key) (deviceId : String) (size : ℕ+) : Body OrderedSsccBlock :=
  fun t =>
    match latestLive t k deviceId with
    | none => allocateOrdered k deviceId size t
    | some b =>
      if b.unspent then (t, .ok b.toOrdered) else allocateOrdered k deviceId size t

/-- The same without the order. -/
def allocateForBundle (k : Key) (deviceId : String) (size : ℕ+) : Body SsccBlock := fun t =>
  match allocateOrderedForBundle k deviceId size t with
  | (t', .error e) => (t', .error e)
  | (t', .ok block) => (t', .ok block.toSsccBlock)

/-- A use of the block is recorded, and at most `threshold` serials follow it. -/
def BlockRow.lowWater (threshold : ℕ) (b : BlockRow) : Bool :=
  b.consumedThroughSerial.any fun c : ℕ => decide ((b.toSerial : ℤ) - (c : ℤ) ≤ threshold)

/-- Reserves at most one successor when the latest box block reaches low water. -/
def topUpForDevice (tenantId : String) (issuerPrefix : IssuerPrefix) (deviceId : String)
    (size : ℕ+) (threshold : ℕ) : Body Unit := fun t =>
  let k : Key := ⟨tenantId, issuerPrefix, boxExtensionDigit⟩
  if (latestLive t k deviceId).all (·.lowWater threshold) then
    match transaction (allocate k deviceId size) t with
    | (t', .ok _) => (t', .ok ())
    | (t', .error (.capacityExhausted _ _)) => (t', .ok ())
    | (t', .error e) => (t', .error e)
  else (t, .ok ())

/-- Where a device's revoked blocks begin, without the starts of its live ones. -/
def revokedFromSerials (t : Tables) (k : Key) (deviceId : String) : List ℕ :=
  (((t.ssccBlocks.filter fun b => b.isOf k deviceId && !b.live &&
      !(t.ssccBlocks.any fun l => l.isOf k deviceId && l.fromSerial == b.fromSerial && l.live)).map
    (·.fromSerial)).insertionSort (· ≤ ·)).dedup

/-! ## Consumption -/

/-- `GREATEST(COALESCE(consumed_through_serial, -1), serial)`. -/
def raiseTo (consumed : Option ℕ) (serial : ℕ) : Option ℕ := some (max (consumed.getD 0) serial)

/-- The block is one of a parsed number's prefix and digit, and its range covers the serial. -/
def BlockRow.covers (tenantId : String) (p : ParsedSscc) (b : BlockRow) : Bool :=
  decide (b.tenantId = tenantId ∧ b.issuerPrefix.units = p.gs1Prefix ∧
    b.extensionDigit = p.extensionDigit ∧ b.fromSerial ≤ p.serial ∧ p.serial ≤ b.toSerial)

def issuerPrefixLength : ℚ := 9

/-- The blocks that cover the serial of a closed box's SSCC are consumed through it. -/
def recordConsumedSerial (tenantId : String) (sscc : Units) : Body Unit := fun t =>
  match parseSscc sscc issuerPrefixLength with
  | .error e => (t, .error (.domain e))
  | .ok none => (t, .ok ())
  | .ok (some p) =>
    ({ t with ssccBlocks := t.ssccBlocks.map fun b =>
        if b.covers tenantId p then
          { b with consumedThroughSerial := raiseTo b.consumedThroughSerial p.serial }
        else b }, .ok ())

/-! ## Calls -/

inductive Call where
  | allocate (k : Key) (deviceId : String) (size : ℕ+)
  | allocateOrderedForBundle (k : Key) (deviceId : String) (size : ℕ+)
  | topUpForDevice (tenantId : String) (issuerPrefix : IssuerPrefix) (deviceId : String) (size : ℕ+)
      (threshold : ℕ)
  | recordConsumedSerial (tenantId : String) (sscc : Units)
  | seedCounter (now : ℤ) (k : Key) (nextSerial : ℕ)

/-- The statements of a call, its answer left out. -/
def Call.body : Call → Body Unit
  | .allocate k deviceId size => fun t =>
    (CloudSscc.allocate k deviceId size t).map id (·.map fun _ => ())
  | .allocateOrderedForBundle k deviceId size => fun t =>
    (CloudSscc.allocateOrderedForBundle k deviceId size t).map id (·.map fun _ => ())
  | .topUpForDevice tenantId issuerPrefix deviceId size threshold =>
    CloudSscc.topUpForDevice tenantId issuerPrefix deviceId size threshold
  | .recordConsumedSerial tenantId sscc => CloudSscc.recordConsumedSerial tenantId sscc
  | .seedCounter now k nextSerial => CloudSscc.seedCounter now k nextSerial

def serve (c : Call) : Body Unit := transaction c.body

end Markiro.CloudSscc
