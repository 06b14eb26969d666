import Markiro.Host.PalletEvents

/-!
# The box registry

`GET /v1/device/box-registry` (`box_registry.rs`): the closed boxes a handheld builds pallets of, as
a delta by the boxes' change time. A walk reads pages of `(changedAt, sscc)` after a cursor, all
under the `until` its first page named: the newest change its snapshot held.
-/

namespace Markiro

/-! ## Items -/

/-- One closed box as a device is told of it: where it stands, or that it is gone. -/
inductive BoxRegistryItem where
  | upsert (sscc updatedAt boxId productId : String) (bottleCount : Option ℕ)
      (palletId palletSscc : Option String) (palletActive : Bool) (closedAt : Option String)
      (productionDate : String)
  | remove (sscc updatedAt : String)
  deriving DecidableEq

def BoxRegistryItem.sscc : BoxRegistryItem → String
  | .upsert sscc .. => sscc
  | .remove sscc _ => sscc

/-- A closed box joined with its shift, its production pallet and the warehouse pallet it stands
on. -/
structure RegistryRow where
  sscc : String
  changedAt : String
  id : String
  productId : String
  itemCountReported : Option ℕ
  closedAt : Option String
  disassembledAt : Option String
  productionDate : String
  prodPallet : Option PalletRow
  whPallet : Option WarehousePalletRow

/-- A `u32`, or nothing. -/
def asCount (n : ℕ) : Option ℕ := if n < 2 ^ 32 then some n else none

/-- A warehouse pallet outranks a taken-apart production one; a standing production pallet holds
its boxes from the box's close. -/
def RegistryRow.standsOn (r : RegistryRow) : Option String × Option String × Bool :=
  match r.whPallet, r.prodPallet with
  | some w, _ => (some w.id, w.sscc, true)
  | none, some p => if p.disassembledAt.isNone then (some p.id, p.sscc, true) else (none, none, false)
  | none, none => (none, none, false)

def RegistryRow.item (r : RegistryRow) : BoxRegistryItem :=
  if r.disassembledAt.isSome then .remove r.sscc r.changedAt
  else .upsert r.sscc r.changedAt r.id r.productId (r.itemCountReported.bind asCount)
    r.standsOn.1 r.standsOn.2.1 r.standsOn.2.2 r.closedAt r.productionDate

/-! ## The query -/

/-- The row of a box, when it is closed and stamped. -/
def Db.registryRow (db : Db) (x : BoxRow) : Option RegistryRow := do
  let sscc ← x.sscc
  let changedAt ← x.changedAt
  let s ← db.shifts.find? fun s => s.id = x.shiftId
  some {
    sscc := sscc
    changedAt := changedAt
    id := x.id
    productId := s.productId
    itemCountReported := x.itemCountReported
    closedAt := x.closedAt
    disassembledAt := x.disassembledAt
    productionDate := s.productionDate
    prodPallet := db.palletOf x
    whPallet := (db.stays.find? fun w => w.boxSscc = sscc ∧ w.live).bind fun w =>
      db.warehousePallets.find? fun p => p.id = w.palletId }

/-- The order of the pages: by change time, then by SSCC. -/
def keyLt (a b : String × String) : Bool := decide (a.1 < b.1 ∨ a.1 = b.1 ∧ a.2 < b.2)

def RegistryRow.key (r : RegistryRow) : String × String := (r.changedAt, r.sscc)

/-- The window of a page; a walk without `since` passes over the boxes taken apart. -/
def RegistryRow.inWindow (since until_ : String) (after : String × String) (r : RegistryRow) :
    Bool :=
  decide (since ≤ r.changedAt ∧ r.changedAt ≤ until_) &&
    (decide (since ≠ "") || r.disassembledAt.isNone) && keyLt after r.key

/-- The rows of a window in the order of the pages. -/
def Db.registryRows (since until_ : String) (after : String × String) (db : Db) :
    List RegistryRow :=
  ((db.boxes.filterMap db.registryRow).filter (RegistryRow.inWindow since until_ after)).insertionSort
    fun a b => keyLt b.key a.key = false

/-! ## Pages -/

structure RegistryQuery where
  since : Option String
  «until» : Option String
  cursor : Option String
  limit : Option ℕ

structure BoxRegistryPage where
  «until» : String
  items : List BoxRegistryItem
  nextCursor : Option String
  restoreEpoch : Option String

def defaultLimit : ℕ := 250

def maxLimit : ℕ := 500

/-- The window's first moment when a device has none. -/
def epoch : String := "1970-01-01T00:00:00Z"

/-- The texts on the two sides of the first `c`. -/
def splitOnce (c : Char) (s : String) : Option (String × String) :=
  match s.toList.span (· ≠ c) with
  | (_, []) => none
  | (a, _ :: b) => some (String.ofList a, String.ofList b)

/-- A time as the host writes it. -/
def checkTimestamp (k : Crates) (field text : String) : Except ApiError Unit :=
  if (parseTimestamp k text).isSome then .ok () else .error (.validation field)

/-- The key a cursor names. -/
def readCursor (k : Crates) (cursor : String) : Option (String × String) :=
  (splitOnce '|' cursor).filter fun p => (parseTimestamp k p.1).isSome && decide (byteLen p.2 = 18)

def RegistryRow.cursor (r : RegistryRow) : String := r.changedAt ++ "|" ++ r.sscc

/-- The window's end on the first page: the newest change of the snapshot, never below `since`. -/
def Db.registryUntil (since : Option String) (db : Db) : String :=
  match db.newestChange with
  | some newest => max newest (since.getD epoch)
  | none => since.getD epoch

/-- The window's end and the key to read after: the first page names the end, the next repeat
it. -/
def RegistryQuery.window (k : Crates) (q : RegistryQuery) (db : Db) :
    Except ApiError (String × String × String) :=
  match q.cursor, q.until with
  | none, some _ => .error (.validation "until")
  | some _, none => .error (.validation "until")
  | none, none => .ok (db.registryUntil q.since, "", "")
  | some cursor, some until_ => do
    checkTimestamp k "until" until_
    match readCursor k cursor with
    | some after => .ok (until_, after)
    | none => .error (.validation "cursor")

/-- The page of the rows: at most `limit` of them, and a cursor when there are more. -/
def registryPage (until_ : String) (limit : ℕ) (restoreEpoch : Option String)
    (rows : List RegistryRow) : BoxRegistryPage where
  «until» := until_
  items := (rows.take limit).map RegistryRow.item
  nextCursor := if limit < rows.length then (rows.take limit).getLast?.map RegistryRow.cursor else none
  restoreEpoch := restoreEpoch

/-- `GET /v1/device/box-registry`, on one snapshot of the tables. -/
def boxRegistry (k : Crates) (q : RegistryQuery) (db : Db) : Except ApiError BoxRegistryPage := do
  let limit := q.limit.getD defaultLimit
  if limit < 1 ∨ maxLimit < limit then .error (.validation "limit")
  else do
    q.since.elim (.ok ()) (checkTimestamp k "since")
    let (until_, after) ← q.window k db
    .ok (registryPage until_ limit db.site.restoreEpoch
      ((db.registryRows (q.since.getD "") until_ after).take (limit + 1)))

end Markiro
