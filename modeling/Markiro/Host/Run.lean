import Markiro.Host.Refine.Requests

/-!
# The host

The requests the host serves, one write transaction at a time, and its runs. A request that fails
leaves the tables as they were; one that is answered made a sequence of changes at one moment of the
clock for each of its records (`step_arrives`), so what every change preserves holds along every run
(`run_invariant`).
-/

namespace Markiro

/-! ## Requests -/

inductive Request where
  | facts (deviceId : String) (records : List Json)
  | palletEvents (deviceId : String) (records : List Json)
  | issueBlock (deviceId : String) (request : SsccBlockRequest)
  | registerKnownBlocks (deviceId : String) (blocks : List KnownBlock) (more : Bool)
  | putCounter (userId issuer : String) (extension : ℕ) (update : SsccCounterUpdate)
  | putBlockSizes (userId : String) (update : BlockSizesUpdate)
  | createPallet (deviceId userId requestId : String) (codes : List String)
  | applyDocument (userId documentId docNo : String) (lines : List (Option String))
  | enterShift (deviceId shiftId : String) (supports : List String)
  | leaveShift (deviceId shiftId : String) (joinedRev : Option ℕ)
  | closeShift (userId shiftId reason : String) (expectedRev : ℕ)
  | revokeDevice (userId deviceId : String)

inductive Answer where
  | receipts (receipts : List FactReceipt)
  | block (block : SsccBlock)
  | knownBlocks (results : List KnownBlockResult)
  | counter (row : CounterRow)
  | created (pallet : OfficePalletCreated)
  | document (answer : DocumentAnswer)
  | entered (entered : Entered)
  | done

/-- The work of a request inside its write transaction. -/
def handle (k : Crates) (env : Env) : Request → Host Answer
  | .facts deviceId records => do
    pure (.receipts (← receiveFacts k env deviceId records))
  | .palletEvents deviceId records => do
    pure (.receipts (← receiveEvents k env deviceId records))
  | .issueBlock deviceId request => do
    pure (.block (← issueBlock k env deviceId request))
  | .registerKnownBlocks deviceId blocks more => do
    pure (.knownBlocks (← registerKnownBlocks k env deviceId blocks more))
  | .putCounter userId issuer extension update => do
    pure (.counter (← putCounter k env userId issuer extension update))
  | .putBlockSizes userId update => do
    putBlockSizes k env userId update
    pure .done
  | .createPallet deviceId userId requestId codes => do
    pure (.created (← create k env deviceId userId requestId codes))
  | .applyDocument userId documentId docNo lines => do
    pure (.document (← applyDocument k env userId documentId docNo lines))
  | .enterShift deviceId shiftId supports => do
    pure (.entered (← enterShift k env deviceId shiftId supports))
  | .leaveShift deviceId shiftId joinedRev => do
    leaveShift k env deviceId shiftId joinedRev
    pure .done
  | .closeShift userId shiftId reason expectedRev => do
    closeShift k env userId shiftId reason expectedRev
    pure .done
  | .revokeDevice userId deviceId => do
    revokeDevice k env userId deviceId
    pure .done

/-! ## Runs -/

/-- A request and what it meets outside the database. -/
structure Call where
  env : Env
  request : Request

/-- A write transaction as it begins. -/
def Batch.begin (db : Db) : Batch := ⟨db, none, 0⟩

def serve (k : Crates) (c : Call) (db : Db) : Except ApiError Answer × Db :=
  match handle k c.env c.request (Batch.begin db) with
  | .done answer b => (.ok answer, b.db)
  | .refused _ _ => (.error .internal, db)
  | .failed e => (.error e, db)

/-- The tables after a request. -/
def step (k : Crates) (db : Db) (c : Call) : Db := (serve k c db).2

/-- The tables after a sequence of requests. -/
def run (k : Crates) (db : Db) (calls : List Call) : Db := calls.foldl (step k) db

/-! ## What a request can do -/

variable {k : Crates} {now : String} {db db' : Db}

theorem handle_files {env : Env} {request : Request} {answer : Answer} {b b' : Batch}
    (hfacts : ∀ deviceId records, request ≠ .facts deviceId records)
    (h : handle k env request b = .done answer b') :
    Files k (env.timestamp k) b.db b'.db := by
  cases request <;>
    simp only [handle, Txn.bind_done, Txn.pure_done] at h <;>
    obtain ⟨_, _, h, -, rfl⟩ := h
  case facts => exact absurd rfl (hfacts _ _)
  case palletEvents => exact receiveEvents_files h
  case issueBlock => exact (issueBlock_writes h).files
  case registerKnownBlocks => exact (registerKnownBlocks_writes h).files
  case putCounter => exact (putCounter_writes h).files
  case putBlockSizes => exact (putBlockSizes_writes h).files
  case createPallet => exact (create_writes h).files
  case applyDocument => exact (applyDocument_writes h).files
  case enterShift => exact (enterShift_writes h).files
  case leaveShift => exact (leaveShift_writes h).files
  case closeShift => exact (closeShift_writes h).files
  case revokeDevice => exact (revokeDevice_writes h).files

/-! ## One record at a time -/

/-- The tables before and after one arrival: a record of a batch of facts, or any other request. -/
inductive Arrives (k : Crates) : Db → Db → Prop
  | record {env : Env} {deviceId : String} {value : Json} {receipt : FactReceipt} {b b' : Batch} :
      receive k env deviceId value b = .done receipt b' → Arrives k b.db b'.db
  | request {env : Env} {request : Request} {answer : Answer} {b b' : Batch} :
      (∀ deviceId records, request ≠ .facts deviceId records) →
      handle k env request b = .done answer b' → Arrives k b.db b'.db

theorem Arrives.cases (h : Arrives k db db') : ∃ now,
    (∃ mid, Received k now db mid ∧ (db' = mid ∨ Filed mid db')) ∨ Files k now db db' := by
  cases h with
  | record h => exact ⟨_, .inl (receive_received h)⟩
  | request hfacts h => exact ⟨_, .inr (handle_files hfacts h)⟩

theorem Arrives.changes (h : Arrives k db db') : ∃ now, Changes k now db db' := by
  obtain ⟨now, ⟨mid, hr, rfl | hf⟩ | h⟩ := h.cases
  · exact ⟨now, hr.changes⟩
  · exact ⟨now, hr.changes.tail (.filed hf)⟩
  · exact ⟨now, h.changes⟩

/-- One record in a batch of its own: the tables after it, unless it failed. -/
def deliver (k : Crates) (env : Env) (deviceId : String) (value : Json) (db : Db) : Option Db :=
  (receive k env deviceId value (Batch.begin db)).done?.map (·.2.db)

theorem Arrives.deliver {env : Env} {deviceId : String} {value : Json}
    (h : deliver k env deviceId value db = some db') : Arrives k db db' := by
  obtain ⟨x, hx, rfl⟩ := Option.map_eq_some_iff.1 h
  exact Arrives.record (b := Batch.begin db) (Txn.Outcome.done?_eq_some.1 hx)

/-- **A request is a sequence of arrivals.** -/
theorem step_arrives (db : Db) (c : Call) :
    Relation.ReflTransGen (Arrives k) db (step k db c) := by
  unfold step serve
  cases h : handle k c.env c.request (Batch.begin db) with
  | done answer b =>
    show Relation.ReflTransGen (Arrives k) (Batch.begin db).db b.db
    by_cases hfacts : ∀ deviceId records, c.request ≠ .facts deviceId records
    · exact .single (.request hfacts h)
    · simp only [not_forall, not_not] at hfacts
      obtain ⟨deviceId, records, hr⟩ := hfacts
      simp only [hr, handle, Txn.bind_done, Txn.pure_done] at h
      obtain ⟨_, _, h, -, rfl⟩ := h
      exact receiveFacts_chain (fun _ _ _ _ h => .record h) h
  | refused => exact .refl
  | failed => exact .refl

/-! ## Invariants -/

theorem Changes.invariant {P : Db → Prop}
    (hstep : ∀ {db db'}, Change k now db db' → P db → P db') (h : Changes k now db db')
    (hp : P db) : P db' := by
  induction h with
  | refl => exact hp
  | tail _ hc ih => exact hstep hc ih

theorem Arrives.invariant {P : Db → Prop}
    (hstep : ∀ {now db db'}, Change k now db db' → P db → P db') (h : Arrives k db db')
    (hp : P db) : P db' := by
  obtain ⟨now, h⟩ := h.changes
  exact h.invariant hstep hp

theorem step_invariant {P : Db → Prop}
    (hstep : ∀ {now db db'}, Change k now db db' → P db → P db') (c : Call) (hp : P db) :
    P (step k db c) := by
  have h := step_arrives (k := k) db c
  generalize step k db c = db' at h ⊢
  induction h with
  | refl => exact hp
  | tail _ ha ih => exact ha.invariant hstep ih

/-- **What every change preserves holds after every run.** -/
theorem run_invariant {P : Db → Prop}
    (hstep : ∀ {now db db'}, Change k now db db' → P db → P db') (hp : P db)
    (calls : List Call) : P (run k db calls) := by
  induction calls generalizing db with
  | nil => exact hp
  | cons c rest ih => exact ih (step_invariant hstep c hp)

/-! ## A sample site -/

namespace Sample

def station : String := "11111111-1111-4111-8111-111111111111"
def handheld : String := "11111111-1111-4111-8111-222222222222"
def office : String := "11111111-1111-4111-8111-333333333333"
def shift : String := "22222222-2222-4222-8222-222222222222"
def gtin : String := "04600000000008"
def code : String := "aaaaaaaaaaaaaaaaaaaaaaaaaaaaaaaaaaaaaaaaaaaaaaaaaaaaaaaaaaaaaaaa"

/-- Noon of the first of January, with everything allowed. -/
def env (request : String) : Env where
  now := ⟨⟨2024, 1, 1, 12, 0, 0, 0, 0, by decide⟩, rfl⟩
  uuids n := request ++ toString n
  access := .ok ()
  palletsFeature := .ok ()
  newShifts := .ok ()
  templates := .ok ()

/-- A shift of the sample product, opened by the station. -/
def shiftRow (mode : ShiftMode) : ShiftRow where
  id := shift
  status := .active
  mode := mode
  numberMonthKey := "2401"
  numberSeq := 1
  createdFrom := .office
  lineId := "line"
  productId := "product"
  productionDate := "2024-01-01"
  plannedQty := none
  palletsEnabled := true
  printsDuplicate := false
  snapshot := some ⟨gtin, "460000000"⟩
  openedAt := some "2024-01-01T08:00:00Z"
  ownerDeviceId := some station
  closedAt := none
  closedByKind := none
  closedBy := none
  closeReasonCode := none
  closeReasonText := none
  closeReasonMissing := false
  lateDataAt := none
  rev := 1

/-- A site with a station in an open shift, a handheld and an office, and no packs yet. -/
def site (mode : ShiftMode) : Db where
  revision := 1
  site := ⟨100, 50, 1, none, none, false⟩
  orgGln := "4600000000008"
  devices := [⟨station, .station, some "line", none, none⟩, ⟨handheld, .handheld, none, none, none⟩,
    ⟨office, .office, none, none, none⟩]
  lines := [⟨"line", 2⟩]
  products := [⟨"product", gtin, "Sample", false⟩]
  shifts := [shiftRow mode]
  participants := [newParticipant shift station "2024-01-01T08:00:00Z" 1]
  demoRemovedShifts := []
  shiftCloseEvents := []
  scans := []
  boxes := []
  boxItems := []
  codeOwners := []
  codeConflicts := []
  boxExceptions := []
  codeReleases := []
  unitLabelEvents := []
  pallets := []
  palletExceptions := []
  warehousePallets := []
  stays := []
  counters := []
  blocks := []
  factReceipts := []
  eventReceipts := []
  audit := []
  cloud := ⟨[], [], [], [], [], [], [], []⟩

def scanData (scannedAt : String) (boxId : Option String) : Json :=
  .obj ((boxId.map fun b => ("boxId", Json.str b)).toList ++ [
    ("code", .obj [("canonical", .str "code"), ("codeHash", .str code), ("gtin14", .str gtin),
      ("serial", .str "1")]),
    ("rawKind", .str "km"), ("rawLength", .number (.nat 10)), ("scannedAt", .str scannedAt),
    ("verdict", .str "ok")])

def scan (id scannedAt : String) (boxId : Option String) : Json :=
  .obj [("data", scanData scannedAt boxId), ("id", .str id), ("kind", .str "scan"),
    ("shiftId", .str shift)]

end Sample

end Markiro
