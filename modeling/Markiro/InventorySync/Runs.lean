import Markiro.InventorySync.Corrections

/-!
# Runs of one inventory

Every transaction locks the row of the inventory first, so a run of the server is a list of calls,
each of which is served whole or leaves the rows as they were.
-/

namespace Markiro.InventorySync

/-- What the calls of one inventory share. -/
structure Site where
  digests : Digests
  task : Task
  ids : CorrectionIds CorrectionRequest CorrectionBatchRequest

abbrev Site.Batch (s : Site) := { b : EventBatch // b.Accepted s.digests.payload }

/-- A call, with the clock and the ids its transaction reads. -/
inductive Call (s : Site) where
  | ingest (env : Env) (deviceId : Uuid) (b : s.Batch)
  | replay (env : Env) (deviceId : Uuid) (b : s.Batch) (lateEventId : Uuid)
  | correct (changeId : Hash → Uuid) (changedAt : Stamp) (input : CorrectionRequest)
  | correctBatch (changeId : Hash → Uuid) (changedAt : Stamp) (input : CorrectionBatchRequest)
  | close (blocked emergency : Bool)
  | reopen
  | complete (ready : Bool)
  /-- What devices that join and leave, and the blocks they are given, make of their rows. -/
  | members (participants : List Participant) (ssccBlocks : List SsccBlock)

variable {s : Site}

/-- The rows after the call, where it is not refused. -/
def Call.serve (t : Tables) : Call s → Except Refusal Tables
  | .ingest env deviceId b =>
    (ingestBatch s.digests s.task env deviceId b.1 none t).map (·.2)
  | .replay env deviceId b lateEventId =>
    (ingestBatch s.digests s.task env deviceId b.1 (some lateEventId) t).map (·.2)
  | .correct changeId changedAt input =>
    (InventorySync.correct s.ids changeId changedAt input t).map (·.2)
  | .correctBatch changeId changedAt input =>
    (InventorySync.correctBatch s.ids changeId changedAt input t).map (·.2)
  | .close blocked emergency => InventorySync.close blocked emergency t
  | .reopen => InventorySync.reopen t
  | .complete ready => InventorySync.complete ready t
  | .members participants ssccBlocks =>
    t.change fun r => { r with participants := participants, ssccBlocks := ssccBlocks }

/-- A refused call leaves nothing behind. -/
def Call.after (t : Tables) (c : Call s) : Tables :=
  match c.serve t with
  | .ok t' => t'
  | .error _ => t

/-- An inventory that has just started, with the devices that have joined it. -/
structure Start where
  participants : List Participant
  ssccBlocks : List SsccBlock

def Start.rows (start : Start) : Rows where
  status := .running
  resultRevision := 0
  participants := start.participants
  scanBatches := []
  scanEvents := []
  claimOutcomes := []
  codeResults := []
  progressChanges := []
  boxes := []
  items := []
  printAttempts := []
  ssccBlocks := start.ssccBlocks
  corrections := []
  correctionBatches := []
  lateEvents := []

theorem Start.rows_kept (start : Start) : start.rows.Kept := by
  refine ⟨?_, ?_, ?_, ?_, ?_⟩ <;> constructor <;> simp [Start.rows, Table.Unique]

def Start.tables (start : Start) : Tables := { toRows := start.rows, kept := start.rows_kept }

/-- The rows after the calls, in order. -/
def run (start : Start) (calls : List (Call s)) : Tables := calls.foldl Call.after start.tables

theorem run_inv {P : Tables → Prop} {start : Start} (h0 : P start.tables)
    (hstep : ∀ (c : Call s) t t', P t → c.serve t = .ok t' → P t') (calls : List (Call s)) :
    P (run start calls) := by
  unfold run
  have key : ∀ t, P t → P (calls.foldl Call.after t) := by
    induction calls with
    | nil => exact fun t ht => ht
    | cons c calls ih =>
      refine fun t ht => ih _ ?_
      unfold Call.after
      cases hc : c.serve t with
      | ok t' => exact hstep c t t' ht hc
      | error e => exact ht
  exact key _ h0

/-! ## A sample inventory -/

namespace Sample

open Utf16

/-- A text of one digit, as long as a digest. -/
def hash (n : ℕ) : Hash :=
  ⟨List.replicate 64 (.ofNat (48 + n % 10)), List.length_replicate, by
    have hdigit : ∀ k < 10, isHexDigit (.ofNat (48 + k)) = true := by decide
    refine List.all_eq_true.2 fun u hu => ?_
    rw [List.eq_of_mem_replicate hu]
    exact hdigit _ (Nat.mod_lt _ (by decide))⟩

/-- Digests that tell the sample's payloads and codes apart. -/
def digests : Digests where
  payload := fun p => hash p.sequenceCeiling
  km := fun key => hash (digitOf (key.getLast?.getD 48))

def date : CivilDate := ⟨2026, 7, 1, by decide⟩

def now : Stamp := ⟨64000000000000, by decide +kernel⟩

/-- `2026-07-01T12:MM:00.000Z`. -/
def instant (minute : Fin 60) : IsoDatetime where
  year := 2026
  month := 7
  day := 1
  hour := 12
  minute := minute
  seconds := some (0, [0, 0, 0])
  offset := none
  valid := {
    year := by decide
    month := by decide
    day := by decide
    time := ⟨by decide, minute.2⟩
    seconds := by
      rintro x ⟨⟩
      decide
    offset := by rintro x ⟨⟩ }

def gtin : Units := encode "04600000000015"

/-- The text of the mark with this digit as its serial. -/
def raw (serial : ℕ) : Units := encode "01" ++ gtin ++ encode "21" ++ numeral serial

def task : Task where
  inventoryId := 1
  snapshotId := 2
  gtin14 := gtin
  productionDateFrom := date
  productionDateTo := date
  mode := .repack
  boxCapacity := some 3
  codes := [⟨hash 1, none, true, false⟩, ⟨hash 2, none, true, false⟩]
  distinct := by decide

def site : Site where
  digests := digests
  task := task
  ids := ⟨fun key => key.length, fun _ => 0, fun _ id => id, fun _ => hash 0, fun _ => hash 0⟩

def start : Start where
  participants := [⟨7, 8, none⟩, ⟨9, 8, none⟩]
  ssccBlocks :=
    [⟨1, 7, encode "460000000", 0, 1, 2, none⟩, ⟨2, 9, encode "460000000", 0, 3, 4, none⟩]

def env : Env where
  now := now
  resultId := fun h => digitOf (h.1.head?.getD 48)
  changeId := fun h => digitOf (h.1.head?.getD 48)
  lateEventId := 0
  elsewhere := ⟨[], [], [], [], []⟩

def event (n : ℕ) (scannedAt : IsoDatetime) (kind : EventKind) (identity : Units)
    (codeHash : Option Hash) (canonicalRaw : Option Units) (verdict : LocalVerdict)
    (m : RepackMutation) : Event :=
  ⟨n, n, 8, scannedAt, kind, identity, codeHash, canonicalRaw, some date, verdict, some m⟩

def oldSscc : SsccText := ⟨encode "046000000999999994", by decide⟩

def newSscc : ℕ → SsccText
  | 1 => ⟨encode "046000000000000015", by decide⟩
  | 2 => ⟨encode "046000000000000022", by decide⟩
  | _ => ⟨encode "046000000000000039", by decide⟩

def opening (n box : ℕ) : Event :=
  event n (instant 0) .oldBox (encode "old_box:" ++ oldSscc.1) none (some oldSscc.1) .unknown
    ⟨box, .openBox oldSscc (newSscc box) 3 date⟩

/-- The code goes into the box. -/
def adding (n : ℕ) (scannedAt : IsoDatetime) (box serial position : ℕ) : Event :=
  event n scannedAt .item (encode "item:" ++ (hash serial).1) (some (hash serial))
    (some (raw serial)) .expected ⟨box, .addItem n position false⟩

def resolving (n box : ℕ) : Event :=
  event n (instant 3) .repackAction (encode "repack_action:resolve-conflict:" ++ uuidText box) none
    none .repackAction ⟨box, .resolveConflict (instant 3)⟩

/-- The batch of these events under the digest of its payload. -/
def batch (batchId : String) (events : List Event) : EventBatch :=
  let ceiling := (events.getLast?.map (·.deviceSequence)).getD 0
  { snapshotId := 2
    sequenceCeiling := ceiling
    pendingEventCount := events.length
    openBoxCount := 1
    events := events
    batchId := encode batchId
    payloadDigest := digests.payload ⟨2, ceiling, events.length, 1, events⟩ }

/-- A box of two codes. -/
def packed : site.Batch :=
  ⟨batch "packed" [opening 1 1, adding 2 (instant 1) 1 1 1, adding 3 (instant 2) 1 2 2],
    by decide +kernel⟩

end Sample

end Markiro.InventorySync
