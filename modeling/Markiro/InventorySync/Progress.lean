import Markiro.Lib.Cursor
import Markiro.InventorySync.Corrections

/-!
# The progress feed

`progress` of `station-inventory-sync.service.ts` reads the changes of the codes and the corrections
of the boxes as one stream; `applyInventoryProgressPage` of the station's `inventory-sync.ts` keeps
the cursor and the revision a page ends with.
-/

namespace Markiro.InventorySync

open Results

/-! ## The stream -/

inductive StreamKind where
  | claim | correction | removeItem | invalidateBox | reprint
  deriving DecidableEq

structure StreamRow where
  id : Uuid
  resultRevision : ℕ
  kind : StreamKind
  codeHash : Option Hash
  classification : Option CodeClassification
  observedProductionDate : Option CivilDate
  winningEventId : Option Uuid
  winningDeviceId : Option Uuid
  winningScannedAt : Option Stamp
  resultId : Option Uuid
  boxId : Option Uuid
  ownerDeviceId : Option Uuid
  effectAt : Stamp
  changedAt : Stamp
  deriving DecidableEq

def ProgressKind.stream : ProgressKind → StreamKind
  | .claim => .claim
  | .correction => .correction

/-- The half of the union that reads `inventory_progress_changes`. -/
def ProgressChange.streamRow (c : ProgressChange) : StreamRow where
  id := c.id
  resultRevision := c.resultRevision
  kind := c.kind.stream
  codeHash := some c.codeHash
  classification := some c.classification
  observedProductionDate := c.observedProductionDate
  winningEventId := some c.winningEventId
  winningDeviceId := some c.winningDeviceId
  winningScannedAt := some c.winningScannedAt
  resultId := none
  boxId := none
  ownerDeviceId := none
  effectAt := c.changedAt
  changedAt := c.changedAt

def CorrectionAction.stream : CorrectionAction → Option StreamKind
  | .removeItem => some .removeItem
  | .invalidateBox => some .invalidateBox
  | .reprint => some .reprint
  | .voidScan | .restoreScan | .changeDate => none

/-- The half of the union that reads `inventory_corrections`, joined with the code's row and the
box. -/
def Correction.streamRow (r : Rows) (c : Correction) : Option StreamRow :=
  c.action.stream.map fun kind =>
    { id := c.id
      resultRevision := c.resultRevision
      kind := kind
      codeHash := (r.codeResults.find? fun x => some x.id = c.targetCodeResultId).map (·.codeHash)
      classification := none
      observedProductionDate := none
      winningEventId := none
      winningDeviceId := none
      winningScannedAt := none
      resultId := c.targetCodeResultId
      boxId := c.targetRepackBoxId
      ownerDeviceId := (r.boxes.find? fun b => some b.id = c.targetRepackBoxId).map (·.ownerDeviceId)
      effectAt := c.effectAt
      changedAt := c.createdAt }

def stream (r : Rows) : List StreamRow :=
  r.progressChanges.map (·.streamRow) ++ r.corrections.filterMap (·.streamRow r)

/-! ## Places -/

def ProgressCursor.place (c : ProgressCursor) : ℕ ×ₗ ℕ := toLex (c.revision, c.id)

theorem ProgressCursor.place_injective : Function.Injective ProgressCursor.place := by
  rintro ⟨r, i⟩ ⟨r', i'⟩ h
  obtain ⟨rfl, rfl⟩ := Prod.mk.inj (toLex_inj.1 h)
  rfl

instance : LinearOrder ProgressCursor :=
  LinearOrder.lift' ProgressCursor.place ProgressCursor.place_injective

theorem ProgressCursor.lt_iff {a b : ProgressCursor} : a < b ↔ a.before b :=
  Prod.Lex.lt_iff

def StreamRow.place (x : StreamRow) : ProgressCursor := ⟨x.resultRevision, x.id⟩

/-! ## Pages -/

def StreamRow.winner (x : StreamRow) (codeHash : Hash) : Option ClaimWinner :=
  match x.winningEventId, x.winningDeviceId, x.winningScannedAt with
  | some eventId, some deviceId, some scannedAt =>
    some ⟨codeHash, eventId, deviceId, scannedAt.toISOString⟩
  | _, _, _ => none

def StreamRow.codeItem (kind : ProgressKind) (x : StreamRow) : Except Refusal ProgressContent :=
  match x.codeHash, x.classification with
  | some codeHash, some classification =>
    .ok (.code kind codeHash classification x.observedProductionDate (x.winner codeHash))
  | _, _ => .error .error

def StreamRow.boxItem (f : Uuid → Uuid → Except Refusal ProgressContent) (x : StreamRow) :
    Except Refusal ProgressContent :=
  match x.boxId, x.ownerDeviceId with
  | some boxId, some ownerDeviceId => f boxId ownerDeviceId
  | _, _ => .error .error

def StreamRow.removal (x : StreamRow) (boxId ownerDeviceId : Uuid) :
    Except Refusal ProgressContent :=
  match x.resultId, x.codeHash with
  | some resultId, some codeHash =>
    .ok (.removeItem boxId resultId codeHash ownerDeviceId x.effectAt.toISOString)
  | _, _ => .error .error

def StreamRow.content (x : StreamRow) : Except Refusal ProgressContent :=
  match x.kind with
  | .claim => x.codeItem .claim
  | .correction => x.codeItem .correction
  | .removeItem => x.boxItem x.removal
  | .invalidateBox => x.boxItem fun boxId owner => .ok (.invalidateBox boxId owner)
  | .reprint => x.boxItem fun boxId owner => .ok (.reprint boxId owner)

def StreamRow.toItem (x : StreamRow) : Except Refusal ProgressItem := do
  let content ← x.content
  pure ⟨x.id, x.resultRevision, content, x.changedAt.toISOString⟩

def Participant.current (deviceId : Uuid) (p : Participant) : Bool :=
  p.deviceId == deviceId && p.leftAt.isNone

def progress (task : Task) (deviceId : Uuid) (cursor : Option ProgressCursor) (limit : ℕ)
    (t : Tables) : Except Refusal ProgressPage := do
  ensure (t.participants.any (·.current deviceId)) .notFound
  let items ← (Cursor.page StreamRow.place limit cursor (stream t.toRows)).mapM (·.toItem)
  pure
    { inventoryId := task.inventoryId
      snapshotId := task.snapshotId
      cursor := cursor
      resultRevision := t.resultRevision
      items := items
      nextCursor := items.getLast?.map (·.cursor) }

/-! ## The station -/

/-- What a row of `inventory_terminal_state` keeps of the feed. -/
structure Terminal where
  progressCursor : Option ProgressCursor
  progressResultRevision : ℕ
  deriving DecidableEq

def applyInventoryProgressPage (task : Task) (s : Terminal) (page : ProgressPage) :
    Option Terminal :=
  (parseInventoryProgressPage page ⟨task.inventoryId, task.snapshotId, s.progressCursor,
    s.progressResultRevision⟩).map fun page =>
      ⟨page.nextCursor.or s.progressCursor, page.resultRevision⟩

end Markiro.InventorySync
