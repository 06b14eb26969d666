import Markiro.Lib.Utf16
import Markiro.Domain.Instants

/-!
# What a station and the server say about an inventory

The schemas of `inventory/station-sync.ts`: the event batches a station sends, the answer to a
batch, and the pages of the progress feed, with the two readers that tie an answer to its batch and
a page to what the station asked for. A text that a pattern describes is a subtype or a record of
its parts, so that only what the patterns do not say is left for the schemas to check.
-/

namespace Markiro.InventorySync

open Utf16

/-! ## Texts -/

/-- A uuid of the form the schemas ask for, by its number, which orders as its text does. -/
abbrev Uuid := ℕ

/-- The lower-case hexadecimal digits of `n`, `w` of them. -/
def hex : ℕ → ℕ → List Char
  | 0, _ => []
  | w + 1, n => hex w (n / 16) ++ [Nat.digitChar (n % 16)]

def uuidText (u : Uuid) : Units :=
  encodeChars (hex 8 (u / 16 ^ 24) ++ '-' :: hex 4 (u / 16 ^ 20) ++ '-' :: hex 4 (u / 16 ^ 16) ++
    '-' :: hex 4 (u / 16 ^ 12) ++ '-' :: hex 12 u)

/-- `0` to `9` or `a` to `f`. -/
def isHexDigit (u : UInt16) : Bool := isDigit u || 97 ≤ u && u ≤ 102

/-- A text that `hashSchema` accepts. -/
abbrev Hash := { s : Units // s.length = 64 ∧ s.all isHexDigit = true }

abbrev SsccText := { s : Units // s.length = 18 ∧ s.all isDigit = true }

/-- A text `YYYY-MM-DD` that `z.iso.date` accepts, by its parts. -/
structure CivilDate where
  year : ℕ
  month : ℕ
  day : ℕ
  valid : year ≤ 9999 ∧ (1 ≤ month ∧ month ≤ 12) ∧ 1 ≤ day ∧ day ≤ Calendar.daysInMonth year month
  deriving DecidableEq

/-- The order of the texts, which is that of the dates. -/
def CivilDate.before (a b : CivilDate) : Bool :=
  a.year < b.year || a.year == b.year && (a.month < b.month || a.month == b.month && a.day < b.day)

/-- `Number.isSafeInteger`. -/
def isSafe (n : ℕ) : Prop := n ≤ 9007199254740991

instance (n : ℕ) : Decidable (isSafe n) := by
  unfold isSafe
  infer_instance

/-! ## Events -/

inductive EventKind where
  | item | knownBox | oldBox | repackAction
  deriving DecidableEq

inductive LocalVerdict where
  | expected | «protected» | knownIneligible | unknown | duplicate | repackAction
  deriving DecidableEq

inductive PrintError where
  | templateMissing | printerUnconfigured | renderFailed | transportFailed | persistenceFailed
  deriving DecidableEq

inductive PrintResult where
  | printed | failed
  deriving DecidableEq

/-- Whether a print is a box's first label or a reprint of it. -/
inductive PrintKind where
  | initial | reprint
  deriving DecidableEq

structure PrintOutcome where
  sscc : SsccText
  attemptId : Uuid
  attemptNumber : ℕ
  result : PrintResult
  errorCode : Option PrintError
  attemptedAt : IsoDatetime
  completedAt : IsoDatetime
  deriving DecidableEq

/-- What a repack event does to its box. -/
inductive RepackAction where
  | openBox (oldSscc newSscc : SsccText) (capacity : ℕ) (productionDate : CivilDate)
  | addItem (itemId : Uuid) (position : ℕ) (closeBox : Bool)
  | removeLast (itemId : Uuid) (changedAt : IsoDatetime)
  | clearBox (changedAt : IsoDatetime)
  | closeIncomplete (changedAt : IsoDatetime)
  | changeDate (productionDate : CivilDate) (changedAt : IsoDatetime)
  | resolveConflict (changedAt : IsoDatetime)
  | printOutcome (kind : PrintKind) (outcome : PrintOutcome)
  deriving DecidableEq

/-- `inventoryRepackMutationSchema`. -/
structure RepackMutation where
  boxId : Uuid
  action : RepackAction
  deriving DecidableEq

/-- `inventoryEventSchema` without its refinement. -/
structure Event where
  eventId : Uuid
  deviceSequence : ℕ
  operatorId : Uuid
  scannedAt : IsoDatetime
  kind : EventKind
  normalizedIdentity : Units
  codeHash : Option Hash
  canonicalRaw : Option Units
  activeProductionDate : Option CivilDate
  localVerdict : LocalVerdict
  repack : Option RepackMutation
  deriving DecidableEq

def RepackAction.name : RepackAction → String
  | .openBox .. => "open-box"
  | .addItem .. => "add-item"
  | .removeLast .. => "remove-last"
  | .clearBox .. => "clear-box"
  | .closeIncomplete .. => "close-incomplete"
  | .changeDate .. => "change-date"
  | .resolveConflict .. => "resolve-conflict"
  | .printOutcome .initial _ => "print-outcome"
  | .printOutcome .reprint _ => "reprint-outcome"

def Event.bare (e : Event) (identity : Units) : Prop :=
  e.kind = .repackAction ∧ e.codeHash = none ∧ e.canonicalRaw = none ∧
    e.localVerdict = .repackAction ∧ e.normalizedIdentity = identity

instance (e : Event) (identity : Units) : Decidable (e.bare identity) := by
  unfold Event.bare
  infer_instance

/-- The mutation belongs to the event. -/
def Event.repackAgrees (e : Event) : Prop :=
  match e.repack with
  | none => e.kind ≠ .repackAction
  | some m =>
    let identity := encode "repack_action:" ++ encode m.action.name ++ encode ":" ++
      uuidText m.boxId
    match m.action with
    | .openBox oldSscc _ capacity _ =>
      e.kind = .oldBox ∧ e.codeHash = none ∧ e.canonicalRaw = some oldSscc.1 ∧
        e.normalizedIdentity = encode "old_box:" ++ oldSscc.1 ∧ 0 < capacity ∧ isSafe capacity
    | .addItem _ position _ => e.kind = .item ∧ 0 < position ∧ isSafe position
    | .printOutcome _ o =>
      e.bare (identity ++ encode ":" ++ encode (toString o.attemptNumber)) ∧
        (o.result = .printed ↔ o.errorCode = none) ∧ 0 < o.attemptNumber ∧ isSafe o.attemptNumber
    | _ => e.bare identity

instance (e : Event) : Decidable e.repackAgrees := by
  unfold Event.repackAgrees
  split
  · infer_instance
  · dsimp only
    split <;> infer_instance

/-- What the schema of an event checks beyond the forms of its texts. -/
structure Event.Accepted (e : Event) : Prop where
  sequence : 0 < e.deviceSequence ∧ isSafe e.deviceSequence
  identity : 1 ≤ e.normalizedIdentity.length ∧ e.normalizedIdentity.length ≤ 1024
  raw : ∀ s ∈ e.canonicalRaw, 1 ≤ s.length ∧ s.length ≤ 2048
  repack : e.repackAgrees

instance (e : Event) : Decidable e.Accepted :=
  decidable_of_iff ((0 < e.deviceSequence ∧ isSafe e.deviceSequence) ∧
      (1 ≤ e.normalizedIdentity.length ∧ e.normalizedIdentity.length ≤ 1024) ∧
      (∀ s ∈ e.canonicalRaw, 1 ≤ s.length ∧ s.length ≤ 2048) ∧ e.repackAgrees)
    ⟨fun ⟨a, b, c, d⟩ => ⟨a, b, c, d⟩, fun ⟨a, b, c, d⟩ => ⟨a, b, c, d⟩⟩

/-! ## Batches -/

structure Payload where
  snapshotId : Uuid
  sequenceCeiling : ℕ
  pendingEventCount : ℕ
  openBoxCount : ℕ
  events : List Event
  deriving DecidableEq

structure EventBatch extends Payload where
  batchId : Units
  payloadDigest : Hash
  deriving DecidableEq

/-- `inventoryEventBatchSchema`: up to a hundred events with distinct ids in the order of their
sequences, the last one the ceiling, under the digest of the payload. -/
structure EventBatch.Accepted (digest : Payload → Hash) (b : EventBatch) : Prop where
  events : ∀ e ∈ b.events, e.Accepted
  size : 1 ≤ b.events.length ∧ b.events.length ≤ 100
  ids : (b.events.map (·.eventId)).Nodup
  ordered : b.events.Pairwise fun e f => e.deviceSequence < f.deviceSequence
  ceiling : b.events.getLast?.map (·.deviceSequence) = some b.sequenceCeiling
  counts : isSafe b.pendingEventCount ∧ isSafe b.openBoxCount
  batchId : 1 ≤ b.batchId.length ∧ b.batchId.length ≤ 128
  payloadDigest : b.payloadDigest = digest b.toPayload

instance (digest : Payload → Hash) (b : EventBatch) : Decidable (b.Accepted digest) :=
  decidable_of_iff ((∀ e ∈ b.events, e.Accepted) ∧
      (1 ≤ b.events.length ∧ b.events.length ≤ 100) ∧ (b.events.map (·.eventId)).Nodup ∧
      b.events.Pairwise (fun e f => e.deviceSequence < f.deviceSequence) ∧
      b.events.getLast?.map (·.deviceSequence) = some b.sequenceCeiling ∧
      (isSafe b.pendingEventCount ∧ isSafe b.openBoxCount) ∧
      (1 ≤ b.batchId.length ∧ b.batchId.length ≤ 128) ∧ b.payloadDigest = digest b.toPayload)
    ⟨fun ⟨h1, h2, h3, h4, h5, h6, h7, h8⟩ => ⟨h1, h2, h3, h4, h5, h6, h7, h8⟩,
      fun ⟨h1, h2, h3, h4, h5, h6, h7, h8⟩ => ⟨h1, h2, h3, h4, h5, h6, h7, h8⟩⟩

/-! ## Answers -/

structure ClaimWinner where
  codeHash : Hash
  eventId : Uuid
  deviceId : Uuid
  scannedAt : IsoDatetime
  deriving DecidableEq

inductive ClaimStatus where
  | claimed | duplicate
  deriving DecidableEq

structure EventClaim where
  codeHash : Hash
  status : ClaimStatus
  winner : ClaimWinner
  deriving DecidableEq

inductive OutcomeStatus where
  | applied | replay | duplicate | rejected | quarantined
  deriving DecidableEq

inductive ReasonCode where
  | claimApplied | claimLost | batchReplay | inventoryEventRejected | inventoryClosed
  | inventoryCompleted
  deriving DecidableEq

structure EventOutcome where
  eventId : Uuid
  status : OutcomeStatus
  reasonCode : ReasonCode
  claimedCount : ℕ
  conflictCount : ℕ
  claims : List EventClaim
  deriving DecidableEq

def EventOutcome.count (o : EventOutcome) (s : ClaimStatus) : ℕ := o.claims.countP (·.status = s)

def EventOutcome.consistent (o : EventOutcome) : Prop :=
  match o.status with
  | .duplicate => o.claimedCount = 0 ∧ o.conflictCount ≠ 0 ∧ o.reasonCode = .claimLost
  | .applied => ¬(o.claims ≠ [] ∧ o.claimedCount = 0) ∧ o.reasonCode = .claimApplied
  | .replay => o.reasonCode = .batchReplay
  | .rejected => o.claims = [] ∧ o.reasonCode = .inventoryEventRejected
  | .quarantined =>
    o.claims = [] ∧ (o.reasonCode = .inventoryClosed ∨ o.reasonCode = .inventoryCompleted)

instance (o : EventOutcome) : Decidable o.consistent := by
  unfold EventOutcome.consistent
  split <;> infer_instance

/-- `inventoryEventOutcomeSchema`. -/
structure EventOutcome.Accepted (o : EventOutcome) : Prop where
  size : o.claims.length ≤ 10000
  winners : ∀ c ∈ o.claims, c.winner.codeHash = c.codeHash
  distinct : (o.claims.map (·.codeHash)).Nodup
  own : ∀ c ∈ o.claims, c.status = .claimed ↔ c.winner.eventId = o.eventId
  claimed : o.claimedCount = o.count .claimed
  lost : o.conflictCount = o.count .duplicate
  consistent : o.consistent

instance (o : EventOutcome) : Decidable o.Accepted :=
  decidable_of_iff (o.claims.length ≤ 10000 ∧ (∀ c ∈ o.claims, c.winner.codeHash = c.codeHash) ∧
      (o.claims.map (·.codeHash)).Nodup ∧
      (∀ c ∈ o.claims, c.status = .claimed ↔ c.winner.eventId = o.eventId) ∧
      o.claimedCount = o.count .claimed ∧ o.conflictCount = o.count .duplicate ∧ o.consistent)
    ⟨fun ⟨h1, h2, h3, h4, h5, h6, h7⟩ => ⟨h1, h2, h3, h4, h5, h6, h7⟩,
      fun ⟨h1, h2, h3, h4, h5, h6, h7⟩ => ⟨h1, h2, h3, h4, h5, h6, h7⟩⟩

structure BatchResponse where
  inventoryId : Uuid
  snapshotId : Uuid
  batchId : Units
  payloadDigest : Hash
  sequenceCeiling : ℕ
  resultRevision : ℕ
  outcomes : List EventOutcome
  deriving DecidableEq

/-- `inventoryEventBatchResponseSchema`. -/
structure BatchResponse.Accepted (r : BatchResponse) : Prop where
  batchId : 1 ≤ r.batchId.length ∧ r.batchId.length ≤ 128
  ceiling : 0 < r.sequenceCeiling ∧ isSafe r.sequenceCeiling
  revision : isSafe r.resultRevision
  size : 1 ≤ r.outcomes.length ∧ r.outcomes.length ≤ 100
  outcomes : ∀ o ∈ r.outcomes, o.Accepted
  claims : (r.outcomes.map (·.claims.length)).sum ≤ 10000

instance (r : BatchResponse) : Decidable r.Accepted :=
  decidable_of_iff ((1 ≤ r.batchId.length ∧ r.batchId.length ≤ 128) ∧
      (0 < r.sequenceCeiling ∧ isSafe r.sequenceCeiling) ∧ isSafe r.resultRevision ∧
      (1 ≤ r.outcomes.length ∧ r.outcomes.length ≤ 100) ∧ (∀ o ∈ r.outcomes, o.Accepted) ∧
      (r.outcomes.map (·.claims.length)).sum ≤ 10000)
    ⟨fun ⟨h1, h2, h3, h4, h5, h6⟩ => ⟨h1, h2, h3, h4, h5, h6⟩,
      fun ⟨h1, h2, h3, h4, h5, h6⟩ => ⟨h1, h2, h3, h4, h5, h6⟩⟩

def OutcomeStatus.claimBearing : OutcomeStatus → Bool
  | .applied | .replay | .duplicate => true
  | .rejected | .quarantined => false

/-- What the reader checks of one outcome against the event it names. -/
structure EventOutcome.Answers (deviceId : Option Uuid) (o : EventOutcome) (e : Event) : Prop where
  item : o.status.claimBearing = true → e.kind = .item →
    ∃ c, o.claims = [c] ∧ e.codeHash = some c.codeHash
  oldBox : o.status.claimBearing = true → e.kind = .oldBox → o.claims = []
  applied : o.status = .applied → o.claimedCount = 0 → e.kind = .oldBox ∨ e.kind = .repackAction
  claimed : ∀ c ∈ o.claims, c.status = .claimed →
    c.winner.scannedAt = e.scannedAt ∧ ∀ d ∈ deviceId, c.winner.deviceId = d

instance (deviceId : Option Uuid) (o : EventOutcome) (e : Event) :
    Decidable (o.Answers deviceId e) :=
  decidable_of_iff ((o.status.claimBearing = true → e.kind = .item →
        (o.claims.length = 1 ∧ ∀ c ∈ o.claims, e.codeHash = some c.codeHash)) ∧
      (o.status.claimBearing = true → e.kind = .oldBox → o.claims = []) ∧
      (o.status = .applied → o.claimedCount = 0 → e.kind = .oldBox ∨ e.kind = .repackAction) ∧
      ∀ c ∈ o.claims, c.status = .claimed →
        c.winner.scannedAt = e.scannedAt ∧ ∀ d ∈ deviceId, c.winner.deviceId = d) <| by
    have key : (o.claims.length = 1 ∧ ∀ c ∈ o.claims, e.codeHash = some c.codeHash) ↔
        ∃ c, o.claims = [c] ∧ e.codeHash = some c.codeHash := by
      rw [List.length_eq_one_iff]
      constructor
      · rintro ⟨⟨c, hc⟩, h⟩
        exact ⟨c, hc, h c (by simp [hc])⟩
      · rintro ⟨c, hc, h⟩
        exact ⟨⟨c, hc⟩, by simpa [hc] using h⟩
    rw [key]
    exact ⟨fun ⟨h1, h2, h3, h4⟩ => ⟨h1, h2, h3, h4⟩, fun ⟨h1, h2, h3, h4⟩ => ⟨h1, h2, h3, h4⟩⟩

/-- What the reader of an answer checks against the request. -/
structure BatchResponse.Answers (inventoryId : Uuid) (deviceId : Option Uuid) (r : BatchResponse)
    (b : EventBatch) : Prop where
  accepted : r.Accepted
  inventoryId : r.inventoryId = inventoryId
  snapshotId : r.snapshotId = b.snapshotId
  batchId : r.batchId = b.batchId
  payloadDigest : r.payloadDigest = b.payloadDigest
  ceiling : r.sequenceCeiling = b.sequenceCeiling
  size : r.outcomes.length = b.events.length
  named : (r.outcomes.map (·.eventId)).Nodup
  outcomes : ∀ o ∈ r.outcomes,
    ∃ e ∈ b.events.find? (·.eventId = o.eventId), o.Answers deviceId e

instance (inventoryId : Uuid) (deviceId : Option Uuid) (r : BatchResponse) (b : EventBatch) :
    Decidable (r.Answers inventoryId deviceId b) :=
  decidable_of_iff (r.Accepted ∧ r.inventoryId = inventoryId ∧ r.snapshotId = b.snapshotId ∧
      r.batchId = b.batchId ∧ r.payloadDigest = b.payloadDigest ∧
      r.sequenceCeiling = b.sequenceCeiling ∧ r.outcomes.length = b.events.length ∧
      (r.outcomes.map (·.eventId)).Nodup ∧ ∀ o ∈ r.outcomes,
        ∃ e ∈ b.events.find? (·.eventId = o.eventId), o.Answers deviceId e)
    ⟨fun ⟨h1, h2, h3, h4, h5, h6, h7, h8, h9⟩ => ⟨h1, h2, h3, h4, h5, h6, h7, h8, h9⟩,
      fun ⟨h1, h2, h3, h4, h5, h6, h7, h8, h9⟩ => ⟨h1, h2, h3, h4, h5, h6, h7, h8, h9⟩⟩

def parseInventoryEventBatchResponse (r : BatchResponse) (b : EventBatch) (inventoryId : Uuid)
    (deviceId : Option Uuid) : Option BatchResponse :=
  if r.Answers inventoryId deviceId b then some r else none

/-! ## The progress feed -/

inductive CodeClassification where
  | expected | «protected» | ineligible | unknown | voided
  deriving DecidableEq

/-- `${revision}:${id}`, by its two parts. -/
structure ProgressCursor where
  revision : ℕ
  id : Uuid
  deriving DecidableEq

inductive ProgressKind where
  | claim | correction
  deriving DecidableEq

/-- What a change of the feed says. -/
inductive ProgressContent where
  | code (kind : ProgressKind) (codeHash : Hash) (classification : CodeClassification)
    (observedProductionDate : Option CivilDate) (winner : Option ClaimWinner)
  | removeItem (boxId resultId : Uuid) (codeHash : Hash) (ownerDeviceId : Uuid)
    (removedAt : IsoDatetime)
  | invalidateBox (boxId ownerDeviceId : Uuid)
  | reprint (boxId ownerDeviceId : Uuid)
  deriving DecidableEq

/-- `inventoryProgressChangeSchema`. -/
structure ProgressItem where
  id : Uuid
  revision : ℕ
  content : ProgressContent
  correctedAt : IsoDatetime
  deriving DecidableEq

structure ProgressPage where
  inventoryId : Uuid
  snapshotId : Uuid
  cursor : Option ProgressCursor
  resultRevision : ℕ
  items : List ProgressItem
  nextCursor : Option ProgressCursor
  deriving DecidableEq

def ProgressItem.cursor (i : ProgressItem) : ProgressCursor := ⟨i.revision, i.id⟩

/-- The order of the feed: by the revision, then by the id. -/
def ProgressCursor.before (a b : ProgressCursor) : Prop :=
  a.revision < b.revision ∨ a.revision = b.revision ∧ a.id < b.id

instance (a b : ProgressCursor) : Decidable (a.before b) := by
  unfold ProgressCursor.before
  infer_instance

def ProgressContent.ownWinner : ProgressContent → Prop
  | .code _ codeHash _ _ winner => ∀ w ∈ winner, w.codeHash = codeHash
  | _ => True

instance (c : ProgressContent) : Decidable c.ownWinner := by
  unfold ProgressContent.ownWinner
  split <;> infer_instance

/-- `inventoryProgressPageSchema`. -/
structure ProgressPage.Accepted (p : ProgressPage) : Prop where
  cursor : ∀ c ∈ p.cursor, 0 < c.revision
  revision : isSafe p.resultRevision
  size : p.items.length ≤ 200
  revisions : ∀ i ∈ p.items, 0 < i.revision ∧ isSafe i.revision
  nextCursor : ∀ c ∈ p.nextCursor, 0 < c.revision

instance (p : ProgressPage) : Decidable p.Accepted :=
  decidable_of_iff ((∀ c ∈ p.cursor, 0 < c.revision) ∧ isSafe p.resultRevision ∧
      p.items.length ≤ 200 ∧ (∀ i ∈ p.items, 0 < i.revision ∧ isSafe i.revision) ∧
      ∀ c ∈ p.nextCursor, 0 < c.revision)
    ⟨fun ⟨h1, h2, h3, h4, h5⟩ => ⟨h1, h2, h3, h4, h5⟩,
      fun ⟨h1, h2, h3, h4, h5⟩ => ⟨h1, h2, h3, h4, h5⟩⟩

structure ExpectedProgressPage where
  inventoryId : Uuid
  snapshotId : Uuid
  cursor : Option ProgressCursor
  minimumResultRevision : ℕ
  deriving DecidableEq

/-- The loop of the reader: every item stands after the one before it and within the revision of
the page; what it keeps is the last item's place. -/
def walkItems (resultRevision : ℕ) : Option ProgressCursor → List ProgressItem →
    Option (Option ProgressCursor)
  | previous, [] => some previous
  | previous, i :: items =>
    if i.revision ≤ resultRevision ∧ i.content.ownWinner ∧ ∀ c ∈ previous, c.before i.cursor then
      walkItems resultRevision (some i.cursor) items
    else none

def parseInventoryProgressPage (p : ProgressPage) (expected : ExpectedProgressPage) :
    Option ProgressPage :=
  if p.Accepted ∧ p.inventoryId = expected.inventoryId ∧ p.snapshotId = expected.snapshotId ∧
      p.cursor = expected.cursor ∧ expected.minimumResultRevision ≤ p.resultRevision then
    match walkItems p.resultRevision p.cursor p.items with
    | none => none
    | some previous =>
      if p.nextCursor = (if p.items = [] then none else previous) then some p else none
  else none

end Markiro.InventorySync
