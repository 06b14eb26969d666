import Markiro.Domain.Gs1
import Markiro.InventorySync.Records

/-!
# A batch of events on the server

`ingestBatch` of `station-inventory-sync.service.ts`: the events are validated and expanded into the
codes they claim, each claim is decided against the code's current winner, the repack actions are
applied to their boxes, and the answer is stored with the batch. A batch that was answered before is
answered from what is stored.
-/

namespace Markiro.InventorySync

open Utf16

/-! ## What a transaction reads from outside -/

/-- The digests: SHA-256 of the payload of a batch and of the key of a code. -/
structure Digests where
  payload : Payload → Hash
  km : Units → Hash

def Digests.kmHash (d : Digests) (km : ParsedKm) : Hash := d.km (kmKey km)

/-- Keys that rows of other inventories have taken. -/
structure Elsewhere where
  eventIds : List Uuid
  boxIds : List Uuid
  itemIds : List Uuid
  attemptIds : List Uuid
  newSsccs : List SsccText

/-- The clock, the ids the database draws for new rows, and the rows elsewhere. -/
structure Env where
  now : Stamp
  resultId : Hash → Uuid
  changeId : Hash → Uuid
  lateEventId : Uuid
  elsewhere : Elsewhere

/-! ## Validation -/

/-- Texts in the order of their units. -/
def textLe : Units → Units → Bool
  | [], _ => true
  | _ :: _, [] => false
  | a :: as, b :: bs => a < b || a == b && textLe as bs

structure ClaimTarget where
  codeHash : Hash
  snapshotId : Option Uuid
  classification : CodeClassification
  deriving DecidableEq

/-- The date is set and within the inventory's period. -/
def Task.admits (task : Task) (d : Option CivilDate) : Bool :=
  d.any fun d => !d.before task.productionDateFrom && !task.productionDateTo.before d

def SnapshotCode.classification (c : SnapshotCode) : CodeClassification :=
  if c.protected then .protected else if c.expected then .expected else .ineligible

def SnapshotCode.eligible (c : SnapshotCode) : Bool := c.expected && !c.protected

def Task.code (task : Task) (h : Hash) : Option SnapshotCode :=
  task.codes.find? (·.codeHash = h)

def RepackAction.isAddItem : RepackAction → Bool
  | .addItem .. => true
  | _ => false

def RepackAction.isOpenBox : RepackAction → Bool
  | .openBox .. => true
  | _ => false

def Event.adds (e : Event) : Bool := e.repack.any (·.action.isAddItem)

def Event.opens (e : Event) : Bool := e.repack.any (·.action.isOpenBox)

def validateRepackAction (task : Task) (e : Event) : Except Conflict (List ClaimTarget) :=
  if !task.admits e.activeProductionDate then .error .eventProductionDateMismatch
  else
    match e.repack with
    | some ⟨_, .changeDate date _⟩ =>
      if some date ≠ e.activeProductionDate ∨ !task.admits (some date) then
        .error .eventProductionDateMismatch
      else .ok []
    | _ => .ok []

def validateItem (d : Digests) (task : Task) (raw : Units) (e : Event) :
    Except Conflict (List ClaimTarget) :=
  match e.codeHash, canonicalizeKm raw with
  | some codeHash, .ok canonical =>
    if e.normalizedIdentity ≠ encode "item:" ++ codeHash.1 ∨ canonical.raw ≠ raw ∨
        d.kmHash canonical ≠ codeHash then
      .error .eventIdentityInvalid
    else if canonical.gtin14 ≠ task.gtin14 then .error .eventGtinMismatch
    else
      let row := task.code codeHash
      if task.mode = .repack ∧ row.any (·.eligible) ≠ e.adds then .error .eventModeMismatch
      else
        .ok [⟨codeHash, row.map fun _ => task.snapshotId,
          row.elim .unknown (·.classification)⟩]
  | _, _ => .error .eventIdentityInvalid

def EventKind.identityPrefix : EventKind → Units
  | .item => encode "item"
  | .knownBox => encode "known_box"
  | .oldBox => encode "old_box"
  | .repackAction => encode "repack_action"

/-- The codes of the snapshot in one box, in the order of their hashes. -/
def Task.codesIn (task : Task) (sscc : Units) : List SnapshotCode :=
  let rows := task.codes.filter fun c => c.parentSscc.any fun parent => parent.1 = sscc
  (rows.insertionSort fun a b => textLe a.codeHash.1 b.codeHash.1 = true).take 10001

/-- The checks of a scanned box: a known one claims its codes, an old one is opened or claims
nothing. -/
def validateBox (task : Task) (raw : Units) (e : Event) : Except Conflict (List ClaimTarget) :=
  match parseScannedSscc raw false with
  | none => .error .eventIdentityInvalid
  | some sscc =>
    if e.codeHash ≠ none ∨ e.normalizedIdentity ≠ e.kind.identityPrefix ++ encode ":" ++ sscc then
      .error .eventIdentityInvalid
    else
      match e.repack with
      | some ⟨_, .openBox _ _ _ date⟩ =>
        if some date ≠ e.activeProductionDate ∨ !task.admits (some date) then
          .error .eventProductionDateMismatch
        else .ok []
      | _ =>
        let rows := task.codesIn sscc
        if (e.kind = .knownBox) ↔ rows = [] then .error .eventKindMismatch
        else .ok (rows.map fun c => ⟨c.codeHash, some task.snapshotId, c.classification⟩)

/-- The event belongs to the mode of the inventory. -/
def checkMode (task : Task) (e : Event) : Except Conflict Unit :=
  if task.mode = .check ∧ (e.kind = .oldBox ∨ e.repack ≠ none) then .error .eventModeMismatch
  else if task.mode = .repack ∧ e.kind = .knownBox then .error .eventModeMismatch
  else if task.mode = .repack ∧ (task.capacity = none ∨ e.kind = .oldBox ∧ !e.opens) then
    .error .repackConfigurationInvalid
  else .ok ()

def validateAndExpand (d : Digests) (task : Task) (e : Event) :
    Except Conflict (List ClaimTarget) := do
  checkMode task e
  if e.kind = .repackAction then validateRepackAction task e
  else
    match e.canonicalRaw with
    | none => .error .eventIdentityInvalid
    | some raw =>
      if raw = [] then .error .eventIdentityInvalid
      else if !task.admits e.activeProductionDate then .error .eventProductionDateMismatch
      else if e.kind = .item then validateItem d task raw e
      else validateBox task raw e

/-- An event with what it claims, or with why it is rejected. -/
structure Expanded where
  event : Event
  targets : Except Conflict (List ClaimTarget)

def Expanded.claims (x : Expanded) : List ClaimTarget :=
  match x.targets with
  | .ok targets => targets
  | .error _ => []

def Expanded.rejected (x : Expanded) : Bool :=
  match x.targets with
  | .ok _ => false
  | .error _ => true

def expandAll (d : Digests) (task : Task) : ℕ → List Event → Except Refusal (List Expanded)
  | _, [] => .ok []
  | count, e :: events => do
    let x : Expanded := ⟨e, validateAndExpand d task e⟩
    ensure (x.claims.length ≤ 10000) (.conflict .eventClaimLimitExceeded)
    ensure (count + x.claims.length ≤ 10000) (.conflict .batchClaimLimitExceeded)
    let rest ← expandAll d task (count + x.claims.length) events
    pure (x :: rest)

/-! ## Claims -/

def winnerPrecedes (left right : ClaimWinner) : Bool :=
  left.scannedAt.ms < right.scannedAt.ms ||
    left.scannedAt.ms == right.scannedAt.ms &&
      (left.deviceId < right.deviceId ||
        left.deviceId == right.deviceId && left.eventId < right.eventId)

def CodeResult.asWinner (r : CodeResult) : ClaimWinner :=
  ⟨r.codeHash, r.firstAcceptedEventId, r.winningDeviceId, r.winningScannedAt.toISOString⟩

/-- The columns of an item that is taken out of its box. -/
def RepackItem.removed (removedAt : Stamp) (i : RepackItem) : RepackItem :=
  { i with removedAt := some removedAt, activeObservedProductionDate := none }

/-- The items a statement takes out of their boxes. -/
def removeItems (which : RepackItem → Bool) (removedAt : Stamp) (r : Rows) : Rows :=
  { r with items := Table.update (fun i => i.active && which i) (·.removed removedAt) r.items }

/-- The columns of a box that a lost claim invalidates; an earlier invalidation keeps its source and
its time. -/
def RepackBox.displaced (now : Stamp) (b : RepackBox) : RepackBox :=
  { b with
    state := .invalidated
    invalidationSource := some (b.invalidationSource.getD .claimLost)
    invalidatedAt := some (b.invalidatedAt.getD now)
    updatedAt := now }

/-- Take the code of a result out of its box and invalidate the box. -/
def retireDisplacedRepackItems (now : Stamp) (resultId : Uuid) (t : Tables) :
    Except Refusal Tables :=
  let displaced := t.items.filter fun i => i.active && i.resultId == resultId
  if displaced = [] then .ok t
  else do
    let t ← t.change (removeItems (·.id ∈ displaced.map (·.id)) now)
    t.change fun r =>
      { r with
        boxes := Table.update (·.id ∈ displaced.map (·.boxId)) (·.displaced now) r.boxes }

/-- Put `x` under its key, in the place of what the key had. -/
def setKey {α β : Type} [DecidableEq β] (key : α → β) (x : α) (l : List α) : List α :=
  if l.any (key · = key x) then l.map fun y => if key y = key x then x else y else l ++ [x]

/-- A code whose winner a batch changed: what the claim says of it, and the winning event. -/
structure ChangedCode where
  target : ClaimTarget
  winner : Event
  deriving DecidableEq

/-- The claims loop's variables. -/
structure Claiming where
  tables : Tables
  changed : List ChangedCode
  displacedEvents : List Uuid

def ClaimTarget.newResult (g : ClaimTarget) (env : Env) (deviceId : Uuid) (e : Event)
    (scannedAt : Stamp) : CodeResult where
  id := env.resultId g.codeHash
  codeHash := g.codeHash
  snapshotId := g.snapshotId
  firstAcceptedEventId := e.eventId
  winningDeviceId := deviceId
  winningScannedAt := scannedAt
  observedProductionDate := e.activeProductionDate
  classification := g.classification
  originClassification := g.classification
  updatedAt := env.now

/-- The columns of a code's row that a new winner changes. -/
def CodeResult.wonBy (r : CodeResult) (g : ClaimTarget) (env : Env) (deviceId : Uuid) (e : Event)
    (scannedAt : Stamp) : CodeResult :=
  { r with
    firstAcceptedEventId := e.eventId
    winningDeviceId := deviceId
    winningScannedAt := scannedAt
    observedProductionDate := e.activeProductionDate
    classification := g.classification
    originClassification := g.classification
    updatedAt := env.now }

def ClaimOutcome.lostTo (deviceId : Uuid) (e : Event) (scannedAt : Stamp) (c : ClaimOutcome) :
    ClaimOutcome :=
  { c with
    status := .duplicate
    winningEventId := e.eventId
    winningDeviceId := deviceId
    winningScannedAt := scannedAt }

/-- A new winner takes over the row of its code: the old winner's item leaves its box when the dates
differ, and the old winner's claim is marked as lost. -/
def displace (task : Task) (env : Env) (deviceId : Uuid) (e : Event) (g : ClaimTarget)
    (current : CodeResult) (t : Tables) : Except Refusal Tables := do
  let scannedAt ← column e.scannedAt
  let t ← (if task.mode = .repack ∧ current.observedProductionDate ≠ e.activeProductionDate then
      retireDisplacedRepackItems env.now current.id t
    else .ok t)
  let t ← t.change fun r =>
    { r with
      codeResults := Table.update (·.codeHash = g.codeHash)
        (·.wonBy g env deviceId e scannedAt) r.codeResults }
  t.change fun r =>
    { r with
      claimOutcomes := Table.update
        (fun c => c.sourceEventId = current.firstAcceptedEventId ∧ c.codeHash = g.codeHash)
        (·.lostTo deviceId e scannedAt) r.claimOutcomes }

def claim (task : Task) (env : Env) (deviceId : Uuid) (e : Event) (s : Claiming) (g : ClaimTarget) :
    Except Refusal Claiming :=
  match s.tables.codeResults.find? (·.codeHash = g.codeHash) with
  | none => do
    let scannedAt ← column e.scannedAt
    let t ← s.tables.change fun r =>
      { r with codeResults := r.codeResults ++ [g.newResult env deviceId e scannedAt] }
    pure { s with tables := t, changed := setKey (·.target.codeHash) ⟨g, e⟩ s.changed }
  | some current =>
    if winnerPrecedes ⟨g.codeHash, e.eventId, deviceId, e.scannedAt⟩ current.asWinner then do
      let t ← displace task env deviceId e g current s.tables
      pure ⟨t, setKey (·.target.codeHash) ⟨g, e⟩ s.changed,
        setKey id current.firstAcceptedEventId s.displacedEvents⟩
    else pure s

def claimAll (task : Task) (env : Env) (deviceId : Uuid) (s : Claiming) (xs : List Expanded) :
    Except Refusal Claiming :=
  xs.foldlM (fun s x => x.claims.foldlM (claim task env deviceId x.event) s) s

/-! ## Outcomes -/

def rejectedOutcome (eventId : Uuid) : EventOutcome where
  eventId := eventId
  status := .rejected
  reasonCode := .inventoryEventRejected
  claimedCount := 0
  conflictCount := 0
  claims := []

def claimAgainst (eventId : Uuid) (winner : CodeResult) : EventClaim where
  codeHash := winner.codeHash
  status := if winner.firstAcceptedEventId = eventId then .claimed else .duplicate
  winner := winner.asWinner

def claimsOutcome (eventId : Uuid) (applied : Bool) (claims : List EventClaim) : EventOutcome where
  eventId := eventId
  status := if applied then .applied else .duplicate
  reasonCode := if applied then .claimApplied else .claimLost
  claimedCount := claims.countP (·.status = .claimed)
  conflictCount := claims.length - claims.countP (·.status = .claimed)
  claims := claims

/-- The row of `inventory_event_claim_outcomes` for a claim, with the winner's columns. -/
def claimOutcomeRow (eventId : Uuid) (winner : CodeResult) : ClaimOutcome where
  sourceEventId := eventId
  codeHash := winner.codeHash
  status := if winner.firstAcceptedEventId = eventId then .claimed else .duplicate
  winningEventId := winner.firstAcceptedEventId
  winningDeviceId := winner.winningDeviceId
  winningScannedAt := winner.winningScannedAt

def setVerdict (eventId : Uuid) (verdict : Verdict) (r : Rows) : Rows :=
  { r with
    scanEvents := Table.update (·.eventId = eventId)
      (fun e => { e with authoritativeVerdict := verdict }) r.scanEvents }

/-- The rows of the codes an event claims; an error when one is missing. -/
def winnersOf (t : Tables) (x : Expanded) : Except Refusal (List CodeResult) :=
  x.claims.mapM fun g =>
    match t.codeResults.find? (·.codeHash = g.codeHash) with
    | some winner => .ok winner
    | none => .error .error

def outcomeOf (t : Tables) (x : Expanded) : Except Refusal (EventOutcome × Tables) :=
  if x.rejected then .ok (rejectedOutcome x.event.eventId, t)
  else do
    let winners ← winnersOf t x
    let claims := winners.map (claimAgainst x.event.eventId)
    let applied := claims.any (·.status = .claimed) || x.event.kind = .oldBox ||
      x.event.kind = .repackAction
    let t ← (if winners = [] then .ok t
      else t.change fun r =>
        { r with claimOutcomes := r.claimOutcomes ++ winners.map (claimOutcomeRow x.event.eventId) })
    let t ← t.change (setVerdict x.event.eventId (if applied then .applied else .duplicate))
    pure (claimsOutcome x.event.eventId applied claims, t)

def outcomesOf : Tables → List Expanded → Except Refusal (List EventOutcome × Tables)
  | t, [] => .ok ([], t)
  | t, x :: xs => do
    let (o, t) ← outcomeOf t x
    let (os, t) ← outcomesOf t xs
    pure (o :: os, t)

end Markiro.InventorySync
