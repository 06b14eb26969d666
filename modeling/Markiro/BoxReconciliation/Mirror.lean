import Markiro.Domain.Gs1
import Markiro.Lib.Table

/-!
# The tables of box reconciliation

The rows that `lib/box-reconciliation.ts` of the station reads and writes, the digest of the codes
of a box, and the statements that commit an answer of the server. What is guarded by a condition
inside a statement is guarded here by the same condition.
-/

namespace Markiro.BoxReconciliation

open Utf16

/-! ## Digests -/

inductive DigestError where
  | invalid | duplicate
  deriving DecidableEq

/-- `/^[0-9a-f]{64}$/`. -/
def isCodeHash (s : String) : Bool :=
  decide (s.toList.length = 64) &&
    s.toList.all fun c => decide ('0' ≤ c ∧ c ≤ '9') || decide ('a' ≤ c ∧ c ≤ 'f')

/-- The checks of `boxMembershipDigestV1` on the sorted hashes, the one before given. -/
def checkMembers : Option String → List String → Except DigestError Unit
  | _, [] => .ok ()
  | previous, hash :: rest =>
    if isCodeHash hash = false then .error .invalid
    else if previous = some hash then .error .duplicate
    else checkMembers (some hash) rest

def sortHashes (codeHashes : List String) : List String := codeHashes.insertionSort (· ≤ ·)

/-- Stable digest of the code identities in one box; `ofLines` is SHA-256 of the sorted lines. -/
def boxMembershipDigestV1 {D : Type} (ofLines : List String → D) (codeHashes : List String) :
    Except DigestError D :=
  match checkMembers none (sortHashes codeHashes) with
  | .ok () => .ok (ofLines (sortHashes codeHashes))
  | .error e => .error e

/-- The digests, of which nothing is used but that two sets of codes have two digests. -/
structure Hashing where
  Digest : Type
  decEq : DecidableEq Digest
  km : Units → String
  ofLines : List String → Digest
  injective : ∀ xs ys d, boxMembershipDigestV1 ofLines xs = .ok d →
    boxMembershipDigestV1 ofLines ys = .ok d → ∀ h, h ∈ xs ↔ h ∈ ys

instance (H : Hashing) : DecidableEq H.Digest := H.decEq

namespace Hashing

variable (H : Hashing)

def digest (codeHashes : List String) : Except DigestError H.Digest :=
  boxMembershipDigestV1 H.ofLines codeHashes

/-- `kmHash(canonicalizeKm(raw))`, when nothing throws. -/
def kmHash (raw : Units) : Option String :=
  match canonicalizeKm raw with
  | .ok km => some (H.km (kmKey km))
  | .error _ => none

end Hashing

theorem nodup_of_checkMembers {previous : Option String} {hashes : List String}
    (hs : hashes.Pairwise (· ≤ ·)) (hp : ∀ p ∈ previous, ∀ h ∈ hashes, p ≤ h)
    (h : checkMembers previous hashes = .ok ()) :
    hashes.Nodup ∧ ∀ p ∈ previous, p ∉ hashes := by
  induction hashes generalizing previous with
  | nil => exact ⟨List.nodup_nil, fun _ _ => List.not_mem_nil⟩
  | cons hash rest ih =>
    obtain ⟨hle, hrest⟩ := List.pairwise_cons.1 hs
    rw [checkMembers] at h
    split at h
    · exact nomatch h
    · split at h
      · exact nomatch h
      · next hne =>
        have hhead : ∀ p ∈ some hash, ∀ x ∈ rest, p ≤ x := by
          intro p hpe x hx
          obtain rfl : hash = p := Option.some.inj hpe
          exact hle x hx
        obtain ⟨hnodup, hnew⟩ := ih hrest hhead h
        refine ⟨List.nodup_cons.2 ⟨hnew hash rfl, hnodup⟩, fun p hpe hmem => ?_⟩
        rcases List.mem_cons.1 hmem with rfl | hmem
        · exact hne hpe
        · -- everything after the head is at least the head, and the head is above `p`
          have hph : p ≤ hash := hp p hpe hash List.mem_cons_self
          have hhp : hash ≤ p := hle p hmem
          exact hne (by rw [le_antisymm hhp hph]; exact hpe)

theorem nodup_of_digest {H : Hashing} {codeHashes : List String} {d : H.Digest}
    (h : H.digest codeHashes = .ok d) : codeHashes.Nodup := by
  unfold Hashing.digest boxMembershipDigestV1 at h
  split at h
  · next hok =>
    have hsorted : (sortHashes codeHashes).Pairwise (· ≤ ·) :=
      List.pairwise_insertionSort (· ≤ ·) codeHashes
    have hnodup := (nodup_of_checkMembers hsorted (fun p hp => absurd hp (Option.not_mem_none p)) hok).1
    exact (List.perm_insertionSort (· ≤ ·) codeHashes).nodup_iff.1 hnodup
  · exact nomatch h

/-! ## Rows -/

structure BoxRow where
  boxId : String
  shiftId : String
  sscc : Option String
  closedAt : Option String
  ackedAt : Option String
  palletId : Option String
  disassembledAt : Option String
  reconciliationRevision : ℤ
  lastCheckedRevision : ℤ
  confirmedRevision : ℤ
  serverReconciledAt : Option String
  deriving DecidableEq

/-- A row of `codes_mirror`. -/
structure MemberRow where
  codeHash : String
  gtin14 : String
  serial : String
  scannedAt : String
  boxId : Option String
  deriving DecidableEq

/-- A row of `scan_events_mirror`. -/
structure EventRow where
  id : ℕ
  shiftId : String
  terminalId : Option String
  raw : Units
  verdict : String
  scannedAt : String
  operatorId : Option String
  codeHash : Option String
  boxId : Option String
  deriving DecidableEq

structure OutboxRow where
  shiftId : String
  terminalId : Option String
  raw : Units
  verdict : String
  scannedAt : String
  codeHash : Option String
  gtin14 : Option String
  serial : Option String
  boxId : Option String
  operatorId : Option String
  replayEventId : Option String
  replayOrigin : Bool
  deriving DecidableEq

/-- A row of `box_reconciliation_issues`. -/
structure IssueRow where
  boxId : String
  shiftId : String
  status : String
  reasonCode : String
  localItemCount : ℕ
  serverItemCount : Option ℤ
  checkedAt : String
  deriving DecidableEq

/-- The tables, in the order of their rowids. -/
structure Mirror where
  boxes : List BoxRow
  codes : List MemberRow
  events : List EventRow
  outbox : List OutboxRow
  issues : List IssueRow

structure Mirror.Keyed (m : Mirror) : Prop where
  boxes : Table.Unique BoxRow.boxId m.boxes
  codes : Table.Unique MemberRow.codeHash m.codes

/-- `readMembers`. -/
def Mirror.members (m : Mirror) (boxId : String) : List MemberRow :=
  (m.codes.filter fun c => c.boxId = some boxId).insertionSort fun a b => a.codeHash ≤ b.codeHash

theorem Mirror.mem_members {m : Mirror} {boxId : String} {c : MemberRow} :
    c ∈ m.members boxId ↔ c ∈ m.codes ∧ c.boxId = some boxId := by
  simp [members]

theorem Mirror.Keyed.members_nodup {m : Mirror} (h : m.Keyed) (boxId : String) :
    ((m.members boxId).map MemberRow.codeHash).Nodup := by
  have hfilter : ((m.codes.filter fun c => c.boxId = some boxId).map MemberRow.codeHash).Nodup :=
    h.codes.sublist (List.filter_sublist.map _)
  exact ((List.perm_insertionSort _ _).map _).nodup_iff.2 hfilter

/-! ## Facts and results -/

/-- What is submitted of a box, with the codes it was read from. -/
structure BoxReconciliationFact (H : Hashing) where
  shiftId : String
  boxId : String
  sscc : String
  closedAt : String
  devicePalletId : Option String
  itemCount : ℕ
  membershipDigest : H.Digest
  revision : ℤ
  /-- A repair at this revision was already sent and acknowledged. -/
  controlAfterReplay : Bool
  codeHashes : List String
  counted : itemCount = codeHashes.length
  digested : H.digest codeHashes = .ok membershipDigest

inductive ResultStatus where
  | confirmed | replayRequired | contentMismatch | identityConflict
  deriving DecidableEq

structure BoxReconciliationResult where
  boxId : String
  status : ResultStatus
  reasonCode : String
  serverItemCount : Option ℤ
  deriving DecidableEq

/-- `result.status` as it is written into an issue. -/
def ResultStatus.text : ResultStatus → String
  | .confirmed => "confirmed"
  | .replayRequired => "replay_required"
  | .contentMismatch => "content_mismatch"
  | .identityConflict => "identity_conflict"

variable {H : Hashing}

/-- The condition of `guard`, inside the statements that commit. -/
def BoxReconciliationFact.guard (f : BoxReconciliationFact H) (m : Mirror) (b : BoxRow) : Bool :=
  b.boxId = f.boxId ∧ b.shiftId = f.shiftId ∧ b.reconciliationRevision = f.revision ∧
    b.ackedAt ≠ none ∧ b.sscc = some f.sscc ∧ b.closedAt = some f.closedAt ∧
    b.palletId = f.devicePalletId ∧ (m.members f.boxId).length = f.itemCount ∧
    ∀ c ∈ m.members f.boxId, c.codeHash ∈ f.codeHashes

/-- The condition of `markChecked`. -/
def BoxReconciliationFact.isAt (f : BoxReconciliationFact H) (b : BoxRow) : Bool :=
  b.boxId = f.boxId ∧ b.shiftId = f.shiftId ∧ b.reconciliationRevision = f.revision

/-! ## Statements that write -/

inductive Write (H : Hashing) where
  | confirm (f : BoxReconciliationFact H) (now : String)
  /-- The scans of the box are queued again. -/
  | replay (f : BoxReconciliationFact H) (now : String) (rows : List OutboxRow)
  /-- Only the closure is sent again. -/
  | reclose (f : BoxReconciliationFact H) (now : String)
  | recordIssue (f : BoxReconciliationFact H) (issue : IssueRow)
  | markChecked (f : BoxReconciliationFact H) (now : String)

def BoxRow.confirm (b : BoxRow) (revision : ℤ) (now : String) : BoxRow :=
  { b with
    confirmedRevision := revision, lastCheckedRevision := revision,
    serverReconciledAt := some now }

def BoxRow.check (b : BoxRow) (revision : ℤ) (now : String) : BoxRow :=
  { b with
    confirmedRevision := min b.confirmedRevision (b.reconciliationRevision - 1)
    lastCheckedRevision := revision, serverReconciledAt := some now }

/-- Checked, and its closure is to be sent again. -/
def BoxRow.reopen (b : BoxRow) (revision : ℤ) (now : String) : BoxRow :=
  { b.check revision now with ackedAt := none }

/-- The trigger `scan_event_box_identity_from_outbox`. -/
def annotate (events : List EventRow) (row : OutboxRow) : List EventRow :=
  if row.codeHash = none ∨ row.boxId = none then events
  else
    match ((events.filter fun e => e.shiftId = row.shiftId ∧ e.raw = row.raw ∧
      e.scannedAt = row.scannedAt ∧ e.codeHash = none).map EventRow.id).max? with
    | none => events
    | some id =>
      Table.update (fun e => e.id = id)
        (fun e => { e with codeHash := row.codeHash, boxId := row.boxId }) events

/-- The rows of a table of issues with one more, which takes the place of one of the same box. -/
def putIssue (issues : List IssueRow) (issue : IssueRow) : List IssueRow :=
  if issues.any (fun i => i.boxId = issue.boxId) then
    Table.update (fun i => i.boxId = issue.boxId)
      (fun i => { issue with boxId := i.boxId, shiftId := i.shiftId }) issues
  else issues ++ [issue]

/-- One statement, or the statements of one `atomic`; `none` when `expectedChanges` is not met. -/
def Write.effect (m : Mirror) : Write H → Option Mirror
  | .confirm f now =>
    if m.boxes.countP (f.guard m) = 1 then
      some { m with
        boxes := Table.update (f.guard m) (fun b => b.confirm f.revision now) m.boxes
        issues := Table.delete (fun i => i.boxId = f.boxId) m.issues }
    else none
  | .replay f now rows =>
    if m.boxes.countP (fun b => f.guard m b && !m.outbox.any fun o => o.boxId = some f.boxId) = 1
    then
      some { m with
        boxes := Table.update (f.guard m) (fun b => b.reopen f.revision now) m.boxes
        outbox := m.outbox ++ rows
        events := rows.foldl annotate m.events }
    else none
  | .reclose f now =>
    if m.boxes.countP (f.guard m) = 1 then
      some { m with
        boxes := Table.update (f.guard m) (fun b => b.reopen f.revision now) m.boxes }
    else none
  | .recordIssue _ issue => some { m with issues := putIssue m.issues issue }
  | .markChecked f now =>
    some { m with
      boxes := Table.update f.isAt (fun b => b.check f.revision now) m.boxes }

end Markiro.BoxReconciliation
