import Markiro.BoxReconciliation.Mirror
import Markiro.Lib.Processes

/-!
# A pass of box reconciliation

`readBoxReconciliationBatch` reads the closed boxes that are due, the server answers what it holds of
them, and `applyBoxReconciliationResults` commits the answers, statement by statement. Whatever
happens on the station between two statements happens beside the pass.
-/

namespace Markiro.BoxReconciliation

open Utf16 Processes

variable {H : Hashing}

/-! ## Reads -/

structure DueBox where
  boxId : String
  shiftId : String
  sscc : String
  closedAt : String
  palletId : Option String
  reconciliationRevision : ℤ
  lastCheckedRevision : ℤ
  confirmedRevision : ℤ

/-- `server_reconciled_at IS NULL OR (? IS NOT NULL AND server_reconciled_at<?)`. -/
def reconciledBefore (at' checkedBefore : Option String) : Bool :=
  match at', checkedBefore with
  | none, _ => true
  | some _, none => false
  | some t, some before => t < before

/-- The condition of the batch on a box. -/
def Mirror.isDue (m : Mirror) (shiftId checkedBefore : Option String) (b : BoxRow) : Bool :=
  b.disassembledAt = none ∧ b.ackedAt ≠ none ∧
    (b.lastCheckedRevision < b.reconciliationRevision ∨
      b.confirmedRevision < b.reconciliationRevision ∧ (m.issues.all fun i => i.boxId ≠ b.boxId) ∨
      b.confirmedRevision < b.reconciliationRevision ∧
        reconciledBefore b.serverReconciledAt checkedBefore) ∧
    shiftId.all fun s => s = "" ∨ b.shiftId = s

def BoxRow.due? (b : BoxRow) : Option DueBox := do
  pure ⟨b.boxId, b.shiftId, ← b.sscc, ← b.closedAt, b.palletId, b.reconciliationRevision,
    b.lastCheckedRevision, b.confirmedRevision⟩

def Mirror.due (m : Mirror) (shiftId checkedBefore : Option String) (limit : ℕ) : List DueBox :=
  ((m.boxes.filter (m.isDue shiftId checkedBefore)).filterMap BoxRow.due?).take limit

def Mirror.okEvents (m : Mirror) (shiftId : String) (instants : List String) : List EventRow :=
  (m.events.filter fun e => e.shiftId = shiftId ∧ e.verdict = "ok" ∧
    e.scannedAt ∈ instants).insertionSort fun a b => a.id ≤ b.id

/-- The revision of a box and whether it is acknowledged, when there is one. -/
def Mirror.current (m : Mirror) (boxId shiftId : String) : Option (ℤ × Bool) :=
  (m.boxes.find? fun b => b.boxId = boxId ∧ b.shiftId = shiftId).map fun b =>
    (b.reconciliationRevision, b.ackedAt.isSome)

/-! ## Requests -/

inductive Request (H : Hashing) where
  | due (shiftId checkedBefore : Option String) (limit : ℕ)
  | members (boxId : String)
  | current (boxId shiftId : String)
  | events (shiftId : String) (instants : List String)
  | grantEvidence (f : BoxReconciliationFact H) (matched : List (MemberRow × EventRow))
  /-- The facts are posted to the server. -/
  | submit (facts : List (BoxReconciliationFact H))
  | isCurrent
  | now
  | write (w : Write H)

inductive Failure where
  | sql | incomplete | limit
  | digest (e : DigestError)
  deriving DecidableEq

abbrev Request.Answer : Request H → Type
  | .due _ _ _ => Except Failure (List DueBox)
  | .members _ => Except Failure (List MemberRow)
  | .current _ _ => Except Failure (Option (ℤ × Bool))
  | .events _ _ => Except Failure (List EventRow)
  | .grantEvidence _ _ => Except Failure (List (String × String))
  | .submit _ => Except Failure (List BoxReconciliationResult)
  | .isCurrent => Bool
  | .now => String
  | .write _ => Except Failure Unit

/-- How a request fares. A statement may fail without its effect, or with it. -/
inductive Fare where
  | done | failed | lost
  | flag (b : Bool)
  | time (t : String)
  | results (rs : List BoxReconciliationResult)
  | evidence (es : List (String × String))

/-- The tables, with a note of the members that were last read. -/
structure World where
  mirror : Mirror
  lastMembers : List MemberRow

/-- A statement that reads. -/
def readWith {α : Type} (w w' : World) (a : α) : Fare → Option (Except Failure α × World)
  | .done => some (.ok a, w')
  | .failed | .lost => some (.error .sql, w)
  | _ => none

def runWrite (w : World) (u : Write H) : Fare → Option (Except Failure Unit × World)
  | .done =>
    match u.effect w.mirror with
    | some m => some (.ok (), { w with mirror := m })
    | none => some (.error .sql, w)
  | .lost => some (.error .sql, { w with mirror := (u.effect w.mirror).getD w.mirror })
  | .failed => some (.error .sql, w)
  | _ => none

def serve (w : World) : (r : Request H) → Fare → Option (r.Answer × World)
  | .due shiftId checkedBefore limit, fare =>
    readWith w w (w.mirror.due shiftId checkedBefore limit) fare
  | .members boxId, fare =>
    readWith w { w with lastMembers := w.mirror.members boxId } (w.mirror.members boxId) fare
  | .current boxId shiftId, fare => readWith w w (w.mirror.current boxId shiftId) fare
  | .events shiftId instants, fare => readWith w w (w.mirror.okEvents shiftId instants) fare
  | .grantEvidence _ _, .evidence es => some (.ok es, w)
  | .grantEvidence _ _, .failed => some (.error .sql, w)
  | .submit _, .results rs => some (.ok rs, w)
  | .submit _, .failed => some (.error .sql, w)
  | .isCurrent, .flag b => some (b, w)
  | .now, .time t => some (t, w)
  | .write u, fare => runWrite w u fare
  | _, _ => none

/-! ## The pass -/

abbrev Turn (H : Hashing) := Fallible (Request.Answer (H := H)) Failure

def isCurrent : Turn H Bool := Fallible.query Request.isCurrent

def now : Turn H String := Fallible.query Request.now

def readMembers (boxId : String) : Turn H (List MemberRow) :=
  Fallible.ofProcess (Process.request (Request.members boxId))

def write (u : Write H) : Turn H Unit := Fallible.ofProcess (Process.request (Request.write u))

/-- `if (!isCurrent()) return stop;` before `p`. -/
def whileCurrent {α : Type} (stop : α) (p : Turn H α) : Turn H α := do
  let current ← isCurrent
  if current then p else pure stop

def membersDigest (members : List MemberRow) : Turn H H.Digest :=
  Fallible.ofExcept ((H.digest (members.map (·.codeHash))).mapError .digest)

/-! ### The batch -/

def factOf (row : DueBox) (members : List MemberRow) : Except Failure (BoxReconciliationFact H) :=
  match h : H.digest (members.map (·.codeHash)) with
  | .error e => .error (.digest e)
  | .ok membershipDigest =>
    .ok
      { shiftId := row.shiftId, boxId := row.boxId, sscc := row.sscc, closedAt := row.closedAt
        devicePalletId := row.palletId, itemCount := (members.map (·.codeHash)).length
        membershipDigest, revision := row.reconciliationRevision
        controlAfterReplay := row.reconciliationRevision ≤ row.lastCheckedRevision ∧
          row.confirmedRevision < row.reconciliationRevision
        codeHashes := members.map (·.codeHash), counted := rfl, digested := h }

def readFact (row : DueBox) : Turn H (Option (BoxReconciliationFact H)) :=
  whileCurrent none do
    let members ← readMembers row.boxId
    whileCurrent none do
      let fact ← Fallible.ofExcept (factOf row members)
      pure (some fact)

/-- The facts so far; `none` once the pass is no longer current. -/
def readNextFact (facts : Option (List (BoxReconciliationFact H))) (row : DueBox) :
    Turn H (Option (List (BoxReconciliationFact H))) :=
  match facts with
  | none => pure none
  | some facts => do
    let fact ← readFact row
    pure (fact.map fun f => facts ++ [f])

def readBoxReconciliationBatch (shiftId : Option String) (limit : ℕ)
    (checkedBefore : Option String) : Turn H (List (BoxReconciliationFact H)) := do
  Fallible.require (1 ≤ limit ∧ limit ≤ 200) .limit
  let rows ← Fallible.ofProcess (Process.request (Request.due shiftId checkedBefore limit))
  let facts ← Fallible.foldl readNextFact (some []) rows
  pure (facts.getD [])

/-! ### The evidence of a replay -/

/-- The events of a box with the hashes of their codes; none when one contradicts its own. -/
def byHash (boxId : String) : List EventRow → Option (List (String × EventRow))
  | [] => some []
  | event :: rest =>
    match H.kmHash event.raw with
    | none => byHash boxId rest
    | some hash =>
      if event.codeHash ≠ none ∧ event.codeHash ≠ some hash then none
      else if event.boxId ≠ none ∧ event.boxId ≠ some boxId then byHash boxId rest
      else (byHash boxId rest).map ((hash, event) :: ·)

def matchMembers (events : List (String × EventRow)) :
    List MemberRow → Option (List (MemberRow × EventRow))
  | [] => some []
  | member :: rest =>
    match events.filter fun e => e.1 = member.codeHash ∧ e.2.scannedAt = member.scannedAt with
    | [e] => (matchMembers events rest).map ((member, e.2) :: ·)
    | _ => none

def matchEvents (boxId : String) (members : List MemberRow) (events : List EventRow) :
    Option (List (MemberRow × EventRow)) :=
  (byHash (H := H) boxId events).bind fun events => matchMembers events members

def replayRow (f : BoxReconciliationFact H) (evidence : List (String × String))
    (matched : MemberRow × EventRow) : OutboxRow where
  shiftId := f.shiftId
  terminalId := matched.2.terminalId
  raw := matched.2.raw
  verdict := matched.2.verdict
  scannedAt := matched.2.scannedAt
  codeHash := some matched.1.codeHash
  gtin14 := some matched.1.gtin14
  serial := some matched.1.serial
  boxId := some f.boxId
  operatorId := matched.2.operatorId
  replayEventId := (evidence.find? fun e => e.2 = matched.1.codeHash).map (·.1)
  replayOrigin := true

/-- The rows, when no code has two pieces of grant evidence. -/
def replayRows (f : BoxReconciliationFact H) (matched : List (MemberRow × EventRow))
    (evidence : List (String × String)) : Option (List OutboxRow) :=
  if (evidence.map (·.2)).Nodup then some (matched.map (replayRow f evidence)) else none

def reconstructBox (f : BoxReconciliationFact H) : Turn H (Option (List OutboxRow)) := do
  let members ← readMembers f.boxId
  whileCurrent none (if members = [] then pure none else do
    let d ← membersDigest members
    if d ≠ f.membershipDigest then pure none else do
      let events ← Fallible.ofProcess
        (Process.request (Request.events f.shiftId (members.map (·.scannedAt))))
      whileCurrent none (match matchEvents (H := H) f.boxId members events with
        | none => pure none
        | some matched => whileCurrent none do
          let evidence ← Fallible.ofProcess (Process.request (Request.grantEvidence f matched))
          whileCurrent none (pure (replayRows f matched evidence))))

/-! ### One answer -/

def reportIssue (f : BoxReconciliationFact H) (result : BoxReconciliationResult)
    (status reasonCode : String) : Turn H Bool := do
  let checkedAt ← now
  write (.recordIssue f ⟨f.boxId, f.shiftId, status, reasonCode, f.itemCount,
    result.serverItemCount, checkedAt⟩)
  let reconciledAt ← now
  write (.markChecked f reconciledAt)
  pure true

def replayBox (f : BoxReconciliationFact H) (result : BoxReconciliationResult) : Turn H Bool := do
  let replay ← reconstructBox f
  whileCurrent false (match replay with
    | none => reportIssue f result "replay_evidence_missing" "replay_evidence_missing"
    | some rows => do
      let reconciledAt ← now
      write (.replay f reconciledAt rows)
      pure true)

/-- What is done about a result; whether the pass goes on. -/
def settle (f : BoxReconciliationFact H) (result : BoxReconciliationResult) : Turn H Bool :=
  match result.status with
  | .confirmed => do
    let reconciledAt ← now
    write (.confirm f reconciledAt)
    pure true
  | .contentMismatch | .identityConflict =>
    reportIssue f result result.status.text result.reasonCode
  | .replayRequired =>
    if f.controlAfterReplay then
      reportIssue f result "replay_evidence_missing" "replay_not_confirmed"
    else if result.reasonCode = "box_absent" then replayBox f result
    else if result.reasonCode = "closure_absent" ∨ result.reasonCode = "pallet_absent" then do
      let reconciledAt ← now
      write (.reclose f reconciledAt)
      pure true
    else reportIssue f result "identity_conflict" result.reasonCode

def applyResult (f : BoxReconciliationFact H) (result : BoxReconciliationResult) : Turn H Bool :=
  whileCurrent false do
    let row ← Fallible.ofProcess (Process.request (Request.current f.boxId f.shiftId))
    whileCurrent false (if row ≠ some (f.revision, true) then pure true else do
      let members ← readMembers f.boxId
      whileCurrent false do
        let d ← membersDigest members
        if d ≠ f.membershipDigest then pure true else settle f result)

def applyNext (going : Bool) (next : BoxReconciliationFact H × BoxReconciliationResult) :
    Turn H Bool :=
  if going then applyResult next.1 next.2 else pure false

def applyBoxReconciliationResults (facts : List (BoxReconciliationFact H))
    (results : List BoxReconciliationResult) : Turn H Unit := do
  Fallible.require (facts.length = results.length ∧ (results.map (·.boxId)).Nodup ∧
    facts.map (·.boxId) = results.map (·.boxId)) .incomplete
  let _ ← Fallible.foldl applyNext true (facts.zip results)
  pure ()

/-- The pass of a drain: the batch is read, posted, and the answer is applied. -/
def reconcileBoxes (shiftId : Option String) (limit : ℕ) (checkedBefore : Option String) :
    Turn H Unit := do
  let facts ← readBoxReconciliationBatch shiftId limit checkedBefore
  if facts.length = 0 then pure ()
  else whileCurrent () do
    let results ← Fallible.ofProcess (Process.request (Request.submit facts))
    whileCurrent () (applyBoxReconciliationResults facts results)

/-! ## The station -/

/-- What else changes the tables; the primary keys stay. -/
structure LocalChanges where
  Change : Type
  change : Mirror → Change → Mirror
  keyed : ∀ m c, m.Keyed → (change m c).Keyed

def reconciler {J : Type} (L : LocalChanges) (turn : J → Turn H Unit) :
    System (Request H) Request.Answer World Fare L.Change J where
  serve := serve
  outside w c := { w with mirror := L.change w.mirror c }
  process j := Process.bind (turn j) fun _ => .done ()

/-- An answer is applied to any facts, or a pass is made. -/
inductive Job (H : Hashing) where
  | apply (facts : List (BoxReconciliationFact H)) (results : List BoxReconciliationResult)
  | pass (shiftId : Option String) (limit : ℕ) (checkedBefore : Option String)

def Job.turn : Job H → Turn H Unit
  | .apply facts results => applyBoxReconciliationResults facts results
  | .pass shiftId limit checkedBefore => reconcileBoxes shiftId limit checkedBefore

end Markiro.BoxReconciliation
