import Markiro.Lib.Table

/-!
# The station's journal of scans

`recordScanLegacy` of `lib/journal.ts` writes a scan by three statements that no transaction holds
together: the code, the event, the outbox. A failure after the first takes the code back. The codes
on the station are then those the outbox has carried, in the same order, whatever fails
(`run_kept`), so no code is kept that the server will never see.
-/

namespace Markiro.Station

/-! ## Rows -/

structure ScanEventRow where
  shiftId : String
  terminalId : Option String
  raw : String
  verdict : String
  scannedAt : String
  operatorId : Option String
  deriving DecidableEq

structure AcceptedCode where
  codeHash : String
  shiftId : String
  gtin14 : String
  serial : String
  scannedAt : String
  boxId : Option String
  deriving DecidableEq

/-- A row of `outbox`; the columns of a code are set or empty together. -/
structure OutboxRow extends ScanEventRow where
  codeHash : Option String
  gtin14 : Option String
  serial : Option String
  boxId : Option String
  deriving DecidableEq

def OutboxRow.accepted (r : OutboxRow) : Option AcceptedCode := do
  guard (r.verdict = "ok")
  pure ⟨← r.codeHash, r.shiftId, ← r.gtin14, ← r.serial, r.scannedAt, r.boxId⟩

/-- The tables that a scan writes; `queued` is every row ever put in the outbox. -/
structure Journal where
  codesMirror : List AcceptedCode
  scanEventsMirror : List ScanEventRow
  outbox : List OutboxRow
  queued : List OutboxRow
  deriving DecidableEq

def Journal.empty : Journal := ⟨[], [], [], []⟩

/-! ## One scan -/

/-- The failures of the three inserts, by their messages; a failed one has no effect. -/
structure Faults where
  code : Option String
  event : Option String
  outbox : Option String

def Faults.none : Faults := ⟨.none, .none, .none⟩

/-- A computation over the tables that may throw; what was written before it throws stays. -/
abbrev Writes := EStateM String Journal

section

variable {α β : Type} {x : Writes α} {j : Journal}

theorem Writes.bind_ok {a : α} {j' : Journal} {f : α → Writes β} (hx : x j = .ok a j') :
    (x >>= f) j = f a j' := by
  simp only [bind, EStateM.bind, hx]

theorem Writes.bind_error {message : String} {j' : Journal} {f : α → Writes β}
    (hx : x j = .error message j') : (x >>= f) j = .error message j' := by
  simp only [bind, EStateM.bind, hx]

theorem Writes.tryCatch_ok {a : α} {j' : Journal} {h : String → Writes α} (hx : x j = .ok a j') :
    (tryCatch x h : Writes α) j = .ok a j' := by
  simp only [tryCatch, tryCatchThe, MonadExceptOf.tryCatch, EStateM.tryCatch, hx]

theorem Writes.tryCatch_error {message : String} {j' : Journal} {h : String → Writes α}
    (hx : x j = .error message j') : (tryCatch x h : Writes α) j = h message j' := by
  simp only [tryCatch, tryCatchThe, MonadExceptOf.tryCatch, EStateM.tryCatch, hx]
  rfl

end

def insert (fault : Option String) (f : Journal → Journal) : Writes Unit :=
  match fault with
  | some message => throw message
  | none => modify f

/-- What SQLite says of a second row with one key. -/
def uniqueConstraintFailed : String := "UNIQUE constraint failed: codes_mirror.code_hash"

def insertCode (fault : Option String) (code : AcceptedCode) : Writes Unit := do
  let j ← get
  if fault = none ∧ code.codeHash ∈ j.codesMirror.map (·.codeHash) then
    throw uniqueConstraintFailed
  insert fault fun j => { j with codesMirror := j.codesMirror ++ [code] }

def isUniqueConstraintError (message : String) : Bool :=
  decide ("unique constraint failed".toList <:+: message.toLower.toList) ||
    decide ("primary key constraint".toList <:+: message.toLower.toList)

structure RecordScanResult where
  storedCode : Bool
  alreadyPresent : Bool
  deriving DecidableEq

/-- The first statement; without a code there is none. -/
def storeCode (fault : Option String) : Option AcceptedCode → Writes RecordScanResult
  | none => pure ⟨false, false⟩
  | some code =>
    tryCatch (do
      insertCode fault code
      pure ⟨true, false⟩) fun message => do
      if ¬isUniqueConstraintError message then throw message
      pure ⟨false, true⟩

/-- The code that this call has stored, if it has. -/
def RecordScanResult.own (r : RecordScanResult) (code : Option AcceptedCode) :
    Option AcceptedCode :=
  if r.storedCode then code else none

/-- The compensating delete takes effect whenever it is attempted. -/
def compensateStoredCode (r : RecordScanResult) (code : Option AcceptedCode) : Writes Unit :=
  match r.own code with
  | none => pure ()
  | some code =>
    modify fun j =>
      { j with codesMirror := Table.delete (·.codeHash = code.codeHash) j.codesMirror }

def appendScanEvent (fault : Option String) (e : ScanEventRow) : Writes Unit :=
  insert fault fun j => { j with scanEventsMirror := j.scanEventsMirror ++ [e] }

/-- The row of the outbox: it carries the code that this call has stored. -/
def outboxRow (e : ScanEventRow) (own : Option AcceptedCode) : OutboxRow :=
  ⟨e, own.map (·.codeHash), own.map (·.gtin14), own.map (·.serial), own.bind (·.boxId)⟩

def enqueue (fault : Option String) (row : OutboxRow) : Writes Unit :=
  insert fault fun j => { j with outbox := j.outbox ++ [row], queued := j.queued ++ [row] }

/-- The event as it is written: a code that was there makes it a duplicate. -/
def journalled (e : ScanEventRow) (r : RecordScanResult) : ScanEventRow :=
  if r.alreadyPresent then { e with verdict := "duplicate" } else e

/-- The event and the row of the outbox; where one fails, the code is taken back. -/
def recordEvent (faults : Faults) (e : ScanEventRow) (r : RecordScanResult)
    (code : Option AcceptedCode) : Writes Unit := do
  tryCatch (appendScanEvent faults.event e) fun eventErr => do
    compensateStoredCode r code
    throw eventErr
  tryCatch (enqueue faults.outbox (outboxRow e (r.own code))) fun outboxErr => do
    compensateStoredCode r code
    throw outboxErr

def recordScanLegacy (faults : Faults) (e : ScanEventRow) (code : Option AcceptedCode) :
    Writes RecordScanResult := do
  let r ← storeCode faults.code code
  recordEvent faults (journalled e r) r code
  pure r

/-! ## What one scan does -/

/-- How a call ends. One that throws may have written its event, nothing else. -/
inductive Recorded (j : Journal) (e : ScanEventRow) :
    Option AcceptedCode → EStateM.Result String Journal RecordScanResult → Prop where
  | refused (code : Option AcceptedCode) (message : String) (events : List ScanEventRow)
      (h : events = [] ∨ ∃ r : RecordScanResult, events = [journalled e r] ∧
        ∀ c ∈ code, c.codeHash ∈ j.codesMirror.map (·.codeHash) → r.alreadyPresent = true) :
      Recorded j e code
        (.error message { j with scanEventsMirror := j.scanEventsMirror ++ events })
  | stored (c : AcceptedCode) (h : c.codeHash ∉ j.codesMirror.map (·.codeHash)) :
      Recorded j e (some c) (.ok ⟨true, false⟩
        { codesMirror := j.codesMirror ++ [c]
          scanEventsMirror := j.scanEventsMirror ++ [e]
          outbox := j.outbox ++ [outboxRow e (some c)]
          queued := j.queued ++ [outboxRow e (some c)] })
  | uncoded (code : Option AcceptedCode) (r : RecordScanResult) (hr : r.storedCode = false)
      (h : ∀ c ∈ code, r.alreadyPresent = true) :
      Recorded j e code (.ok r
        { j with
          scanEventsMirror := j.scanEventsMirror ++ [journalled e r]
          outbox := j.outbox ++ [outboxRow (journalled e r) none]
          queued := j.queued ++ [outboxRow (journalled e r) none] })

/-- How the first statement ends. -/
inductive CodeStored (j : Journal) :
    Option AcceptedCode → EStateM.Result String Journal RecordScanResult → Prop where
  | refused (code : Option AcceptedCode) (message : String) : CodeStored j code (.error message j)
  | stored (c : AcceptedCode) (h : c.codeHash ∉ j.codesMirror.map (·.codeHash)) :
      CodeStored j (some c)
        (.ok ⟨true, false⟩ { j with codesMirror := j.codesMirror ++ [c] })
  | present (c : AcceptedCode) : CodeStored j (some c) (.ok ⟨false, true⟩ j)
  | uncoded : CodeStored j none (.ok ⟨false, false⟩ j)

theorem insertCode_cases (fault : Option String) (c : AcceptedCode) (j : Journal) :
    ((fault = none → c.codeHash ∈ j.codesMirror.map (·.codeHash)) ∧
        ∃ message, insertCode fault c j = .error message j) ∨
      fault = none ∧ c.codeHash ∉ j.codesMirror.map (·.codeHash) ∧
        insertCode fault c j = .ok () { j with codesMirror := j.codesMirror ++ [c] } := by
  have hget : insertCode fault c j =
      (do
        if fault = none ∧ c.codeHash ∈ j.codesMirror.map (·.codeHash) then
          throw uniqueConstraintFailed
        insert fault fun j => { j with codesMirror := j.codesMirror ++ [c] } : Writes Unit) j := rfl
  rw [hget]
  by_cases hc : fault = none ∧ c.codeHash ∈ j.codesMirror.map (·.codeHash)
  · rw [if_pos hc]
    exact .inl ⟨fun _ => hc.2, _, rfl⟩
  · rw [if_neg hc]
    cases fault with
    | some message => exact .inl ⟨nofun, message, rfl⟩
    | none => exact .inr ⟨rfl, fun h => hc ⟨rfl, h⟩, rfl⟩

theorem storeCode_cases (fault : Option String) (code : Option AcceptedCode) (j : Journal) :
    CodeStored j code (storeCode fault code j) := by
  cases code with
  | none => exact .uncoded
  | some c =>
    rcases insertCode_cases fault c j with ⟨-, message, h⟩ | ⟨-, hc, h⟩
    · have hx : (do
          insertCode fault c
          pure ⟨true, false⟩ : Writes RecordScanResult) j = .error message j :=
        Writes.bind_error h
      rw [storeCode, Writes.tryCatch_error hx]
      by_cases hu : isUniqueConstraintError message = true
      · rw [if_neg (not_not.2 hu)]
        exact .present c
      · rw [if_pos hu]
        exact .refused _ message
    · have hx : (do
          insertCode fault c
          pure ⟨true, false⟩ : Writes RecordScanResult) j =
            .ok ⟨true, false⟩ { j with codesMirror := j.codesMirror ++ [c] } :=
        Writes.bind_ok h
      rw [storeCode, Writes.tryCatch_ok hx]
      exact .stored c hc

theorem delete_append_self {c : AcceptedCode} {codes : List AcceptedCode}
    (h : c.codeHash ∉ codes.map (·.codeHash)) :
    Table.delete (·.codeHash = c.codeHash) (codes ++ [c]) = codes := by
  have hkeep : codes.filter (fun x => !decide (x.codeHash = c.codeHash)) = codes := by
    refine List.filter_eq_self.2 fun x hx => ?_
    have hne : x.codeHash ≠ c.codeHash := fun he => h (he ▸ List.mem_map_of_mem hx)
    simp [hne]
  rw [Table.delete, List.filter_append, hkeep]
  simp

/-- The tables without the code that this call has stored. -/
def Journal.without (j : Journal) : Option AcceptedCode → Journal
  | none => j
  | some c => { j with codesMirror := Table.delete (·.codeHash = c.codeHash) j.codesMirror }

theorem compensated_insert (fault : Option String) (f : Journal → Journal) (r : RecordScanResult)
    (code : Option AcceptedCode) (j : Journal) :
    (tryCatch (insert fault f) fun err => do
      compensateStoredCode r code
      throw err : Writes Unit) j =
    match fault with
    | none => .ok () (f j)
    | some message => .error message (j.without (r.own code)) := by
  cases fault with
  | none => rfl
  | some message =>
    rw [Writes.tryCatch_error (x := insert (some message) f) (j := j) rfl]
    unfold compensateStoredCode
    cases r.own code <;> rfl

theorem recordEvent_cases (faults : Faults) (e : ScanEventRow) (r : RecordScanResult)
    (code : Option AcceptedCode) (j : Journal) :
    (∃ message events, (events = [] ∨ events = [e]) ∧ recordEvent faults e r code j =
      .error message { j.without (r.own code) with
        scanEventsMirror := j.scanEventsMirror ++ events }) ∨
    recordEvent faults e r code j = .ok ()
      { j with
        scanEventsMirror := j.scanEventsMirror ++ [e]
        outbox := j.outbox ++ [outboxRow e (r.own code)]
        queued := j.queued ++ [outboxRow e (r.own code)] } := by
  obtain ⟨-, event, outbox⟩ := faults
  have hevent := compensated_insert event
    (fun j => { j with scanEventsMirror := j.scanEventsMirror ++ [e] }) r code j
  have hrow := compensated_insert outbox
    (fun j => { j with
      outbox := j.outbox ++ [outboxRow e (r.own code)]
      queued := j.queued ++ [outboxRow e (r.own code)] }) r code
    { j with scanEventsMirror := j.scanEventsMirror ++ [e] }
  cases event with
  | some message =>
    refine .inl ⟨message, [], .inl rfl, (Writes.bind_error hevent).trans ?_⟩
    rw [List.append_nil]
    cases r.own code <;> rfl
  | none =>
    cases outbox with
    | some message =>
      refine .inl ⟨message, [e], .inr rfl, ((Writes.bind_ok hevent).trans hrow).trans ?_⟩
      cases r.own code <;> rfl
    | none => exact .inr ((Writes.bind_ok hevent).trans hrow)

theorem recordScanLegacy_cases (faults : Faults) (e : ScanEventRow) (code : Option AcceptedCode)
    (j : Journal) : Recorded j e code (recordScanLegacy faults e code j) := by
  unfold recordScanLegacy
  have hcode := storeCode_cases faults.code code j
  cases h : storeCode faults.code code j with
  | error message j' =>
    rw [h] at hcode
    cases hcode
    rw [Writes.bind_error h]
    have := Recorded.refused (e := e) code message [] (.inl rfl) (j := j)
    rwa [List.append_nil] at this
  | ok r j' =>
    rw [Writes.bind_ok h]
    rw [h] at hcode
    have hafter := recordEvent_cases faults (journalled e r) r code j'
    cases hcode with
    | stored c hc =>
      rcases hafter with ⟨message, events, hevents, h'⟩ | h'
      · rw [Writes.bind_error h']
        have hback := delete_append_self hc
        simp only [RecordScanResult.own, if_true, Journal.without, hback]
        refine .refused _ message events (hevents.imp id fun he => ⟨_, he, fun c' hc' hin => ?_⟩)
        obtain rfl : c = c' := Option.some.inj hc'
        exact absurd hin hc
      · rw [Writes.bind_ok h']
        exact .stored c hc
    | present c =>
      rcases hafter with ⟨message, events, hevents, h'⟩ | h'
      · rw [Writes.bind_error h']
        exact .refused _ message events (hevents.imp id fun he => ⟨_, he, fun _ _ _ => rfl⟩)
      · rw [Writes.bind_ok h']
        exact .uncoded _ ⟨false, true⟩ rfl fun _ _ => rfl
    | uncoded =>
      rcases hafter with ⟨message, events, hevents, h'⟩ | h'
      · rw [Writes.bind_error h']
        exact .refused _ message events (hevents.imp id fun he => ⟨_, he, nofun⟩)
      · rw [Writes.bind_ok h']
        exact .uncoded _ ⟨false, false⟩ rfl nofun

/-! ## Histories -/

/-- A scan as the work screen makes it: a code comes with an accepted event, and names its shift and
its instant. -/
structure Scan where
  event : ScanEventRow
  code : Option AcceptedCode
  own : ∀ c ∈ code, event.verdict = "ok" ∧ c.shiftId = event.shiftId ∧ c.scannedAt = event.scannedAt

def Scan.record (x : Scan) (faults : Faults) (j : Journal) :
    EStateM.Result String Journal RecordScanResult :=
  recordScanLegacy faults x.event x.code j

/-- A scan, or an acknowledgement that takes rows off the outbox. -/
inductive Step where
  | scan (x : Scan) (faults : Faults)
  | acknowledge (count : ℕ)

/-- The tables that a call leaves. -/
def tablesOf {α : Type} : EStateM.Result String Journal α → Journal
  | .ok _ j => j
  | .error _ j => j

def Step.after (j : Journal) : Step → Journal
  | .scan x faults => tablesOf (x.record faults j)
  | .acknowledge count => { j with outbox := j.outbox.drop count }

def run (j : Journal) (steps : List Step) : Journal := steps.foldl Step.after j

/-- The codes on the station are those the outbox has carried, each of them once. -/
structure Journal.Kept (j : Journal) : Prop where
  codes : j.codesMirror = j.queued.filterMap OutboxRow.accepted
  unique : Table.Unique (·.codeHash) j.codesMirror
  carried : ∀ r ∈ j.queued, r.codeHash ≠ none → r.accepted ≠ none

theorem outboxRow_accepted {e : ScanEventRow} {c : AcceptedCode} (h1 : e.verdict = "ok")
    (h2 : c.shiftId = e.shiftId) (h3 : c.scannedAt = e.scannedAt) :
    (outboxRow e (some c)).accepted = some c := by
  cases c
  cases h2
  cases h3
  simp [outboxRow, OutboxRow.accepted, h1]

theorem outboxRow_none (e : ScanEventRow) : (outboxRow e none).accepted = none := by
  simp [outboxRow, OutboxRow.accepted]

theorem Recorded.kept {j : Journal} (h : j.Kept) {e : ScanEventRow} {code : Option AcceptedCode}
    (hown : ∀ c ∈ code, e.verdict = "ok" ∧ c.shiftId = e.shiftId ∧ c.scannedAt = e.scannedAt)
    {res : EStateM.Result String Journal RecordScanResult} (hres : Recorded j e code res) :
    (tablesOf res).Kept := by
  cases hres with
  | refused message events _ => exact ⟨h.codes, h.unique, h.carried⟩
  | stored c hc =>
    obtain ⟨h1, h2, h3⟩ := hown c rfl
    have hrow := outboxRow_accepted h1 h2 h3
    refine ⟨?_, ?_, ?_⟩
    · show j.codesMirror ++ [c] = (j.queued ++ [_]).filterMap _
      rw [List.filterMap_append, ← h.codes, List.filterMap_cons_some hrow, List.filterMap_nil]
    · exact h.unique.append fun y hy he => hc (he ▸ List.mem_map_of_mem hy)
    · intro r hr hne
      rcases List.mem_append.1 hr with hr | hr
      · exact h.carried r hr hne
      · rw [List.mem_singleton.1 hr, hrow]
        exact Option.some_ne_none c
  | uncoded r hr _ =>
    refine ⟨?_, h.unique, ?_⟩
    · show j.codesMirror = (j.queued ++ [_]).filterMap _
      rw [List.filterMap_append, ← h.codes, List.filterMap_cons_none (outboxRow_none _),
        List.filterMap_nil, List.append_nil]
    · intro row hrow hne
      rcases List.mem_append.1 hrow with hrow | hrow
      · exact h.carried row hrow hne
      · rw [List.mem_singleton.1 hrow] at hne
        exact absurd rfl hne

theorem run_kept (steps : List Step) : (run .empty steps).Kept := by
  unfold run
  have hempty : Journal.empty.Kept := ⟨rfl, List.nodup_nil, nofun⟩
  generalize Journal.empty = j at hempty
  induction steps generalizing j with
  | nil => exact hempty
  | cons s steps ih =>
    refine ih _ ?_
    cases s with
    | scan x faults => exact (recordScanLegacy_cases faults x.event x.code j).kept hempty x.own
    | acknowledge count => exact ⟨hempty.codes, hempty.unique, hempty.carried⟩

/-- A code that is kept is in one row, with its shift, its box and its instant; a row that carries a
code is `ok` and its code is kept. -/
structure Journal.Whole (j : Journal) : Prop where
  once : ∀ c ∈ j.codesMirror, j.queued.countP (·.codeHash = some c.codeHash) = 1
  carried : ∀ c ∈ j.codesMirror, ∃ r ∈ j.queued, r.verdict = "ok" ∧ r.codeHash = some c.codeHash ∧
    r.shiftId = c.shiftId ∧ r.boxId = c.boxId ∧ r.scannedAt = c.scannedAt
  kept : ∀ r ∈ j.queued, ∀ hash ∈ r.codeHash,
    r.verdict = "ok" ∧ hash ∈ j.codesMirror.map (·.codeHash)

theorem OutboxRow.accepted_some {r : OutboxRow} {c : AcceptedCode} (h : r.accepted = some c) :
    r.verdict = "ok" ∧ r.codeHash = some c.codeHash ∧ r.shiftId = c.shiftId ∧ r.boxId = c.boxId ∧
      r.scannedAt = c.scannedAt := by
  obtain ⟨e, codeHash, gtin14, serial, boxId⟩ := r
  by_cases hv : e.verdict = "ok" <;> cases codeHash <;> cases gtin14 <;> cases serial <;>
    simp [OutboxRow.accepted, hv, guard, failure] at h
  subst h
  exact ⟨hv, rfl, rfl, rfl, rfl⟩

theorem Journal.Kept.whole {j : Journal} (h : j.Kept) : j.Whole := by
  have hmem : ∀ c, c ∈ j.codesMirror ↔ ∃ r ∈ j.queued, r.accepted = some c := by
    intro c
    rw [h.codes, List.mem_filterMap]
  refine ⟨fun c hc => ?_, fun c hc => ?_, fun r hr hash hhash => ?_⟩
  · have hcount : ∀ r ∈ j.queued, decide (r.codeHash = some c.codeHash) =
        (r.accepted.map fun c' => decide (c'.codeHash = c.codeHash)).getD false := by
      intro r hr
      cases ha : r.accepted with
      | none =>
        have hnone : r.codeHash = none := by
          by_contra hne
          exact h.carried r hr hne ha
        simp [hnone]
      | some c' => simp [(OutboxRow.accepted_some ha).2.1]
    rw [List.countP_congr fun r hr => by rw [hcount r hr]]
    rw [← List.countP_filterMap, ← h.codes]
    exact h.unique.countP_eq_one hc (by simp) fun x hx hq => of_decide_eq_true hq
  · obtain ⟨r, hr, ha⟩ := (hmem c).1 hc
    exact ⟨r, hr, OutboxRow.accepted_some ha⟩
  · obtain ⟨c, hc⟩ := Option.ne_none_iff_exists'.1
      (h.carried r hr (by rw [Option.mem_def.1 hhash]; exact Option.some_ne_none hash))
    have hc' := OutboxRow.accepted_some hc
    refine ⟨hc'.1, List.mem_map.2 ⟨c, (hmem c).2 ⟨r, hr, hc⟩, ?_⟩⟩
    exact Option.some.inj (hc'.2.1.symm.trans hhash)

/-- The call journals and queues a duplicate without its code, so far as it gets. -/
def Duplicates (x : Scan) (j : Journal) : EStateM.Result String Journal RecordScanResult → Prop
  | .ok r j' => r.alreadyPresent = true ∧ j' =
      { j with
        scanEventsMirror := j.scanEventsMirror ++ [{ x.event with verdict := "duplicate" }]
        outbox := j.outbox ++ [outboxRow { x.event with verdict := "duplicate" } none]
        queued := j.queued ++ [outboxRow { x.event with verdict := "duplicate" } none] }
  | .error _ j' => ∃ events, j' = { j with scanEventsMirror := j.scanEventsMirror ++ events } ∧
      ∀ e ∈ events, e = { x.event with verdict := "duplicate" }

def Accepts (c : AcceptedCode) (j : Journal) : EStateM.Result String Journal RecordScanResult → Prop
  | .ok r j' => r = ⟨true, false⟩ ∧ j'.codesMirror = j.codesMirror ++ [c] ∧
      ∃ row, row.accepted = some c ∧ j'.outbox = j.outbox ++ [row] ∧
        j'.queued = j.queued ++ [row]
  | .error _ _ => False

def Step.codeHash : Step → Option String
  | .scan x _ => x.code.map (·.codeHash)
  | .acknowledge _ => none

section

variable {j : Journal} {x : Scan} {res : EStateM.Result String Journal RecordScanResult}

theorem Recorded.unchanged (h : Recorded j x.event x.code res) {message : String} {j' : Journal}
    (hres : res = .error message j') :
    j'.codesMirror = j.codesMirror ∧ j'.outbox = j.outbox := by
  generalize x.code = code at h
  cases h with
  | refused message events _ =>
    cases hres
    exact ⟨rfl, rfl⟩
  | stored c _ => cases hres
  | uncoded r _ _ => cases hres

theorem Recorded.duplicates (h : Recorded j x.event x.code res) {c : AcceptedCode}
    (hc : c ∈ x.code) (hin : c.codeHash ∈ j.codesMirror.map (·.codeHash)) :
    Duplicates x j res := by
  generalize x.code = code at h hc
  cases h with
  | refused _ message events hevents =>
    refine ⟨events, rfl, fun e he => ?_⟩
    rcases hevents with rfl | ⟨r, rfl, hr⟩
    · exact absurd he List.not_mem_nil
    · rw [List.mem_singleton.1 he, journalled, if_pos (hr c hc hin)]
  | stored c' hnew =>
    obtain rfl : c' = c := Option.some.inj hc
    exact absurd hin hnew
  | uncoded _ r _ hr =>
    have hpresent := hr c hc
    exact ⟨hpresent, by rw [journalled, if_pos hpresent]⟩

theorem Recorded.fresh {e : ScanEventRow} {code : Option AcceptedCode}
    (hres : Recorded j e code res) {hash : String} (hcode : ∀ c ∈ code, c.codeHash ≠ hash)
    (h : hash ∉ j.codesMirror.map (·.codeHash)) :
    hash ∉ (tablesOf res).codesMirror.map (·.codeHash) := by
  cases hres with
  | refused message events _ => exact h
  | stored c _ =>
    intro hmem
    have hmem : hash ∈ (j.codesMirror ++ [c]).map (·.codeHash) := hmem
    rw [List.map_append, List.mem_append] at hmem
    rcases hmem with hmem | hmem
    · exact h hmem
    · exact hcode c rfl (List.mem_singleton.1 hmem).symm
  | uncoded r _ _ => exact h

theorem Step.after_fresh {hash : String} {s : Step} (hs : s.codeHash ≠ some hash)
    (h : hash ∉ j.codesMirror.map (·.codeHash)) :
    hash ∉ (s.after j).codesMirror.map (·.codeHash) := by
  cases s with
  | acknowledge count => exact h
  | scan x faults =>
    refine (recordScanLegacy_cases faults x.event x.code j).fresh (fun c hc he => hs ?_) h
    rw [Step.codeHash, Option.mem_def.1 hc, ← he]
    rfl

theorem run_fresh {hash : String} {steps : List Step} (hsteps : ∀ s ∈ steps, s.codeHash ≠ some hash)
    (h : hash ∉ j.codesMirror.map (·.codeHash)) :
    hash ∉ (run j steps).codesMirror.map (·.codeHash) := by
  induction steps generalizing j with
  | nil => exact h
  | cons s steps ih =>
    exact ih (fun s hs => hsteps s (List.mem_cons_of_mem _ hs))
      (Step.after_fresh (hsteps s List.mem_cons_self) h)

/-- Where nothing fails, a new code is accepted. -/
theorem recordScanLegacy_accepts {c : AcceptedCode} (hx : x.code = some c)
    (h : c.codeHash ∉ j.codesMirror.map (·.codeHash)) : Accepts c j (x.record .none j) := by
  obtain ⟨h1, h2, h3⟩ := x.own c hx
  have hinsert : insertCode .none c j = .ok () { j with codesMirror := j.codesMirror ++ [c] } := by
    rcases insertCode_cases .none c j with ⟨hc, -⟩ | ⟨-, -, hok⟩
    · exact absurd (hc rfl) h
    · exact hok
  have hcode : storeCode .none (some c) j =
      .ok ⟨true, false⟩ { j with codesMirror := j.codesMirror ++ [c] } :=
    Writes.tryCatch_ok (Writes.bind_ok hinsert)
  have hcall : recordScanLegacy .none x.event (some c) j = .ok ⟨true, false⟩
      { codesMirror := j.codesMirror ++ [c]
        scanEventsMirror := j.scanEventsMirror ++ [x.event]
        outbox := j.outbox ++ [outboxRow x.event (some c)]
        queued := j.queued ++ [outboxRow x.event (some c)] } := Writes.bind_ok hcode
  rw [Scan.record, hx, hcall]
  exact ⟨rfl, rfl, _, outboxRow_accepted h1 h2 h3, rfl, rfl⟩

end

/-- **No accepted code is stranded.** After every history the codes on the station are those of the
`ok` rows ever queued. A call that throws leaves the codes and the outbox; a scan of a code that was
kept is a duplicate; and after a call that failed for a new code, a scan of this code is accepted
whenever it comes next. -/
theorem accepted_code_never_stranded (steps : List Step) (x : Scan) (faults : Faults) :
    (run .empty steps).Whole ∧
    (∀ message j', x.record faults (run .empty steps) = .error message j' →
      j'.codesMirror = (run .empty steps).codesMirror ∧
      j'.outbox = (run .empty steps).outbox) ∧
    (∀ c ∈ x.code, c.codeHash ∈ (run .empty steps).codesMirror.map (·.codeHash) →
      Duplicates x (run .empty steps) (x.record faults (run .empty steps))) ∧
    ∀ message j', x.record faults (run .empty steps) = .error message j' →
      ∀ c ∈ x.code, c.codeHash ∉ (run .empty steps).codesMirror.map (·.codeHash) →
        ∀ later : List Step, (∀ s ∈ later, s.codeHash ≠ some c.codeHash) →
          ∀ (y : Scan) (c' : AcceptedCode), y.code = some c' → c'.codeHash = c.codeHash →
            Accepts c' (run j' later) (y.record .none (run j' later)) := by
  refine ⟨(run_kept steps).whole, ?_, ?_, ?_⟩
  · intro message j' h
    exact (recordScanLegacy_cases faults x.event x.code _).unchanged h
  · intro c hc hin
    exact (recordScanLegacy_cases faults x.event x.code _).duplicates hc hin
  · intro message j' h c hc hnew later hlater y c' hy hhash
    have hcodes := ((recordScanLegacy_cases faults x.event x.code _).unchanged h).1
    have hfresh : c.codeHash ∉ (run j' later).codesMirror.map (·.codeHash) :=
      run_fresh hlater (by rwa [hcodes])
    exact recordScanLegacy_accepts hy (by rwa [hhash])

end Markiro.Station
