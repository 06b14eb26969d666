import Markiro.Cloud.Exceptions

/-!
# What the boxes of the cloud hold, over whole runs

A tenant's batches run one after another from empty tables. Every one of them keeps `Tables.Sound`,
as long as no undo names another box than the one that holds the scan it takes back: the undo
releases the registry row by its scan alone, and takes the membership out of the named box only.
-/

namespace Markiro.Cloud

section

variable {srv : Server} {t t' : Tables} {call : Call} {body : StationBatch}

/-! ## One batch -/

/-- The scan an undo names stands in another box of the device: as a live row or as a scan of the
batch, and no scan of its code was made earlier. -/
def MissesBox (terminal : String) (scans : List BatchScan) (t : Tables) (ex : ExceptionFact) :
    Prop :=
  ex.kind = .undo ∧
  (boxAt t.boxes (ex.boxKey terminal) ≠ none ∨
    ∃ scan ∈ scans, scan.boxKey? = some (ex.boxKey terminal)) ∧
  ∃ codeHash ∈ ex.codeHash, ∃ target ∈ ex.targetScannedAt, ∃ box : BoxKey,
    box ≠ ex.boxKey terminal ∧ box.shiftId = ex.shiftId ∧ box.terminalId = some terminal ∧
    (liveAt t.boxItems box codeHash = some target ∨
      ∃ scan ∈ scans, scan.boxKey? = some box ∧ scan.codeHash = codeHash ∧
        scan.scannedAt = target) ∧
    (∀ owner ∈ t.codeRegistry codeHash, target ≤ owner.scannedAt) ∧
    ∀ scan ∈ scans, scan.codeHash = codeHash → target ≤ scan.scannedAt

/-- No undo that a new batch brings in names another box than its scan's. -/
def UndosAim (call : Call) (body : StationBatch) (t : Tables) : Prop :=
  t.syncBatches body.batchId = none → ∀ records, admitted call.access body = .ok records →
    ∀ ex ∈ records.exceptions,
      ¬ MissesBox call.terminal (batchScans call.terminal records.items) t ex

theorem boxAt_closures {terminal : String} {closures : List BoxClosure} {key : BoxKey} :
    boxAt (applyClosures srv terminal closures t).boxes key = none ↔ boxAt t.boxes key = none := by
  rw [applyClosures]
  generalize sortClosures srv closures = sorted
  induction sorted generalizing t with
  | nil => rfl
  | cons c sorted ih =>
    rw [List.foldl_cons, ih]
    change boxAt (t.boxes.map _) key = none ↔ _
    rw [boxAt_map (fun row => by split <;> rfl), Option.map_eq_none_iff]

theorem applyClosures_boxItems {terminal : String} {closures : List BoxClosure} :
    (applyClosures srv terminal closures t).boxItems = t.boxItems := by
  rw [applyClosures]
  generalize sortClosures srv closures = sorted
  induction sorted generalizing t with
  | nil => rfl
  | cons c sorted ih => rw [List.foldl_cons, ih]; rfl

theorem undoAims_applyScans {now : ℤ} {scans : List BatchScan} {ex : ExceptionFact} (ht : t.Sound)
    {terminal : String} {closures : List BoxClosure} (hex : ¬ MissesBox terminal scans t ex) :
    UndoAims (applyClosures srv terminal closures (applyScans srv now scans t).1) terminal ex := by
  intro hk hb codeHash hc target hg box hl hs hterm
  by_contra hne
  rw [applyClosures_boxItems] at hl
  have hl := (liveAt_applyScans.1 hl).1
  obtain ⟨hrow, hscan⟩ := scanClaims_le (scanItems_owned ht hl)
  refine hex ⟨hk, ?_, codeHash, hc, target, hg, box, hne, hs, hterm, ?_, hrow, hscan⟩
  · by_contra hno
    push Not at hno
    rw [ne_eq, boxAt_closures, applyScans_boxes, boxAt_openBoxes_of_none hno.1, if_neg] at hb
    · exact hb rfl
    · rintro ⟨scan, hmem, hkey⟩
      exact hno.2 scan hmem hkey
  · obtain ⟨hl | ⟨row, hmem, -, rfl, rfl, rfl⟩, -⟩ := liveAt_scanItems hl
    · exact .inl hl
    · obtain ⟨scan, hmem, hkey, -, hcode, ht, -⟩ := mem_membershipRows.1 hmem
      exact .inr ⟨scan, hmem, hkey, hcode, ht⟩

theorem applyRecords_eq : applyRecords srv call body t =
    applyExceptions srv call.now call.terminal (batchScans call.terminal body.items) body.exceptions
      (applyClosures srv call.terminal body.boxes
        (applyScans srv call.now (batchScans call.terminal body.items) t).1,
        (applyScans srv call.now (batchScans call.terminal body.items) t).2) := rfl

theorem applyRecords_sound (ht : t.Sound)
    (haim : ∀ ex ∈ body.exceptions,
      ¬ MissesBox call.terminal (batchScans call.terminal body.items) t ex) :
    (applyRecords srv call body t).1.Sound := by
  rw [applyRecords_eq, applyExceptions]
  split
  · exact applyClosures_sound (applyScans_sound ht) _
  · refine reclaimReleasedCodes_sound (foldl_applyException_sound
      (applyClosures_sound (applyScans_sound ht) _) fun ex hex => ?_)
    rw [sortExceptions, List.mem_insertionSort] at hex
    exact undoAims_applyScans ht (haim ex hex)

/-- What an accepted call did: nothing to the tables that matter, or the records let through. -/
theorem applyBatch_cases {r : BatchResponse} (h : applyBatch srv call body t = .ok (t', r)) :
    t' = t ∨ ∃ records row, t.syncBatches body.batchId = none ∧
      admitted call.access body = .ok records ∧
      t' = bindBatch records.batchId row (applyRecords srv call records t).1 := by
  rw [applyBatch] at h
  split at h
  · cases h
    exact .inl rfl
  · split at h
    · cases h
      exact .inl rfl
    · cases h
  case h_3 hnew =>
    cases ha : admitted call.access body with
    | error e => rw [ha] at h; cases h
    | ok records =>
      rw [ha] at h
      cases h
      exact .inr ⟨records, _, hnew, rfl, rfl⟩

theorem applyBatch_new {records : StationBatch} (hnew : t.syncBatches body.batchId = none)
    (ha : admitted call.access body = .ok records) :
    applyBatch srv call body t =
      .ok (bindBatch records.batchId ⟨some call.terminal, some (srv.payloadDigest call.terminal body),
          some ⟨records.items.length, false, (applyRecords srv call records t).2.map (·.1)⟩⟩
          (applyRecords srv call records t).1,
        ⟨records.items.length, false, (applyRecords srv call records t).2.map (·.1)⟩) := by
  rw [applyBatch, hnew, ha]
  rfl

theorem applyBatch_sound {r : BatchResponse} (ht : t.Sound) (haim : UndosAim call body t)
    (h : applyBatch srv call body t = .ok (t', r)) : t'.Sound := by
  obtain rfl | ⟨records, row, hnew, ha, rfl⟩ := applyBatch_cases h
  · exact ht
  · have hs : (applyRecords srv call records t).1.Sound :=
      applyRecords_sound ht (haim hnew records ha)
    exact ⟨hs.unique, hs.owned, hs.standing, hs.single⟩

/-! ## Runs -/

/-- The tables a tenant reaches from empty ones by accepted calls that each meet `P`. -/
inductive Run (srv : Server) (P : Call → StationBatch → Tables → Prop) : Tables → Prop
  | empty : Run srv P Tables.empty
  | step {t t' : Tables} {call : Call} {body : StationBatch} {r : BatchResponse} :
      Run srv P t → P call body t → applyBatch srv call body t = .ok (t', r) → Run srv P t'

theorem Tables.Sound.empty : Tables.empty.Sound where
  unique := List.nodup_nil
  owned hl := by cases hl
  standing hl := by cases hl
  single hl := by cases hl

theorem Run.sound (h : Run srv UndosAim t) : t.Sound := by
  induction h with
  | empty => exact Tables.Sound.empty
  | step _ haim hb ih => exact applyBatch_sound ih haim hb

/-- **A box counts only what its own scan owns**, in every run whose undos name their scan's box:
each live membership is backed by the registry row of its own scan, is the only live one of its code
and stands in no box taken apart. -/
theorem boxes_count_owned_scans (h : Run srv UndosAim t) :
    (∀ box codeHash row, t.boxItems box codeHash = some row → row.live = true →
      t.codeRegistry codeHash = some ⟨box.shiftId, box.terminalId, row.addedAt⟩) ∧
    (∀ box box' codeHash row row', t.boxItems box codeHash = some row → row.live = true →
      t.boxItems box' codeHash = some row' → row'.live = true → box = box' ∧ row = row') ∧
    ∀ box codeHash row, t.boxItems box codeHash = some row → row.live = true →
      ∃ b ∈ t.boxes, b.key = box ∧ b.disassembledAt = none ∧ ∀ b' ∈ t.boxes, b'.key = box → b' = b := by
  have hs := h.sound
  have hlive : ∀ {box codeHash row}, t.boxItems box codeHash = some row → row.live = true →
      liveAt t.boxItems box codeHash = some row.addedAt := fun hrow hl =>
    liveAt_eq_some.2 ⟨_, hrow, hl, rfl⟩
  refine ⟨fun box c row hrow hl => hs.owned (hlive hrow hl), ?_, ?_⟩
  · intro box box' c row row' hrow hl hrow' hl'
    obtain rfl := hs.single (hlive hrow hl) (hlive hrow' hl')
    exact ⟨rfl, Option.some.inj (hrow.symm.trans hrow')⟩
  · intro box c row hrow hl
    obtain ⟨b, hb, hd⟩ := hs.standing (hlive hrow hl)
    obtain ⟨hmem, rfl⟩ := boxAt_mem hb
    exact ⟨b, hmem, rfl, hd, fun b' hb' hkey => hs.unique.eq hb' hmem hkey⟩

end

/-! ## A run, and an undo that names another box -/

namespace Sample

def server : Server where
  uuid key := key.deviceBoxId.length
  localeCompare a b := compareOfLessAndEq a b
  payloadDigest terminal body := terminal ++ "|" ++ reprStr body

def call : Call := ⟨"d", 0, .full fun _ => true⟩

def box (id : String) : BoxKey := ⟨"s", some "d", id⟩

/-- What the tables hold after a batch under a new id. -/
def after (body : StationBatch) (t : Tables) : Tables :=
  bindBatch body.batchId ⟨some call.terminal, some (server.payloadDigest call.terminal body),
    some ⟨body.items.length, false, (applyRecords server call body t).2.map (·.1)⟩⟩
    (applyRecords server call body t).1

theorem applyBatch_after (body : StationBatch) (t : Tables)
    (hnew : t.syncBatches body.batchId = none) :
    ∃ r, applyBatch server call body t = .ok (after body t, r) := by
  have ha : admitted call.access body = .ok body := by simp [admitted, call]
  exact ⟨_, applyBatch_new hnew ha⟩

/-- Two codes scanned into two boxes. -/
def packed : StationBatch :=
  ⟨"1", [⟨"s", some "c", 1, some "b1"⟩, ⟨"s", some "e", 2, some "b"⟩], [], []⟩

/-- The scan of `c` taken back out of its own box, and `c` scanned again. -/
def corrected : StationBatch :=
  ⟨"2", [⟨"s", some "c", 4, some "b"⟩], [], [⟨.undo, "b1", some "c", some 1, "s", 3⟩]⟩

/-- The same undo, naming the other box. -/
def astray : StationBatch := ⟨"2", [], [], [⟨.undo, "b", some "c", some 1, "s", 3⟩]⟩

theorem run_packed {P : Call → StationBatch → Tables → Prop} (hP : P call packed Tables.empty) :
    Run server P (after packed Tables.empty) := by
  obtain ⟨r, hr⟩ := applyBatch_after packed Tables.empty rfl
  exact Run.empty.step hP hr

theorem run_corrected : Run server UndosAim (after corrected (after packed Tables.empty)) := by
  have hp : Run server UndosAim (after packed Tables.empty) := by
    refine run_packed fun _ records ha ex hex => ?_
    cases ha
    cases hex
  obtain ⟨r, hr⟩ := applyBatch_after corrected (after packed Tables.empty) (by decide +kernel)
  refine hp.step (fun _ records ha ex hex => ?_) hr
  cases ha
  obtain rfl := List.mem_singleton.1 hex
  rintro ⟨-, -, c, hc, g, hg, b, hne, -, -, hl | ⟨scan, hscan, -, -, hat⟩, -, -⟩
  · cases hc
    cases hg
    exact hne (hp.sound.single hl (show liveAt _ (box "b1") "c" = some 1 by decide +kernel))
  · cases hg
    obtain rfl := List.mem_singleton.1 hscan
    cases hat

end Sample

open Sample

theorem boxes_count_owned_scans_sample :
    (after corrected (after packed Tables.empty)).boxItems
      (box "b") "c" = some ⟨4, none, none⟩ ∧
    (after corrected (after packed Tables.empty)).codeRegistry "c" =
      some ⟨"s", some "d", 4⟩ :=
  ⟨by decide +kernel, (boxes_count_owned_scans run_corrected).1 (box "b") "c"
    ⟨4, none, none⟩ (by decide +kernel) rfl⟩

/-- An undo naming another box of the device leaves a live membership that no registry row backs. -/
theorem undo_astray_keeps_membership :
    ∃ t, Run server (fun _ _ _ => True) t ∧
      t.boxItems (box "b1") "c" = some ⟨1, none, none⟩ ∧ t.codeRegistry "c" = none := by
  obtain ⟨r, hr⟩ := applyBatch_after astray (after packed Tables.empty)
    (by decide +kernel)
  exact ⟨_, (run_packed trivial).step trivial hr, by decide +kernel, by decide +kernel⟩

end Markiro.Cloud
