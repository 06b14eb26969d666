import Markiro.InventorySync.Effects

/-!
# How a batch is answered

The paths of `ingestBatch`: a batch that is stored is answered from its row, a payload that was sent
under another id from that row, a batch for a closed inventory is put aside, and any other batch is
applied (`ingestBatch_ok`).
-/

namespace Markiro.InventorySync

open Results

section

variable {task : Task} {env : Env} {D : Uuid} {b : EventBatch} {t t' : Tables} {a : BatchResponse}

/-! ## The paths that change no code -/

theorem change_recorded {f : Rows → Rows} (h : t.change f = .ok t')
    (hf : ∀ r : Rows, r.Recorded (f r)) : t.toRows.Recorded t'.toRows := by
  rw [Tables.change_ok.1 h]
  exact hf _

theorem readEvidence_recorded {e : Event} {evidence : List ClaimOutcome}
    (h : readEvidence task e t = .ok (evidence, t')) : t.toRows.Recorded t'.toRows := by
  unfold readEvidence at h
  simp only at h
  split_ifs at h
  · obtain ⟨-, rfl⟩ := pair_eq_ok.1 h
    exact .refl _
  · obtain ⟨t1, h1, h⟩ := bind_eq_ok.1 h
    obtain ⟨-, rfl⟩ := pair_eq_ok.1 h
    exact change_recorded h1 fun r => ⟨rfl, rfl⟩
  · obtain ⟨-, rfl⟩ := pair_eq_ok.1 h
    exact .refl _

theorem rebuildOutcomes_recorded {events : List Event} {os : List EventOutcome}
    (h : rebuildOutcomes task t events = .ok (os, t')) : t.toRows.Recorded t'.toRows := by
  induction events generalizing t os with
  | nil =>
    obtain ⟨-, rfl⟩ := pair_eq_ok.1 h
    exact .refl _
  | cons e events ih =>
    rw [rebuildOutcomes] at h
    obtain ⟨⟨evidence, t1⟩, h1, h⟩ := bind_eq_ok.1 h
    obtain ⟨⟨os1, t2⟩, h2, h⟩ := bind_eq_ok.1 h
    obtain ⟨-, rfl⟩ := pair_eq_ok.1 h
    exact (readEvidence_recorded h1).trans (ih h2)

theorem setBatchResult_recorded (D : Uuid) (batchId : Utf16.Units) (a : BatchResponse) (r : Rows) :
    r.Recorded (setBatchResult D batchId a r) :=
  ⟨rfl, rfl⟩

theorem normalizeStoredResponse_recorded {stored : Option BatchResponse} {revision : ℕ}
    (h : normalizeStoredResponse task D b stored revision t = .ok (a, t')) :
    t.toRows.Recorded t'.toRows := by
  unfold normalizeStoredResponse at h
  split at h
  · obtain ⟨-, rfl⟩ := pair_eq_ok.1 h
    exact .refl _
  · obtain ⟨⟨os, t1⟩, h1, h⟩ := bind_eq_ok.1 h
    obtain ⟨t2, h2, h⟩ := bind_eq_ok.1 h
    obtain ⟨-, rfl⟩ := pair_eq_ok.1 h
    exact (rebuildOutcomes_recorded h1).trans (change_recorded h2 (setBatchResult_recorded _ _ _))

theorem answerSameDigest_recorded {same : ScanBatch}
    (h : answerSameDigest task D b same t = .ok (a, t')) : t.toRows.Recorded t'.toRows := by
  unfold answerSameDigest at h
  obtain ⟨⟨prior, t1⟩, h1, h⟩ := bind_eq_ok.1 h
  obtain ⟨t2, h2, h⟩ := bind_eq_ok.1 h
  obtain ⟨-, rfl⟩ := pair_eq_ok.1 h
  exact (normalizeStoredResponse_recorded h1).trans (change_recorded h2 fun r => ⟨rfl, rfl⟩)

theorem quarantine_recorded {xs : List Expanded} (h : quarantine task env D b xs t = .ok (a, t')) :
    t.toRows.Recorded t'.toRows := by
  unfold quarantine at h
  cases hlate : lateRefusal xs with
  | some code =>
    simp only [hlate] at h
    cases h
  | none =>
    simp only [hlate] at h
    obtain ⟨_, -, h⟩ := bind_eq_ok.1 h
    obtain ⟨t1, h1, h⟩ := bind_eq_ok.1 h
    obtain ⟨t2, h2, h⟩ := bind_eq_ok.1 h
    obtain ⟨-, rfl⟩ := pair_eq_ok.1 h
    exact (change_recorded h1 fun r => ⟨rfl, rfl⟩).trans (change_recorded h2 fun r => ⟨rfl, rfl⟩)

end

/-! ## All the paths -/

/-- The rows from which a late batch is let in again. -/
def withoutQuarantined (D : Uuid) (batchId : Utf16.Units) (r : Rows) : Rows :=
  { r with
    scanBatches := Table.delete
      (fun s => s.deviceId = D ∧ s.batchId = batchId ∧ s.outcome = .quarantined) r.scanBatches }

def Unsent (D : Uuid) (b : EventBatch) (t : Tables) : Prop :=
  ∀ s ∈ t.scanBatches, s.deviceId = D → s.payloadDigest ≠ b.payloadDigest

/-- What lets a batch of a running inventory in. -/
structure Admitted (task : Task) (D : Uuid) (b : EventBatch) (replay : Option Uuid) (t : Tables) :
    Prop where
  running : t.status = .running
  snapshot : b.snapshotId = task.snapshotId
  order : replay = none → ∀ high ∈ highWater t D, ∀ e ∈ b.events.head?, high < e.deviceSequence
  newIds : ∀ e ∈ b.events, e.eventId ∉ t.scanEvents.map (·.eventId)

inductive Answered (d : Digests) (task : Task) (env : Env) (D : Uuid) (b : EventBatch)
    (replay : Option Uuid) (t : Tables) (a : BatchResponse) (t' : Tables) : Prop where
  | repeated (same : ScanBatch)
      (hsame : same ∈ t.scanBatches ∧ same.deviceId = D ∧ same.payloadDigest = b.payloadDigest)
      (hanswer : answerSameDigest task D b same t = .ok (a, t'))
  | quarantined (hnew : Unsent D b t) (hclosed : t.status ≠ .running) (xs : List Expanded)
      (hxs : expandAll d task 0 b.events = .ok xs)
      (hanswer : quarantine task env D b xs t = .ok (a, t'))
  | applied (hnew : Unsent D b t) (hadmitted : Admitted task D b replay t) (xs : List Expanded)
      (hxs : expandAll d task 0 b.events = .ok xs) (t1 : Tables)
      (hanswer : applyBatch task env D b xs t = .ok (a, t1))
      (hlast : t'.toRows = { t1.toRows with lateEvents := t'.lateEvents })

/-- The rows on which a batch that is new under its id is answered: those there are, or those the
cabinet has it let in again from. -/
inductive Entered (D : Uuid) (b : EventBatch) (request : Option Uuid) (t : Tables) :
    Option Uuid → Tables → Prop where
  | fresh (hnew : ∀ s ∈ t.scanBatches, s.deviceId = D → s.batchId ≠ b.batchId) :
      Entered D b request t none t
  | again (lateEventId : Uuid) (t1 : Tables) (hasked : request = some lateEventId)
      (hrunning : t.status = .running) (same : ScanBatch)
      (hsame : same ∈ t.scanBatches ∧ same.deviceId = D ∧ same.batchId = b.batchId)
      (hdigest : same.payloadDigest = b.payloadDigest) (hlate : same.outcome = .quarantined)
      (hrows : t1.toRows = withoutQuarantined D b.batchId t.toRows) :
      Entered D b request t (some lateEventId) t1

inductive Served (d : Digests) (task : Task) (env : Env) (D : Uuid) (b : EventBatch)
    (request : Option Uuid) (t : Tables) (a : BatchResponse) (t' : Tables) : Prop where
  | stored (same : ScanBatch)
      (hsame : same ∈ t.scanBatches ∧ same.deviceId = D ∧ same.batchId = b.batchId)
      (hdigest : same.payloadDigest = b.payloadDigest)
      (hanswer : normalizeStoredResponse task D b same.result t.resultRevision t = .ok (a, t'))
  | other (replay : Option Uuid) (t1 : Tables) (hfrom : Entered D b request t replay t1)
      (hanswered : Answered d task env D b replay t1 a t')

section

variable {d : Digests} {task : Task} {env : Env} {D : Uuid} {b : EventBatch} {t t' : Tables}
  {a : BatchResponse}

theorem Entered.recorded {request replay : Option Uuid} {t1 : Tables}
    (h : Entered D b request t replay t1) :
    t.toRows.Recorded t1.toRows := by
  cases h with
  | fresh => exact .refl _
  | again lateEventId _ hasked hrunning same hsame hdigest hlate hrows =>
    rw [hrows]
    exact ⟨rfl, rfl⟩

theorem late_recorded {r r' : Rows} (h : r' = { r with lateEvents := r'.lateEvents }) :
    r.Recorded r' := by
  rw [h]
  exact ⟨rfl, rfl⟩

theorem ingestNew_ok {p : Participant} {replay : Option Uuid} (hnew : Unsent D b t)
    (h : ingestNew d task env D p b replay t = .ok (a, t')) :
    Answered d task env D b replay t a t' := by
  unfold ingestNew at h
  obtain ⟨_, hsnapshot, h⟩ := bind_eq_ok.1 h
  obtain ⟨_, -, h⟩ := bind_eq_ok.1 h
  obtain ⟨xs, hxs, h⟩ := bind_eq_ok.1 h
  split_ifs at h with hrunning
  · exact .quarantined hnew hrunning xs hxs h
  · obtain ⟨_, -, h⟩ := bind_eq_ok.1 h
    obtain ⟨_, horder, h⟩ := bind_eq_ok.1 h
    obtain ⟨_, hfresh, h⟩ := bind_eq_ok.1 h
    obtain ⟨⟨a1, t1⟩, h1, h⟩ := bind_eq_ok.1 h
    have hadmitted : Admitted task D b replay t := by
      refine ⟨not_not.1 hrunning, ensure_ok.1 hsnapshot, fun hnone => ?_, fun e he hin => ?_⟩
      · refine (ensure_ok.1 horder).resolve_left fun hsome => ?_
        rw [hnone] at hsome
        cases hsome
      · obtain ⟨row, hrow, hid⟩ := List.mem_map.1 hin
        refine (ensure_ok.1 hfresh).1 (List.any_eq_true.2 ⟨row, hrow, ?_⟩)
        refine List.any_eq_true.2 ⟨e, he, ?_⟩
        rw [hid, beq_self_eq_true, Bool.true_or]
    cases replay with
    | none =>
      obtain ⟨rfl, rfl⟩ := pair_eq_ok.1 h
      exact .applied hnew hadmitted xs hxs t1 h1 rfl
    | some lateEventId =>
      obtain ⟨t2, h2, h⟩ := bind_eq_ok.1 h
      obtain ⟨rfl, rfl⟩ := pair_eq_ok.1 h
      refine .applied hnew hadmitted xs hxs t1 h1 ?_
      rw [Tables.change_ok.1 h2]

theorem ingestOther_ok {p : Participant} {replay : Option Uuid}
    (h : ingestOther d task env D p b replay t = .ok (a, t')) :
    Answered d task env D b replay t a t' := by
  unfold ingestOther at h
  cases hsame : t.scanBatches.find? fun s =>
      s.deviceId = D ∧ s.payloadDigest = b.payloadDigest with
  | some same =>
    simp only [hsame] at h
    have hkey := List.find?_some hsame
    exact .repeated same ⟨List.mem_of_find?_eq_some hsame, of_decide_eq_true hkey⟩ h
  | none =>
    simp only [hsame] at h
    refine ingestNew_ok (fun s hs hdevice hdigest => ?_) h
    have hno := List.find?_eq_none.1 hsame s hs
    exact hno (decide_eq_true ⟨hdevice, hdigest⟩)

/-- **How a batch is answered.** -/
theorem ingestBatch_ok {request : Option Uuid}
    (h : ingestBatch d task env D b request t = .ok (a, t')) :
    (∃ p ∈ t.participants, p.deviceId = D) ∧ Served d task env D b request t a t' := by
  unfold ingestBatch at h
  cases hp : t.participants.find? (·.deviceId = D) with
  | none =>
    simp only [hp] at h
    cases h
  | some p =>
    simp only [hp] at h
    have hdevice := List.find?_some hp
    refine ⟨⟨p, List.mem_of_find?_eq_some hp, of_decide_eq_true hdevice⟩, ?_⟩
    cases hsame : t.scanBatches.find? fun s => s.deviceId = D ∧ s.batchId = b.batchId with
    | none =>
      simp only [hsame] at h
      refine .other none t (.fresh fun s hs hdevice hid => ?_) (ingestOther_ok h)
      exact List.find?_eq_none.1 hsame s hs (decide_eq_true ⟨hdevice, hid⟩)
    | some same =>
      simp only [hsame] at h
      have hmem := List.mem_of_find?_eq_some hsame
      have hfound := List.find?_some hsame
      have hkey : same.deviceId = D ∧ same.batchId = b.batchId := of_decide_eq_true hfound
      obtain ⟨_, hdigest, h⟩ := bind_eq_ok.1 h
      split at h
      · rename_i late hlate
        obtain ⟨id, hasked, hlate⟩ := Option.bind_eq_some_iff.1 hlate
        split_ifs at hlate with hquarantined
        have hid := List.find?_some hlate
        obtain rfl : late.id = id := (of_decide_eq_true hid).2.2.2.2.1
        obtain ⟨t1, h1, h⟩ := bind_eq_ok.1 h
        exact .other (some late.id) t1 (.again late.id t1 hasked hquarantined.2 same ⟨hmem, hkey⟩
          (ensure_ok.1 hdigest) hquarantined.1 (Tables.change_ok.1 h1)) (ingestOther_ok h)
      · exact .stored same ⟨hmem, hkey⟩ (ensure_ok.1 hdigest) h

end

end Markiro.InventorySync
