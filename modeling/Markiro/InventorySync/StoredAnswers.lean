import Markiro.InventorySync.Readable

/-!
# Every answer is readable, and stays

1. a batch is stored with a readable answer, whichever way it is answered (`served_stored`);
2. a batch that is stored with a readable answer is answered with it, until the cabinet has it let
   in again (`Stored.call`);
3. so every answer of a run is readable, and every repeat the same (`answers_readable`).
-/

namespace Markiro.InventorySync

open Results

/-! ## Stored rows -/

/-- The batch a row is of, given its payload. -/
def ScanBatch.batchOf (s : ScanBatch) (p : Payload) : EventBatch :=
  { toPayload := p, batchId := s.batchId, payloadDigest := s.payloadDigest }

/-- The row has the answer, which is readable; that of a late batch puts every event aside. -/
structure ScanBatch.Stored (task : Task) (D : Uuid) (p : Payload) (s : ScanBatch)
    (a : BatchResponse) : Prop where
  device : s.deviceId = D
  result : s.result = some a
  answers : a.Answers task.inventoryId (some D) (s.batchOf p)
  late : s.outcome = .quarantined → ∀ o ∈ a.outcomes, o.status = .quarantined

def StoredAll (d : Digests) (task : Task) (D : Uuid) (p : Payload) (r : Rows) : Prop :=
  ∀ s ∈ r.scanBatches, s.deviceId = D → s.payloadDigest = d.payload p → ∃ a, s.Stored task D p a

def Distinct (d : Digests) (D : Uuid) (p : Payload) (D' : Uuid) (b : EventBatch) : Prop :=
  D' = D → d.payload b.toPayload = d.payload p → b.toPayload = p

section

variable {d : Digests} {task : Task} {env : Env} {D D' : Uuid} {p : Payload} {b : EventBatch}
  {t t' : Tables} {a : BatchResponse} {s same : ScanBatch}

theorem batchOf_eq (hid : s.batchId = b.batchId) (hdigest : s.payloadDigest = b.payloadDigest)
    (hp : b.toPayload = p) : s.batchOf p = b := by
  unfold ScanBatch.batchOf
  rw [hid, hdigest, ← hp]

/-! ## Answers from a stored row -/

theorem readEvidence_batches {e : Event} {evidence : List ClaimOutcome}
    (h : readEvidence task e t = .ok (evidence, t')) : t'.scanBatches = t.scanBatches := by
  unfold readEvidence at h
  simp only at h
  split_ifs at h
  · obtain ⟨-, rfl⟩ := pair_eq_ok.1 h
    rfl
  · obtain ⟨t1, h1, h⟩ := bind_eq_ok.1 h
    obtain ⟨-, rfl⟩ := pair_eq_ok.1 h
    rw [Tables.change_ok.1 h1]
  · obtain ⟨-, rfl⟩ := pair_eq_ok.1 h
    rfl

theorem rebuildOutcomes_batches {events : List Event} {os : List EventOutcome}
    (h : rebuildOutcomes task t events = .ok (os, t')) : t'.scanBatches = t.scanBatches := by
  induction events generalizing t os with
  | nil =>
    obtain ⟨-, rfl⟩ := pair_eq_ok.1 h
    rfl
  | cons e events ih =>
    rw [rebuildOutcomes] at h
    obtain ⟨⟨evidence, t1⟩, h1, h⟩ := bind_eq_ok.1 h
    obtain ⟨⟨os1, t2⟩, h2, h⟩ := bind_eq_ok.1 h
    obtain ⟨-, rfl⟩ := pair_eq_ok.1 h
    rw [ih h2, readEvidence_batches h1]

/-- A readable answer is given again; another is replaced in its row. -/
theorem normalizeStoredResponse_ok {stored : Option BatchResponse} {revision : ℕ}
    (h : normalizeStoredResponse task D b stored revision t = .ok (a, t')) :
    (stored = some a ∧ a.Answers task.inventoryId (some D) b ∧ t' = t) ∨
      (∀ r, stored = some r → ¬r.Answers task.inventoryId (some D) b) ∧
        t'.scanBatches = Table.update (fun s => s.deviceId = D ∧ s.batchId = b.batchId)
          (fun s => { s with result := some a }) t.scanBatches := by
  unfold normalizeStoredResponse at h
  have hparse : ∀ r : BatchResponse, parseInventoryEventBatchResponse r b task.inventoryId D =
      if r.Answers task.inventoryId (some D) b then some r else none := fun _ => rfl
  split at h
  · rename_i r hr
    obtain ⟨rfl, rfl⟩ := pair_eq_ok.1 h
    obtain ⟨r', hr', hread⟩ := Option.bind_eq_some_iff.1 hr
    rw [hparse] at hread
    split_ifs at hread with hanswers
    obtain rfl := Option.some.inj hread
    exact .inl ⟨hr', hanswers, rfl⟩
  · rename_i hnone
    obtain ⟨⟨os, t1⟩, h1, h⟩ := bind_eq_ok.1 h
    obtain ⟨t2, h2, h⟩ := bind_eq_ok.1 h
    obtain ⟨rfl, rfl⟩ := pair_eq_ok.1 h
    refine .inr ⟨fun r hr hanswers => ?_, ?_⟩
    · rw [hr, Option.bind_some, hparse, if_pos hanswers] at hnone
      cases hnone
    · rw [Tables.change_ok.1 h2, ← rebuildOutcomes_batches h1]
      rfl

/-- **The answer from a row**: a row that is stored stays, and is the answer to its batch. -/
theorem normalized_stored {revision : ℕ} (hdistinct : Distinct d D p D' b)
    (hdigest : b.payloadDigest = d.payload b.toPayload)
    (hsame : same ∈ t.scanBatches ∧ same.deviceId = D' ∧ same.batchId = b.batchId)
    (hd : same.payloadDigest = b.payloadDigest)
    (h : normalizeStoredResponse task D' b same.result revision t = .ok (a, t')) :
    (∀ s a', s ∈ t.scanBatches → s.payloadDigest = d.payload p → s.Stored task D p a' →
        s ∈ t'.scanBatches ∧ (s = same → a = a' ∧ t' = t)) ∧
      (StoredAll d task D p t.toRows → StoredAll d task D p t'.toRows) := by
  have hunique := t.kept.scans.batches
  have hkey : ∀ s ∈ t.scanBatches, s.deviceId = D' ∧ s.batchId = b.batchId → s = same :=
    fun s hs hk => hunique.eq hs hsame.1 (Prod.ext (hk.1.trans hsame.2.1.symm)
      (hk.2.trans hsame.2.2.symm))
  -- a stored row of this key answers the batch
  have hread : ∀ s a', s.payloadDigest = d.payload p → s.Stored task D p a' → s = same →
      same.result = some a' ∧ a'.Answers task.inventoryId (some D') b := by
    rintro s a' hs hstored rfl
    have hDD : D' = D := hsame.2.1.symm.trans hstored.device
    have hp : b.toPayload = p := hdistinct hDD (by rw [← hdigest, ← hd, hs])
    refine ⟨hstored.result, ?_⟩
    rw [hDD, ← batchOf_eq hsame.2.2 hd hp]
    exact hstored.answers
  rcases normalizeStoredResponse_ok h with ⟨hresult, hanswers, rfl⟩ | ⟨hnone, hrows⟩
  · refine ⟨fun s a' hs hdp hstored => ⟨hs, fun hss => ⟨?_, rfl⟩⟩, fun hall => hall⟩
    exact Option.some.inj (hresult.symm.trans (hread s a' hdp hstored hss).1)
  · constructor
    · intro s a' hs hdp hstored
      have hne : s ≠ same := fun hss =>
        hnone a' (hread s a' hdp hstored hss).1 (hread s a' hdp hstored hss).2
      refine ⟨?_, fun hss => (hne hss).elim⟩
      rw [hrows]
      exact Table.mem_update_of_not hs (decide_eq_false fun hk => hne (hkey s hs hk))
    · intro hall s hs hdevice hdp
      rw [hrows] at hs
      obtain ⟨u, hu, rfl⟩ := Table.mem_update.1 hs
      split_ifs at hdevice hdp ⊢ with hsel
      · obtain ⟨a', hstored⟩ := hall u hu hdevice hdp
        have hus := hkey u hu (of_decide_eq_true hsel)
        exact absurd (hread u a' hdp hstored hus).2 (hnone a' (hread u a' hdp hstored hus).1)
      · exact hall u hu hdevice hdp

/-! ## Answers to a payload that was sent under another id -/

theorem EventOutcome.Accepted.replayed {o : EventOutcome} (h : o.Accepted) :
    ({ o with status := .replay, reasonCode := .batchReplay } : EventOutcome).Accepted :=
  { h with consistent := rfl }

theorem EventOutcome.Answers.replayed {o : EventOutcome} {e : Event} {D : Option Uuid}
    (h : o.Answers D e) (hlive : ¬(o.status = .rejected ∨ o.status = .quarantined)) :
    ({ o with status := .replay, reasonCode := .batchReplay } : EventOutcome).Answers D e := by
  have hbearing : o.status.claimBearing = true := by
    cases hs : o.status with
    | rejected => exact absurd (.inl hs) hlive
    | quarantined => exact absurd (.inr hs) hlive
    | _ => rfl
  exact ⟨fun _ => h.item hbearing, fun _ => h.oldBox hbearing, nofun, h.claimed⟩

theorem replayed_readable {inventoryId : Uuid} {D : Option Uuid} {batchId : Utf16.Units}
    (h : a.Answers inventoryId D { b with batchId := batchId })
    (hid : 1 ≤ b.batchId.length ∧ b.batchId.length ≤ 128) :
    (a.replayed b.batchId).Answers inventoryId D b := by
  have hacc := h.accepted
  have hcopy : ∀ o ∈ (a.replayed b.batchId).outcomes, ∃ o' ∈ a.outcomes, o.eventId = o'.eventId ∧
      o.Accepted ∧ ∀ e, o'.Answers D e → o.Answers D e := by
    intro o ho
    obtain ⟨o', ho', rfl⟩ := List.mem_map.1 ho
    refine ⟨o', ho', ?_⟩
    split_ifs with hdead
    · exact ⟨rfl, hacc.outcomes o' ho', fun _ he => he⟩
    · exact ⟨rfl, (hacc.outcomes o' ho').replayed, fun _ he => he.replayed hdead⟩
  have hids : (a.replayed b.batchId).outcomes.map (·.eventId) = a.outcomes.map (·.eventId) := by
    unfold BatchResponse.replayed
    rw [List.map_map]
    refine List.map_congr_left fun o _ => ?_
    rw [Function.comp_apply]
    split_ifs <;> rfl
  have hclaims : (a.replayed b.batchId).outcomes.map (·.claims.length) =
      a.outcomes.map (·.claims.length) := by
    unfold BatchResponse.replayed
    rw [List.map_map]
    refine List.map_congr_left fun o _ => ?_
    rw [Function.comp_apply]
    split_ifs <;> rfl
  have hlength : (a.replayed b.batchId).outcomes.length = a.outcomes.length := by
    unfold BatchResponse.replayed
    rw [List.length_map]
  refine ⟨⟨hid, hacc.ceiling, hacc.revision, hlength ▸ hacc.size, fun o ho => ?_, hclaims ▸ hacc.claims⟩,
    h.inventoryId, h.snapshotId, rfl, h.payloadDigest, h.ceiling, hlength.trans h.size,
    hids ▸ h.named, fun o ho => ?_⟩
  · obtain ⟨_, -, -, ho, -⟩ := hcopy o ho
    exact ho
  · obtain ⟨o', ho', hsame, -, hanswers⟩ := hcopy o ho
    obtain ⟨e, he, h'⟩ := h.outcomes o' ho'
    rw [hsame]
    exact ⟨e, he, hanswers e h'⟩

/-! ## Every way of answering -/

/-- The batch is not applied again: where it would be, the events that take codes carry their
instants as `toISOString` writes them. -/
def WrittenFree (d : Digests) (task : Task) (D : Uuid) (b : EventBatch) (t : Tables) : Prop :=
  (∀ s ∈ t.scanBatches, s.deviceId = D → s.payloadDigest = b.payloadDigest →
    s.outcome = .quarantined) → Written d task D b t

theorem quarantine_ok {xs : List Expanded} (h : quarantine task env D b xs t = .ok (a, t')) :
    (t.status = .closed ∨ t.status = .completed) ∧
      a = respond task b t.resultRevision
        (b.events.map (quarantinedOutcome (closedReason t.status))) ∧
      t'.scanBatches = t.scanBatches ++ [⟨D, b.batchId, b.payloadDigest, b.sequenceCeiling,
        .quarantined, some a⟩] := by
  unfold quarantine at h
  cases hlate : lateRefusal xs with
  | some code =>
    simp only [hlate] at h
    cases h
  | none =>
    simp only [hlate] at h
    obtain ⟨_, hclosed, h⟩ := bind_eq_ok.1 h
    obtain ⟨t1, h1, h⟩ := bind_eq_ok.1 h
    obtain ⟨t2, h2, h⟩ := bind_eq_ok.1 h
    obtain ⟨rfl, rfl⟩ := pair_eq_ok.1 h
    refine ⟨ensure_ok.1 hclosed, rfl, ?_⟩
    rw [Tables.change_ok.1 h2, Tables.change_ok.1 h1]

theorem quarantined_readable (hb : b.Accepted d.payload) (status : Status) :
    (respond task b t.resultRevision
      (b.events.map (quarantinedOutcome (closedReason status)))).Answers task.inventoryId (some D)
        b := by
  refine respond_readable hb (t.kept.feed.revision.trans (by decide)) ?_ ?_
  · rw [List.forall₂_map_right_iff]
    refine List.forall₂_same.2 fun e _ => ⟨rfl, ⟨Nat.zero_le _, ?_, List.nodup_nil, ?_, rfl, rfl, ?_⟩,
      ⟨nofun, nofun, nofun, ?_⟩⟩
    · exact fun _ hc => absurd hc List.not_mem_nil
    · exact fun _ hc => absurd hc List.not_mem_nil
    · refine ⟨rfl, ?_⟩
      unfold quarantinedOutcome closedReason
      split_ifs
      · exact .inr rfl
      · exact .inl rfl
    · exact fun _ hc => absurd hc List.not_mem_nil
  · refine (List.sum_eq_zero fun n hn => ?_).trans_le (Nat.zero_le _)
    obtain ⟨o, ho, rfl⟩ := List.mem_map.1 hn
    obtain ⟨e, -, rfl⟩ := List.mem_map.1 ho
    rfl

structure Leaves (d : Digests) (task : Task) (D : Uuid) (p : Payload) (D' : Uuid) (b : EventBatch)
    (a : BatchResponse) (t' : Tables) : Prop where
  all : StoredAll d task D p t'.toRows
  own : D' = D → b.toPayload = p → ∃ s ∈ t'.scanBatches, s.batchId = b.batchId ∧
    s.payloadDigest = b.payloadDigest ∧ s.Stored task D p a

theorem Leaves.appended {row : ScanBatch} (hall : StoredAll d task D p t.toRows)
    (hdistinct : Distinct d D p D' b) (hdigest : b.payloadDigest = d.payload b.toPayload)
    (hrow : row.deviceId = D' ∧ row.batchId = b.batchId ∧ row.payloadDigest = b.payloadDigest)
    (hresult : row.result = some a) (hread : D' = D → b.toPayload = p →
      a.Answers task.inventoryId (some D) b)
    (hlate : D' = D → b.toPayload = p → row.outcome = .quarantined →
      ∀ o ∈ a.outcomes, o.status = .quarantined)
    (hrows : t'.scanBatches = t.scanBatches ++ [row]) : Leaves d task D p D' b a t' := by
  have hstored : D' = D → b.toPayload = p → row.Stored task D p a := fun hD hp =>
    ⟨hrow.1.trans hD, hresult, by rw [batchOf_eq hrow.2.1 hrow.2.2 hp]; exact hread hD hp,
      hlate hD hp⟩
  constructor
  · intro s hs hdevice hdp
    rw [hrows] at hs
    rcases List.mem_append.1 hs with hs | hs
    · exact hall s hs hdevice hdp
    · rw [List.mem_singleton.1 hs] at hdevice hdp ⊢
      have hD : D' = D := hrow.1.symm.trans hdevice
      exact ⟨a, hstored hD (hdistinct hD (by rw [← hdigest, ← hrow.2.2, hdp]))⟩
  · intro hD hp
    refine ⟨row, ?_, hrow.2.1, hrow.2.2, hstored hD hp⟩
    rw [hrows]
    exact List.mem_append_right _ (List.mem_singleton_self row)

theorem answerSameDigest_ok (h : answerSameDigest task D b same t = .ok (a, t')) :
    ∃ prior t1, normalizeStoredResponse task D { b with batchId := same.batchId } same.result
        t.resultRevision t = .ok (prior, t1) ∧ a = prior.replayed b.batchId ∧
      t'.scanBatches = t1.scanBatches ++ [⟨D, b.batchId, b.payloadDigest, b.sequenceCeiling,
        same.outcome, some a⟩] := by
  unfold answerSameDigest at h
  obtain ⟨⟨prior, t1⟩, h1, h⟩ := bind_eq_ok.1 h
  obtain ⟨t2, h2, h⟩ := bind_eq_ok.1 h
  obtain ⟨rfl, rfl⟩ := pair_eq_ok.1 h
  exact ⟨prior, t1, h1, rfl, by rw [Tables.change_ok.1 h2]⟩

theorem Entered.subset {request replay : Option Uuid} {t1 : Tables}
    (h : Entered D' b request t replay t1) : ∀ s ∈ t1.scanBatches, s ∈ t.scanBatches := by
  cases h with
  | fresh => exact fun _ hs => hs
  | again id _ hasked hrunning same hsame hdigest hlate hrows =>
    intro s hs
    rw [hrows] at hs
    exact (Table.mem_delete.1 hs).1

theorem Entered.written {request replay : Option Uuid} {t1 : Tables}
    (h : Entered D' b request t replay t1) (hfree : WrittenFree d task D' b t)
    (hnew : Unsent D' b t1) : Written d task D' b t1 := by
  have hresults := h.recorded.codeResults
  unfold Written
  rw [hresults]
  refine hfree fun s hs hdevice hdigest => ?_
  cases h with
  | fresh => exact absurd hdigest (hnew s hs hdevice)
  | again id _ hasked hrunning same hsame hd hlate hrows =>
    by_contra hlive
    refine hnew s ?_ hdevice hdigest
    rw [hrows]
    exact Table.mem_delete.2 ⟨hs, decide_eq_false fun hk => hlive hk.2.2⟩

/-- **However a batch is answered, it is stored with a readable answer.** -/
theorem Served.leaves {request : Option Uuid} (hall : StoredAll d task D p t.toRows)
    (hknown : t.toRows.Known) (hb : b.Accepted d.payload) (hdistinct : Distinct d D p D' b)
    (hfree : D' = D → b.toPayload = p → WrittenFree d task D' b t)
    (h : Served d task env D' b request t a t') : Leaves d task D p D' b a t' := by
  have hdigest := hb.payloadDigest
  cases h with
  | stored same hsame hd hanswer =>
    obtain ⟨hkept, hall'⟩ := normalized_stored hdistinct hdigest hsame hd hanswer
    refine ⟨hall' hall, fun hD hp => ?_⟩
    have hdp : same.payloadDigest = d.payload p := by rw [hd, hdigest, hp]
    obtain ⟨a', hstored⟩ := hall same hsame.1 (hsame.2.1.trans hD) hdp
    obtain ⟨hin, hsame'⟩ := hkept same a' hsame.1 hdp hstored
    rw [(hsame' rfl).1]
    exact ⟨same, hin, hsame.2.2, hd, hstored⟩
  | other replay t1 hfrom hanswered =>
    have hall1 : StoredAll d task D p t1.toRows := fun s hs => hall s (hfrom.subset s hs)
    have hknown1 := hknown.recorded hfrom.recorded
    cases hanswered with
    | repeated same hsame hanswer =>
      obtain ⟨prior, t2, hprior, rfl, hrows⟩ := answerSameDigest_ok hanswer
      obtain ⟨hkept, hall2⟩ := normalized_stored (b := { b with batchId := same.batchId })
        hdistinct hdigest ⟨hsame.1, hsame.2.1, rfl⟩ hsame.2.2 hprior
      have hsource : D' = D → b.toPayload = p → same.Stored task D p prior := by
        intro hD hp
        have hdp : same.payloadDigest = d.payload p := by rw [hsame.2.2, hdigest, hp]
        obtain ⟨a', hstored⟩ := hall1 same hsame.1 (hsame.2.1.trans hD) hdp
        rw [((hkept same a' hsame.1 hdp hstored).2 rfl).1]
        exact hstored
      refine Leaves.appended (hall2 hall1) hdistinct hdigest ⟨rfl, rfl, rfl⟩ rfl
        (fun hD hp => ?_) (fun hD hp hq => ?_) hrows
      · have hanswers := (hsource hD hp).answers
        rw [batchOf_eq (b := { b with batchId := same.batchId }) rfl hsame.2.2 hp] at hanswers
        exact replayed_readable hanswers hb.batchId
      · intro o ho
        obtain ⟨o', ho', rfl⟩ := List.mem_map.1 ho
        have hquarantined := (hsource hD hp).late hq o' ho'
        rw [if_pos (.inr hquarantined)]
        exact hquarantined
    | quarantined hnew hclosed xs hxs hanswer =>
      obtain ⟨-, rfl, hrows⟩ := quarantine_ok hanswer
      refine Leaves.appended hall1 hdistinct hdigest ⟨rfl, rfl, rfl⟩ rfl (fun hD hp => ?_)
        (fun hD hp _ => ?_) hrows
      · exact quarantined_readable hb t1.status
      · intro o ho
        obtain ⟨e, -, rfl⟩ := List.mem_map.1 ho
        rfl
    | applied hnew hadmitted xs hxs t2 hanswer hlast =>
      have hrows := applyBatch_batches hanswer
      have hlast' : t'.scanBatches = t2.scanBatches := by rw [hlast]
      rw [← hlast'] at hrows
      refine Leaves.appended hall1 hdistinct hdigest ⟨rfl, rfl, rfl⟩ rfl (fun hD hp => ?_)
        (fun hD hp hq => ?_) hrows
      · rw [← hD]
        exact applyBatch_readable hb hknown1 hxs hadmitted.newIds
          (hfrom.written (hfree hD hp) hnew) hanswer
      · unfold batchRow at hq
        dsimp only at hq
        split_ifs at hq

/-- **A stored row stays**, unless it is a late batch that the cabinet has let in again. -/
theorem Served.keeps {request : Option Uuid} {a' : BatchResponse} (hb : b.Accepted d.payload)
    (hdistinct : Distinct d D p D' b) (hs : s ∈ t.scanBatches)
    (hdp : s.payloadDigest = d.payload p) (hstored : s.Stored task D p a')
    (hlate : s.outcome = .quarantined → D' = D → b.batchId = s.batchId → request = none)
    (h : Served d task env D' b request t a t') : s ∈ t'.scanBatches := by
  have hdigest := hb.payloadDigest
  cases h with
  | stored same hsame hd hanswer =>
    exact ((normalized_stored hdistinct hdigest hsame hd hanswer).1 s a' hs hdp hstored).1
  | other replay t1 hfrom hanswered =>
    have hs1 : s ∈ t1.scanBatches := by
      cases hfrom with
      | fresh => exact hs
      | again id t1 hasked hrunning same hsame hd hq hrows =>
        rw [hrows]
        refine Table.mem_delete.2 ⟨hs, decide_eq_false fun hk => ?_⟩
        have hnone := hlate hk.2.2 (hk.1.symm.trans hstored.device) hk.2.1.symm
        rw [hasked] at hnone
        cases hnone
    cases hanswered with
    | repeated same hsame hanswer =>
      obtain ⟨prior, t2, hprior, -, hrows⟩ := answerSameDigest_ok hanswer
      rw [hrows]
      exact List.mem_append_left _ ((normalized_stored (b := { b with batchId := same.batchId })
        hdistinct hdigest ⟨hsame.1, hsame.2.1, rfl⟩ hsame.2.2 hprior).1 s a' hs1 hdp hstored).1
    | quarantined hnew hclosed xs hxs hanswer =>
      rw [(quarantine_ok hanswer).2.2]
      exact List.mem_append_left _ hs1
    | applied hnew hadmitted xs hxs t2 hanswer hlast =>
      rw [hlast]
      show s ∈ t2.scanBatches
      rw [applyBatch_batches hanswer]
      exact List.mem_append_left _ hs1

end

/-! ## Runs -/

section

variable {s : Site} {D : Uuid} {p : Payload} {t t' : Tables}

/-- No other payload the device sends has the digest of this one. -/
def Call.Distinct (D : Uuid) (p : Payload) : Call s → Prop
  | .ingest _ D' b | .replay _ D' b _ => InventorySync.Distinct s.digests D p D' b.1
  | _ => True

/-- Where the call applies the payload, the events that take codes carry their instants as
`toISOString` writes them. -/
def Call.Written (D : Uuid) (p : Payload) (t : Tables) : Call s → Prop
  | .ingest _ D' b | .replay _ D' b _ =>
    D' = D → b.1.toPayload = p → WrittenFree s.digests s.task D' b.1 t
  | _ => True

/-- No payload of the device shares its digest, and the payload is applied with written instants. -/
def Honest (D : Uuid) (p : Payload) (t : Tables) : List (Call s) → Prop
  | [] => True
  | c :: calls => c.Distinct D p ∧ c.Written D p t ∧ Honest D p (c.after t) calls

/-- The cabinet has the batch let in again as a late one. -/
def Call.Replays (D : Uuid) (batchId : Utf16.Units) : Call s → Prop
  | .replay _ D' b _ => D' = D ∧ b.1.batchId = batchId
  | _ => False

theorem Call.serve_batches {c : Call s} (hserve : c.serve t = .ok t') :
    (∃ env D' b request a, (c = .ingest env D' b ∧ request = none ∨
        ∃ late, c = .replay env D' b late ∧ request = some late) ∧
      Served s.digests s.task env D' b.1 request t a t') ∨ t'.scanBatches = t.scanBatches := by
  cases Call.serve_does hserve with
  | ingest h1 => exact .inl ⟨_, _, _, none, _, .inl ⟨rfl, rfl⟩, (ingestBatch_ok h1).2⟩
  | @replay env D' late b a h1 =>
    exact .inl ⟨env, D', b, some late, a, .inr ⟨late, rfl, rfl⟩, (ingestBatch_ok h1).2⟩
  | @correct _ _ input _ h1 =>
    obtain rfl | ⟨-, -, -, r, hr, hrows⟩ := correct_ok h1
    · exact .inr rfl
    generalize input.target = target at hr
    refine .inr ?_
    rw [hrows]
    cases hr <;> rfl
  | correctBatch h1 =>
    obtain rfl | ⟨-, batchId, digest, events, targets, -, hrows⟩ := correctBatch_ok h1
    · exact .inr rfl
    · exact .inr (by rw [hrows]; rfl)
  | other status revision participants ssccBlocks lateEvents hle hrows =>
    exact .inr (by rw [hrows])

theorem StoredAll.call {c : Call s} (h : StoredAll s.digests s.task D p t.toRows)
    (hknown : t.toRows.Known) (hdistinct : c.Distinct D p) (hwritten : c.Written D p t)
    (hserve : c.serve t = .ok t') : StoredAll s.digests s.task D p t'.toRows := by
  obtain ⟨env, D', b, request, a, hc, hserved⟩ | hrows := Call.serve_batches hserve
  · obtain ⟨rfl, -⟩ | ⟨late, rfl, -⟩ := hc
    · exact (hserved.leaves h hknown b.2 hdistinct hwritten).all
    · exact (hserved.leaves h hknown b.2 hdistinct hwritten).all
  · unfold StoredAll
    rw [hrows]
    exact h

theorem StoredAll.run {calls : List (Call s)} (h : StoredAll s.digests s.task D p t.toRows)
    (hknown : t.toRows.Known) (hhonest : Honest D p t calls) :
    StoredAll s.digests s.task D p (calls.foldl Call.after t).toRows := by
  induction calls generalizing t with
  | nil => exact h
  | cons c calls ih =>
    obtain ⟨hdistinct, hwritten, hhonest⟩ := hhonest
    have hkept : StoredAll s.digests s.task D p (c.after t).toRows ∧ (c.after t).toRows.Known := by
      unfold Call.after
      cases hserve : c.serve t with
      | ok t' => exact ⟨h.call hknown hdistinct hwritten hserve, Call.serve_known hknown hserve⟩
      | error e => exact ⟨h, hknown⟩
    exact ih hkept.1 hkept.2 hhonest

theorem honest_append {calls : List (Call s)} {c : Call s} (h : Honest D p t (calls ++ [c])) :
    Honest D p t calls ∧ c.Distinct D p ∧ c.Written D p (calls.foldl Call.after t) := by
  induction calls generalizing t with
  | nil => exact ⟨trivial, h.1, h.2.1⟩
  | cons c' calls ih =>
    obtain ⟨h1, h2, h3⟩ := h
    obtain ⟨h4, h5⟩ := ih h3
    exact ⟨⟨h1, h2, h4⟩, h5⟩

theorem stored_kept {row : ScanBatch} {a : BatchResponse} (hrow : row ∈ t.scanBatches)
    (hdp : row.payloadDigest = s.digests.payload p) (hstored : row.Stored s.task D p a)
    (later : List (Call s)) (hdistinct : ∀ c ∈ later, c.Distinct D p)
    (hlate : row.outcome = .quarantined → ∀ c ∈ later, ¬c.Replays D row.batchId) :
    row ∈ (later.foldl Call.after t).scanBatches := by
  induction later generalizing t with
  | nil => exact hrow
  | cons c later ih =>
    refine ih ?_ (fun c hc => hdistinct c (List.mem_cons_of_mem _ hc))
      fun hq c hc => hlate hq c (List.mem_cons_of_mem _ hc)
    have hd := hdistinct c List.mem_cons_self
    unfold Call.after
    cases hserve : c.serve t with
    | error e => exact hrow
    | ok t' =>
      obtain ⟨env, D', b, request, a', hc, hserved⟩ | hrows := Call.serve_batches hserve
      · obtain ⟨rfl, hrequest⟩ | ⟨id, rfl, -⟩ := hc
        · exact hserved.keeps b.2 hd hrow hdp hstored fun _ _ _ => hrequest
        · exact hserved.keeps b.2 hd hrow hdp hstored fun hq hD hid =>
            absurd ⟨hD, hid⟩ (hlate hq _ List.mem_cons_self)
      · show row ∈ t'.scanBatches
        rw [hrows]
        exact hrow

/-- A batch that is stored with a readable answer is answered with it, and nothing changes. -/
theorem stored_again {row : ScanBatch} {a : BatchResponse} {b : EventBatch} (env : Env)
    (hrow : row ∈ t.scanBatches) (hstored : row.Stored s.task D b.toPayload a)
    (hid : row.batchId = b.batchId) (hdigest : row.payloadDigest = b.payloadDigest)
    (hjoined : ∃ q ∈ t.participants, q.deviceId = D) :
    ingest s.digests s.task env D b t = .ok (a, t) := by
  obtain ⟨q, hq, hdevice⟩ := hjoined
  have hp : ∃ q', t.participants.find? (·.deviceId = D) = some q' := by
    cases hfind : t.participants.find? (·.deviceId = D) with
    | none => exact absurd (decide_eq_true hdevice) (List.find?_eq_none.1 hfind q hq)
    | some q' => exact ⟨q', rfl⟩
  obtain ⟨q', hq'⟩ := hp
  have hsame : t.scanBatches.find? (fun s => s.deviceId = D ∧ s.batchId = b.batchId) =
      some row := by
    cases hfind : t.scanBatches.find? fun s => s.deviceId = D ∧ s.batchId = b.batchId with
    | none =>
      exact absurd (decide_eq_true ⟨hstored.device, hid⟩) (List.find?_eq_none.1 hfind row hrow)
    | some row' =>
      have hfound := List.find?_some hfind
      have hkey : row'.deviceId = D ∧ row'.batchId = b.batchId := of_decide_eq_true hfound
      rw [t.kept.scans.batches.eq (List.mem_of_find?_eq_some hfind) hrow (Prod.ext
        (hkey.1.trans hstored.device.symm) (hkey.2.trans hid.symm))]
  have hread : a.Answers s.task.inventoryId (some D) b := by
    rw [← batchOf_eq hid hdigest rfl]
    exact hstored.answers
  unfold ingest ingestBatch
  simp only [hq', hsame, Option.bind_none]
  rw [ensure, if_pos hdigest, ok_bind]
  unfold normalizeStoredResponse
  rw [hstored.result, Option.bind_some, parseInventoryEventBatchResponse, if_pos hread]

/-- **The station reads every answer, and every repeat gets the same**, until the cabinet has a batch
that was put aside let in again. -/
theorem answers_readable (start : Start) (calls : List (Call s)) (env : Env) (D : Uuid)
    (b : s.Batch) (hhonest : Honest D b.1.toPayload start.tables (calls ++ [.ingest env D b]))
    {a : BatchResponse} {t' : Tables}
    (hanswer : ingest s.digests s.task env D b.1 (run start calls) = .ok (a, t')) :
    parseInventoryEventBatchResponse a b.1 s.task.inventoryId D = some a ∧
      ∀ later : List (Call s), (∀ c ∈ later, c.Distinct D b.1.toPayload) →
        ((∃ o ∈ a.outcomes, o.status ≠ .quarantined) ∨
          ∀ c ∈ later, ¬c.Replays D b.1.batchId) →
        ∀ env', (∃ q ∈ (later.foldl Call.after t').participants, q.deviceId = D) →
          ingest s.digests s.task env' D b.1 (later.foldl Call.after t') =
            .ok (a, later.foldl Call.after t') := by
  obtain ⟨hcalls, hdistinct, hwritten⟩ := honest_append hhonest
  have hall : StoredAll s.digests s.task D b.1.toPayload (run start calls).toRows :=
    StoredAll.run (fun _ hs => absurd hs List.not_mem_nil) (fun _ hy => absurd hy List.not_mem_nil)
      hcalls
  have hleaves := (ingestBatch_ok hanswer).2.leaves hall (run_known start calls) b.2 hdistinct
    hwritten
  obtain ⟨row, hrow, hid, hdigest, hstored⟩ := hleaves.own rfl rfl
  have hdp : row.payloadDigest = s.digests.payload b.1.toPayload :=
    hdigest.trans b.2.payloadDigest
  have hread : a.Answers s.task.inventoryId (some D) b.1 := by
    rw [← batchOf_eq hid hdigest rfl]
    exact hstored.answers
  refine ⟨if_pos hread, fun later hlater hlate env' hjoined => ?_⟩
  refine stored_again env' (stored_kept hrow hdp hstored later hlater fun hq => ?_) hstored hid
    hdigest hjoined
  rw [hid]
  refine hlate.resolve_left ?_
  rintro ⟨o, ho, hne⟩
  exact hne (hstored.late hq o ho)

end

/-! ## Sample answers -/

namespace Sample

/-- `2026-07-01T12:01:00Z`. -/
def unwritten : IsoDatetime where
  year := 2026
  month := 7
  day := 1
  hour := 12
  minute := 1
  seconds := some (0, [])
  offset := none
  valid := {
    year := by decide
    month := by decide
    day := by decide
    time := by decide
    seconds := by
      rintro x ⟨⟩
      decide
    offset := by rintro x ⟨⟩ }

/-- A box of one code whose event names the instant without its milliseconds. -/
def unreadable : site.Batch :=
  ⟨batch "unreadable" [opening 1 1, adding 2 unwritten 1 1 1], by decide +kernel⟩

/-- The batch comes while the inventory is closed, which is then reopened. -/
def late : List (Call site) := [.close false false, .ingest env 7 packed, .reopen]

/-- The outcomes of the answer to the batch. -/
def statuses (calls : List (Call site)) : Option (List OutcomeStatus) :=
  (ingest digests task env 7 packed.1 (run start calls)).toOption.map
    fun r => r.1.outcomes.map (·.status)

end Sample

open Sample

/-- An answer that is readable, and the same to a repeat. -/
theorem answers_readable_packed : ∃ a t',
    ingest digests task env 7 packed.1 start.tables =
        .ok (a, t') ∧
      parseInventoryEventBatchResponse a packed.1 1 (some 7) = some a ∧
      ingest digests task env 7 packed.1 t' = .ok (a, t') := by
  have hok : (ingest digests task env 7 packed.1
      start.tables).toOption.any (fun r => r.2.participants.any (·.deviceId = 7) &&
        r.1.outcomes.any (·.status ≠ .quarantined)) = true := by
    decide +kernel
  cases hanswer : ingest digests task env 7 packed.1
      start.tables with
  | error e =>
    rw [hanswer] at hok
    cases hok
  | ok r =>
    obtain ⟨a, t'⟩ := r
    rw [hanswer] at hok
    obtain ⟨hjoined, hlive⟩ := Bool.and_eq_true_iff.1 hok
    obtain ⟨q, hq, hdevice⟩ := List.any_eq_true.1 hjoined
    obtain ⟨o, ho, hstatus⟩ := List.any_eq_true.1 hlive
    have hwritten : ∀ e ∈ packed.1.events, e.scannedAt.Canonical := by decide +kernel
    obtain ⟨hread, hagain⟩ := answers_readable (s := site) start [] env 7
      packed ⟨fun _ _ => rfl, fun _ _ _ e he _ _ => hwritten e he, trivial⟩ hanswer
    exact ⟨a, t', rfl, hread, hagain [] (fun _ hc => absurd hc List.not_mem_nil)
      (.inl ⟨o, ho, of_decide_eq_true hstatus⟩) env ⟨q, hq, of_decide_eq_true hdevice⟩⟩

/-- An answer names the instant of a code's winner as `toISOString` does, so that the station does
not accept it for an event that names it otherwise; and a batch that was put aside is answered
otherwise after the cabinet has had it let in again. -/
theorem answers_not_readable :
    (ingest digests task env 7 unreadable.1
      start.tables).toOption.map (fun r =>
        (parseInventoryEventBatchResponse r.1 unreadable.1 1 (some 7)).isSome) =
          some false ∧
      statuses late = some [.quarantined, .quarantined, .quarantined] ∧
      statuses (late ++ [.replay env 7 packed 0]) =
        some [.applied, .applied, .applied] := by
  refine ⟨?_, ?_, ?_⟩
  · decide +kernel
  · decide +kernel
  · decide +kernel

end Markiro.InventorySync
