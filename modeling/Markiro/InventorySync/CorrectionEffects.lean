import Markiro.InventorySync.Feed

/-!
# What a correction writes

A single correction changes the row of one code, takes one item out of its box, invalidates a box or
records a reprint (`Mutated`); a batch changes the rows of the codes its events have won
(`correctBatch_ok`). Both write their changes under the next revision.
-/

namespace Markiro.InventorySync

open Results

/-! ## One correction -/

/-- What a correction `c` of a target makes of the rows, beside its own row and the revision. -/
inductive Mutated (changeId : Hash → Uuid) (revision : ℕ) (changedAt : Stamp) (r : Rows)
    (c : Correction) : CorrectionTarget → Rows → Prop where
  | code (target : CorrectionTarget) (result : CodeResult) (f : CodeResult → CodeResult)
      (hresult : result ∈ r.codeResults)
      (hkeeps : ∀ x, (f x).id = x.id ∧ (f x).codeHash = x.codeHash ∧
        (f x).firstAcceptedEventId = x.firstAcceptedEventId ∧
        (f x).winningDeviceId = x.winningDeviceId)
      (hdate : (∀ x, (f x).observedProductionDate = x.observedProductionDate) ∨
        ∀ i ∈ r.items, i.active = true → i.resultId ≠ result.id)
      (haction : target.action.stream = none) :
      Mutated changeId revision changedAt r c target
        { r with
          codeResults := Table.update (·.id = result.id) f r.codeResults
          progressChanges :=
            r.progressChanges ++ [(f result).changeRow changeId revision changedAt] }
  | removed (resultId : Uuid) (item : RepackItem) (box : RepackBox) (removedAt : Stamp)
      (hitem : item ∈ r.items) (hactive : item.active = true) (hresult : item.resultId = resultId)
      (hbox : box ∈ r.boxes) (hid : box.id = item.boxId) (hopen : box.state = .opened)
      (hnamed : c.targetRepackBoxId = some box.id ∧ c.targetCodeResultId = some resultId) :
      Mutated changeId revision changedAt r c (.removeItem resultId)
        (removeItems (·.id = item.id) removedAt r)
  | invalidated (box : RepackBox) (hbox : box ∈ r.boxes) (hstate : box.state ≠ .invalidated)
      (hnamed : c.targetRepackBoxId = some box.id ∧ c.targetCodeResultId = none) :
      Mutated changeId revision changedAt r c (.invalidateBox box.id)
        (changeBox box.id (·.invalidatedByAdmin changedAt) r)
  | reprinted (box : RepackBox) (hbox : box ∈ r.boxes)
      (hnamed : c.targetRepackBoxId = some box.id ∧ c.targetCodeResultId = none) :
      Mutated changeId revision changedAt r c (.reprint box.id) r

section

variable {changeId : Hash → Uuid} {revision : ℕ} {changedAt : Stamp} {t t' : Tables} {p : Prepared}

theorem correctResult_ok {result : CodeResult} {f : CodeResult → CodeResult}
    (h : correctResult changeId revision changedAt result f t = .ok t') : t'.toRows =
      { t.toRows with
        codeResults := Table.update (·.id = result.id) f t.codeResults
        progressChanges :=
          t.progressChanges ++ [(f result).changeRow changeId revision changedAt] } := by
  unfold correctResult at h
  obtain ⟨t1, h1, h⟩ := bind_eq_ok.1 h
  rw [Tables.change_ok.1 h, Tables.change_ok.1 h1]

structure Prepared.Named (p : Prepared) (c : Correction) : Prop where
  box : c.targetRepackBoxId = p.repackBoxId
  result : c.targetCodeResultId = p.codeResultId

theorem prepareMutation_ok {target : CorrectionTarget} {c : Correction} (hc : p.Named c)
    (h : prepareMutation changeId revision changedAt t target = .ok p) {cs : List Correction}
    {t1 t2 : Tables} (h1 : t1.toRows = { t.toRows with corrections := cs })
    (h2 : p.apply t1 = .ok t2) : ∃ r, Mutated changeId revision changedAt t.toRows c target r ∧
      t2.toRows = { r with corrections := cs } := by
  have hresults : t1.codeResults = t.codeResults := by rw [h1]
  have hchanges : t1.progressChanges = t.progressChanges := by rw [h1]
  have scan : ∀ eventId void, (target.action.stream = none) →
      prepareScan changeId revision changedAt t eventId void = .ok p →
      ∃ r, Mutated changeId revision changedAt t.toRows c target r ∧
        t2.toRows = { r with corrections := cs } := by
    intro eventId void haction h
    unfold prepareScan at h
    cases hfind : t.codeResults.find? (·.firstAcceptedEventId = eventId) with
    | none =>
      simp only [hfind] at h
      cases h
    | some result =>
      simp only [hfind] at h
      obtain ⟨_, -, h⟩ := bind_eq_ok.1 h
      obtain rfl := pure_eq_ok.1 h
      refine ⟨_, .code target result (·.reclassified (if void then .voided
        else result.originClassification) changedAt) (List.mem_of_find?_eq_some hfind)
        (fun _ => ⟨rfl, rfl, rfl, rfl⟩) (.inl fun _ => rfl) haction, ?_⟩
      rw [correctResult_ok h2, hresults, hchanges, h1]
  cases target with
  | voidScan eventId => exact scan eventId true rfl h
  | restoreScan eventId => exact scan eventId false rfl h
  | changeDate resultId date =>
    unfold prepareMutation prepareDate at h
    cases hfind : t.codeResults.find? (·.id = resultId) with
    | none =>
      simp only [hfind] at h
      cases h
    | some result =>
      simp only [hfind] at h
      obtain ⟨_, hfree, h⟩ := bind_eq_ok.1 h
      obtain rfl := pure_eq_ok.1 h
      refine ⟨_, .code _ result (·.redated date changedAt) (List.mem_of_find?_eq_some hfind)
        (fun _ => ⟨rfl, rfl, rfl, rfl⟩) (.inr fun i hi hact hres => ?_) rfl, ?_⟩
      · refine ensure_ok.1 hfree (List.any_eq_true.2 ⟨i, hi, ?_⟩)
        rw [hact, Bool.true_and, beq_iff_eq]
        exact hres
      · rw [correctResult_ok h2, hresults, hchanges, h1]
  | removeItem resultId =>
    unfold prepareMutation prepareRemoval at h
    cases hitem : t.items.find? fun i => i.active && i.resultId == resultId with
    | none =>
      simp only [hitem] at h
      cases h
    | some item =>
      simp only [hitem] at h
      cases hbox : t.boxes.find? (·.id = item.boxId) with
      | none =>
        simp only [hbox] at h
        cases h
      | some box =>
        simp only [hbox] at h
        obtain ⟨_, hopen, h⟩ := bind_eq_ok.1 h
        obtain rfl := pure_eq_ok.1 h
        have hsel := List.find?_some hitem
        rw [Bool.and_eq_true, beq_iff_eq] at hsel
        have hid : box.id = item.boxId := by simpa using List.find?_some hbox
        refine ⟨_, .removed resultId item box
          (if item.addedAt ≤ changedAt then changedAt else item.addedAt)
          (List.mem_of_find?_eq_some hitem) hsel.1 hsel.2 (List.mem_of_find?_eq_some hbox) hid
          (ensure_ok.1 hopen) ⟨hc.box.trans (congrArg some hid.symm), hc.result⟩, ?_⟩
        rw [Tables.change_ok.1 h2, h1]
        rfl
  | invalidateBox boxId =>
    unfold prepareMutation prepareInvalidation at h
    cases hbox : t.boxes.find? (·.id = boxId) with
    | none =>
      simp only [hbox] at h
      cases h
    | some box =>
      simp only [hbox] at h
      obtain ⟨_, hstate, h⟩ := bind_eq_ok.1 h
      obtain rfl := pure_eq_ok.1 h
      obtain rfl : box.id = boxId := by simpa using List.find?_some hbox
      refine ⟨_, .invalidated box (List.mem_of_find?_eq_some hbox) (ensure_ok.1 hstate)
        ⟨hc.box, hc.result⟩, ?_⟩
      rw [Tables.change_ok.1 h2, h1]
      rfl
  | reprint boxId =>
    unfold prepareMutation prepareReprint at h
    cases hbox : t.boxes.find? (·.id = boxId) with
    | none =>
      simp only [hbox] at h
      cases h
    | some box =>
      simp only [hbox] at h
      obtain ⟨_, -, h⟩ := bind_eq_ok.1 h
      obtain rfl := pure_eq_ok.1 h
      obtain rfl : box.id = boxId := by simpa using List.find?_some hbox
      obtain rfl := Except.ok.inj h2
      exact ⟨_, .reprinted box (List.mem_of_find?_eq_some hbox) ⟨hc.box, hc.result⟩, h1⟩

end

/-- A correction that was made before changes nothing; another is written under the next
revision. -/
theorem correct_ok {Request : Type} {ids : CorrectionIds CorrectionRequest Request}
    {changeId : Hash → Uuid} {changedAt : Stamp} {input : CorrectionRequest} {c : Correction}
    {t t' : Tables} (h : correct ids changeId changedAt input t = .ok (c, t')) :
    t' = t ∨ (t.corrections.find? (·.id = ids.correction input.idempotencyKey) = none ∧
        t.status = .running ∧ t.resultRevision = input.expectedResultRevision) ∧
      c.action = input.target.action ∧ c.resultRevision = t.resultRevision + 1 ∧
      ∃ r, Mutated changeId (t.resultRevision + 1) changedAt t.toRows c input.target r ∧
        t'.toRows = { r with
          corrections := t.corrections ++ [c], resultRevision := t.resultRevision + 1 } := by
  unfold correct at h
  simp only at h
  cases hfind : t.corrections.find? (·.id = ids.correction input.idempotencyKey) with
  | some existing =>
    simp only [hfind] at h
    obtain ⟨_, -, h⟩ := bind_eq_ok.1 h
    obtain ⟨-, rfl⟩ := pair_eq_ok.1 h
    exact .inl rfl
  | none =>
    simp only [hfind] at h
    obtain ⟨_, hcheck, h⟩ := bind_eq_ok.1 h
    obtain ⟨p, hp, h⟩ := bind_eq_ok.1 h
    obtain ⟨t1, h1, h⟩ := bind_eq_ok.1 h
    obtain ⟨t2, h2, h⟩ := bind_eq_ok.1 h
    obtain ⟨t3, h3, h⟩ := bind_eq_ok.1 h
    obtain ⟨rfl, rfl⟩ := pair_eq_ok.1 h
    unfold checkRevision at hcheck
    obtain ⟨_, hrunning, hcheck⟩ := bind_eq_ok.1 hcheck
    have hnamed : p.Named (p.row (ids.correction input.idempotencyKey) none input.target.action
      (ids.requestDigest input) (t.resultRevision + 1) changedAt) := ⟨rfl, rfl⟩
    obtain ⟨r, hr, hrows⟩ := prepareMutation_ok hnamed hp (Tables.change_ok.1 h1) h2
    refine .inr ⟨⟨rfl, ensure_ok.1 hrunning, ensure_ok.1 hcheck⟩, rfl, rfl, r, hr, ?_⟩
    rw [Tables.change_ok.1 h3, hrows]

/-! ## A batch -/

theorem BatchAction.after_id (a : BatchAction) (changedAt : Stamp) (x : CodeResult) :
    (a.after changedAt x).id = x.id := by
  cases a <;> rfl

theorem BatchAction.after_codeHash (a : BatchAction) (changedAt : Stamp) (x : CodeResult) :
    (a.after changedAt x).codeHash = x.codeHash := by
  cases a <;> rfl

theorem BatchAction.after_after (a : BatchAction) (changedAt : Stamp) (x : CodeResult) :
    a.after changedAt (a.after changedAt x) = a.after changedAt x := by
  cases a <;> rfl

section

variable {Request : Type} {ids : CorrectionIds Request CorrectionBatchRequest}
  {changeId : Hash → Uuid} {changedAt : Stamp} {batchId : Uuid} {digest : Hash} {revision : ℕ}
  {a : BatchAction} {t t' : Tables}

def written (ids : CorrectionIds Request CorrectionBatchRequest) (changeId : Hash → Uuid)
    (changedAt : Stamp) (batchId : Uuid) (digest : Hash) (revision : ℕ) (a : BatchAction)
    (targets : List TargetResult) (r : Rows) : Rows :=
  { r with
    corrections := r.corrections ++ targets.map fun g =>
      g.correction (ids.child batchId g.before.id) batchId a.action digest revision changedAt
    codeResults := Table.update (fun c => decide (c.id ∈ targets.map (·.before.id)))
      (a.after changedAt) r.codeResults
    progressChanges := r.progressChanges ++ targets.map fun g =>
      (a.after changedAt g.before).changeRow changeId revision changedAt }

theorem writeChunk_ok {chunk : List TargetResult}
    (h : writeChunk ids changeId changedAt batchId digest revision a t chunk = .ok t') :
    t'.toRows = written ids changeId changedAt batchId digest revision a chunk t.toRows := by
  unfold writeChunk at h
  obtain ⟨t1, h1, h⟩ := bind_eq_ok.1 h
  obtain ⟨t2, h2, h⟩ := bind_eq_ok.1 h
  rw [Tables.change_ok.1 h, Tables.change_ok.1 h2, Tables.change_ok.1 h1]
  rfl

theorem written_written (xs ys : List TargetResult) (r : Rows) :
    written ids changeId changedAt batchId digest revision a ys
        (written ids changeId changedAt batchId digest revision a xs r) =
      written ids changeId changedAt batchId digest revision a (xs ++ ys) r := by
  have hupdate : Table.update (fun c => decide (c.id ∈ ys.map (·.before.id))) (a.after changedAt)
        (Table.update (fun c => decide (c.id ∈ xs.map (·.before.id))) (a.after changedAt)
          r.codeResults) =
      Table.update (fun c => decide (c.id ∈ (xs ++ ys).map (·.before.id))) (a.after changedAt)
        r.codeResults := by
    rw [Table.update_update (a.after_after changedAt) fun x => by rw [a.after_id]]
    refine Table.update_congr fun x _ => ?_
    rw [List.map_append, Bool.eq_iff_iff, Bool.or_eq_true, decide_eq_true_eq, decide_eq_true_eq,
      decide_eq_true_eq, List.mem_append]
  simp only [written, hupdate, List.append_assoc, List.map_append]

theorem written_nil (r : Rows) :
    written ids changeId changedAt batchId digest revision a [] r = r := by
  simp [written, Table.update]

theorem writeChunks_ok {chunks : List (List TargetResult)}
    (h : chunks.foldlM (writeChunk ids changeId changedAt batchId digest revision a) t = .ok t') :
    t'.toRows =
      written ids changeId changedAt batchId digest revision a chunks.flatten t.toRows := by
  induction chunks generalizing t with
  | nil =>
    rw [List.foldlM_nil, pure_eq_ok] at h
    rw [← h, List.flatten_nil, written_nil]
  | cons chunk chunks ih =>
    rw [List.foldlM_cons, bind_eq_ok] at h
    obtain ⟨t1, h1, h⟩ := h
    rw [ih h, writeChunk_ok h1, written_written, List.flatten_cons]

theorem resolveSelection_ok {sel : Selection} {events : List ScanEvent}
    (h : resolveSelection t sel = .ok events) :
    (events.map (·.eventId)).Nodup ∧ ∀ e ∈ events, e ∈ t.scanEvents := by
  have key : ∀ which, evidenceEvents t which = .ok events →
      (events.map (·.eventId)).Nodup ∧ ∀ e ∈ events, e ∈ t.scanEvents := by
    intro which h
    unfold evidenceEvents at h
    simp only at h
    split_ifs at h
    obtain rfl := Except.ok.inj h
    have hp := List.perm_insertionSort (fun a b : ScanEvent => a.eventId ≤ b.eventId)
      (t.scanEvents.filter which)
    refine ⟨((hp.map _).nodup_iff).2 ?_, fun e he => List.mem_of_mem_filter (hp.mem_iff.1 he)⟩
    exact t.kept.scans.events.sublist (List.filter_sublist.map _)
  cases sel with
  | explicit eventIds =>
    obtain ⟨events', h1, h⟩ := bind_eq_ok.1 h
    obtain ⟨_, -, h⟩ := bind_eq_ok.1 h
    obtain rfl := pure_eq_ok.1 h
    exact key _ h1
  | allMatching filter excluded => exact key _ h

theorem mem_eligible {results : List CodeResult} {e : ScanEvent} {x : CodeResult}
    (h : x ∈ eligible a results e) : x ∈ results ∧ x.firstAcceptedEventId = e.eventId := by
  unfold eligible at h
  obtain ⟨hx, hsel⟩ := List.mem_filter.1 h
  rw [Bool.and_eq_true, beq_iff_eq] at hsel
  exact ⟨hx, hsel.1⟩

/-- The targets of a batch are rows of the table, each once. -/
theorem prepareTargets_ok {events : List ScanEvent} {results : List CodeResult}
    {targets : List TargetResult} (hevents : (events.map (·.eventId)).Nodup)
    (hresults : Table.Unique (·.id) results)
    (h : prepareTargets t a events results = .ok targets) :
    (targets.map (·.before.id)).Nodup ∧ ∀ g ∈ targets, g.before ∈ results := by
  unfold prepareTargets at h
  obtain ⟨_, -, h⟩ := bind_eq_ok.1 h
  obtain ⟨groups, hgroups, h⟩ := bind_eq_ok.1 h
  obtain rfl := pure_eq_ok.1 h
  have hmap : groups = events.map fun e =>
      (eligible a results e).map fun r => TargetResult.mk e.eventId r := by
    refine mapM_eq_map hgroups fun e _ b hb => ?_
    split_ifs at hb
    exact Except.ok.inj hb
  constructor
  · rw [hmap, ← List.flatMap_def, List.map_flatMap, List.nodup_flatMap]
    constructor
    · intro e _
      rw [List.map_map]
      exact hresults.sublist (List.filter_sublist.map _)
    · have hpair : events.Pairwise fun e e' => e.eventId ≠ e'.eventId := List.pairwise_map.1 hevents
      refine hpair.imp fun {e e'} hne => ?_
      intro id hid hid'
      simp only [List.map_map] at hid hid'
      obtain ⟨x, hx, rfl⟩ := List.mem_map.1 hid
      obtain ⟨x', hx', hxx⟩ := List.mem_map.1 hid'
      obtain rfl := hresults.eq (mem_eligible hx').1 (mem_eligible hx).1 hxx
      exact hne ((mem_eligible hx).2.symm.trans (mem_eligible hx').2)
  · intro g hg
    rw [hmap] at hg
    obtain ⟨group, hgroup, hg⟩ := List.mem_flatten.1 hg
    obtain ⟨e, -, rfl⟩ := List.mem_map.1 hgroup
    obtain ⟨x, hx, rfl⟩ := List.mem_map.1 hg
    exact (mem_eligible hx).1

theorem batchTargets_ok {input : CorrectionBatchRequest} {events : List ScanEvent}
    {targets : List TargetResult} (h : batchTargets input t = .ok (events, targets)) :
    (targets.map (·.before.id)).Nodup ∧ ∀ g ∈ targets, g.before ∈ t.codeResults := by
  unfold batchTargets at h
  obtain ⟨events', h1, h⟩ := bind_eq_ok.1 h
  obtain ⟨_, -, h⟩ := bind_eq_ok.1 h
  obtain ⟨targets', h2, h⟩ := bind_eq_ok.1 h
  obtain ⟨_, -, h⟩ := bind_eq_ok.1 h
  obtain ⟨rfl, rfl⟩ := pair_eq_ok.1 h
  have hp := List.perm_insertionSort (fun a b : CodeResult => a.id ≤ b.id)
    (t.codeResults.filter fun r => r.firstAcceptedEventId ∈ events'.map (·.eventId))
  have hunique : Table.Unique (·.id) (lockResults t events') :=
    ((hp.map _).nodup_iff).2 (t.kept.scans.resultIds.sublist (List.filter_sublist.map _))
  obtain ⟨hnodup, hmem⟩ := prepareTargets_ok (resolveSelection_ok h1).1 hunique h2
  exact ⟨hnodup, fun g hg => List.mem_of_mem_filter (hp.mem_iff.1 (hmem g hg))⟩

theorem correctBatch_ok {input : CorrectionBatchRequest} {batch : CorrectionBatch}
    (h : correctBatch ids changeId changedAt input t = .ok (batch, t')) :
    t' = t ∨ t.status = .running ∧ ∃ batchId digest events targets,
      batchTargets input t = .ok (events, targets) ∧ t'.toRows =
        { written ids changeId changedAt batchId digest (t.resultRevision + 1) input.action targets
            t.toRows with
          correctionBatches := t.correctionBatches ++ [batch]
          resultRevision := t.resultRevision + 1 } := by
  unfold correctBatch at h
  simp only at h
  split at h
  · obtain ⟨_, -, h⟩ := bind_eq_ok.1 h
    obtain ⟨-, rfl⟩ := pair_eq_ok.1 h
    exact .inl rfl
  · obtain ⟨_, hcheck, h⟩ := bind_eq_ok.1 h
    obtain ⟨⟨events, targets⟩, htargets, h⟩ := bind_eq_ok.1 h
    obtain ⟨t1, h1, h⟩ := bind_eq_ok.1 h
    obtain ⟨t2, h2, h⟩ := bind_eq_ok.1 h
    obtain ⟨t3, h3, h⟩ := bind_eq_ok.1 h
    obtain ⟨rfl, rfl⟩ := pair_eq_ok.1 h
    unfold checkRevision at hcheck
    obtain ⟨_, hrunning, -⟩ := bind_eq_ok.1 hcheck
    refine .inr ⟨ensure_ok.1 hrunning, ids.batch input.idempotencyKey, ids.batchDigest input, events,
      targets, htargets, ?_⟩
    rw [Tables.change_ok.1 h3, writeChunks_ok h2, Chunks.toChunks_flatten, Tables.change_ok.1 h1]
    rfl

end

/-! ## Any call -/

/-- What a call does: it lets a batch in, corrects, or changes none of the events and codes. -/
inductive Call.Does {s : Site} (t t' : Tables) : Call s → Prop
  | ingest {env : Env} {D : Uuid} {b : s.Batch} {a : BatchResponse}
      (h : ingestBatch s.digests s.task env D b.1 none t = .ok (a, t')) : Does t t' (.ingest env D b)
  | replay {env : Env} {D late : Uuid} {b : s.Batch} {a : BatchResponse}
      (h : ingestBatch s.digests s.task env D b.1 (some late) t = .ok (a, t')) :
      Does t t' (.replay env D b late)
  | correct {changeId : Hash → Uuid} {changedAt : Stamp} {input : CorrectionRequest} {k : Correction}
      (h : InventorySync.correct s.ids changeId changedAt input t = .ok (k, t')) :
      Does t t' (.correct changeId changedAt input)
  | correctBatch {changeId : Hash → Uuid} {changedAt : Stamp} {input : CorrectionBatchRequest}
      {batch : CorrectionBatch}
      (h : InventorySync.correctBatch s.ids changeId changedAt input t = .ok (batch, t')) :
      Does t t' (.correctBatch changeId changedAt input)
  | other {c : Call s} (status : Status) (revision : ℕ) (participants : List Participant)
      (ssccBlocks : List SsccBlock) (lateEvents : List LateEvent)
      (hle : t.resultRevision ≤ revision) (hrows : t'.toRows =
        { t.toRows with
          status := status
          resultRevision := revision
          participants := participants
          ssccBlocks := ssccBlocks
          lateEvents := lateEvents }) : Does t t' c

theorem Call.serve_does {s : Site} {c : Call s} {t t' : Tables} (h : c.serve t = .ok t') :
    c.Does t t' := by
  cases c with
  | ingest env D b =>
    obtain ⟨⟨a, t1⟩, h1, rfl⟩ := map_eq_ok.1 h
    exact .ingest h1
  | replay env D b late =>
    obtain ⟨⟨a, t1⟩, h1, rfl⟩ := map_eq_ok.1 h
    exact .replay h1
  | correct changeId changedAt input =>
    obtain ⟨⟨k, t1⟩, h1, rfl⟩ := map_eq_ok.1 h
    exact .correct h1
  | correctBatch changeId changedAt input =>
    obtain ⟨⟨batch, t1⟩, h1, rfl⟩ := map_eq_ok.1 h
    exact .correctBatch h1
  | close blocked emergency =>
    obtain ⟨_, -, h⟩ := bind_eq_ok.1 h
    obtain ⟨_, -, h⟩ := bind_eq_ok.1 h
    obtain ⟨_, -, h⟩ := bind_eq_ok.1 h
    obtain ⟨t1, h1, h⟩ := bind_eq_ok.1 h
    exact .other _ _ _ _ _ le_rfl (by rw [Tables.change_ok.1 h, Tables.change_ok.1 h1])
  | reopen =>
    obtain ⟨_, -, h⟩ := bind_eq_ok.1 h
    obtain ⟨_, -, h⟩ := bind_eq_ok.1 h
    obtain ⟨t1, h1, h⟩ := bind_eq_ok.1 h
    exact .other _ _ _ _ _ (Nat.le_succ _) (by rw [Tables.change_ok.1 h, Tables.change_ok.1 h1])
  | complete ready =>
    obtain ⟨_, -, h⟩ := bind_eq_ok.1 h
    obtain ⟨_, -, h⟩ := bind_eq_ok.1 h
    exact .other _ _ _ _ _ le_rfl (Tables.change_ok.1 h)
  | members participants ssccBlocks =>
    unfold Call.serve at h
    exact .other _ _ _ _ _ le_rfl (Tables.change_ok.1 h)

end Markiro.InventorySync
