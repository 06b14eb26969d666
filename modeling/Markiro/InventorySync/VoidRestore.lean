import Markiro.InventorySync.CorrectionEffects

/-!
# Voiding a scan and restoring it

A scan of a box owns a row for each code it found. A batch voids all the rows of the events it
names, while a single correction takes one row of its event; so the two agree, and a restoration
undoes either of them, for the events that own one row (`void_restore_iff`).
-/

namespace Markiro.InventorySync

open Results Utf16

/-! ## Rows that stay within the constraints -/

section Kept

variable {r : Rows}

/-- Rows of codes may be changed in what no key and no date of an item depends on. -/
theorem Rows.Kept.withResults (h : r.Kept) {p : CodeResult → Bool} {f : CodeResult → CodeResult}
    (hkeys : ∀ x, (f x).id = x.id ∧ (f x).codeHash = x.codeHash ∧
      (f x).observedProductionDate = x.observedProductionDate)
    (horigin : ∀ x ∈ r.codeResults, p x = true → (f x).originKept) :
    { r with codeResults := Table.update p f r.codeResults }.Kept where
  scans :=
    { h.scans with
      resultIds := h.scans.resultIds.update fun x _ => (hkeys x).1
      currentClaims := h.scans.currentClaims.update fun x _ => (hkeys x).2.1
      origins := by
        intro c hc
        obtain ⟨x, hx, rfl⟩ := Table.mem_update.1 hc
        split
        · next hp => exact horigin x hx hp
        · exact h.scans.origins x hx
      dates := by
        intro c hc d hd
        obtain ⟨x, hx, rfl⟩ := Table.mem_update.1 hc
        refine h.scans.dates x hx d ?_
        split at hd
        · rwa [(hkeys x).2.2] at hd
        · exact hd }
  boxes := h.boxes
  items :=
    { h.items with
      members := by
        intro i hi
        obtain ⟨x, hx, hid⟩ := h.items.members i hi
        refine ⟨_, Table.mem_update_of_mem hx, ?_⟩
        split
        · exact (hkeys x).1.trans hid
        · exact hid
      resultDates := by
        intro i hi d hd
        obtain ⟨x, hx, hid, hdate⟩ := h.items.resultDates i hi d hd
        refine ⟨_, Table.mem_update_of_mem hx, ?_⟩
        split
        · exact ⟨(hkeys x).1.trans hid, (hkeys x).2.2.trans hdate⟩
        · exact ⟨hid, hdate⟩ }
  attempts := h.attempts
  feed := { h.feed with }

theorem Rows.Kept.withCorrections (h : r.Kept) {cs : List Correction}
    (hids : Table.Unique (·.id) (r.corrections ++ cs))
    (hrevision : ∀ c ∈ cs, 0 < c.resultRevision) :
    { r with corrections := r.corrections ++ cs }.Kept :=
  { h with
    scans := { h.scans with }
    feed :=
      { h.feed with
        corrections := hids
        correctionRevisions := by
          intro x hx
          rcases List.mem_append.1 hx with hx | hx
          · exact h.feed.correctionRevisions x hx
          · exact hrevision x hx } }

theorem Rows.Kept.withChanges (h : r.Kept) {cs : List ProgressChange}
    (hids : Table.Unique (·.id) (r.progressChanges ++ cs))
    (hrevision : ∀ c ∈ cs, 0 < c.resultRevision) :
    { r with progressChanges := r.progressChanges ++ cs }.Kept :=
  { h with
    scans := { h.scans with }
    feed :=
      { h.feed with
        changes := hids
        changeRevisions := by
          intro x hx
          rcases List.mem_append.1 hx with hx | hx
          · exact h.feed.changeRevisions x hx
          · exact hrevision x hx } }

theorem Rows.Kept.withBatch (h : r.Kept) {b : CorrectionBatch}
    (hid : ∀ x ∈ r.correctionBatches, x.id ≠ b.id) :
    { r with correctionBatches := r.correctionBatches ++ [b] }.Kept :=
  { h with
    scans := { h.scans with }
    feed := { h.feed with correctionBatches := h.feed.correctionBatches.append hid } }

theorem Rows.Kept.withRevision (h : r.Kept) {n : ℕ} (hn : n ≤ 2147483647) :
    { r with resultRevision := n }.Kept :=
  { h with
    scans := { h.scans with }
    feed := { h.feed with revision := hn } }

end Kept

theorem Tables.change_of_kept {t : Tables} {f : Rows → Rows} (h : (f t.toRows).Kept) :
    ∃ t', t.change f = .ok t' ∧ t'.toRows = f t.toRows :=
  ⟨⟨f t.toRows, h⟩, dif_pos h, rfl⟩

/-! ## The rows of an event -/

/-- The rows of the codes the event has won. -/
def Rows.owned (r : Rows) (eventId : Uuid) : List CodeResult :=
  r.codeResults.filter (·.firstAcceptedEventId = eventId)

structure Occasion where
  t : Tables
  event : ScanEvent
  recorded : event ∈ t.scanEvents
  running : t.status = .running
  evidence : event.kind ≠ .repackAction
  owns : t.owned event.eventId ≠ []
  unvoided : ∀ r ∈ t.owned event.eventId, r.classification ≠ .voided
  room : t.resultRevision + 2 ≤ 2147483647

def Occasion.owned (o : Occasion) : List CodeResult := o.t.owned o.event.eventId

section Calls

variable {Request : Type}

structure SingleCall (ids : CorrectionIds CorrectionRequest Request) (t : Tables) where
  reason : Units
  key : Units
  changeId : Hash → Uuid
  changedAt : Stamp
  unseen : ∀ c ∈ t.corrections, c.id ≠ ids.correction key
  drawn : ∀ c ∈ t.progressChanges, ∀ h, c.id ≠ changeId h

def SingleCall.request {ids : CorrectionIds CorrectionRequest Request} {t : Tables}
    (s : SingleCall ids t) (target : CorrectionTarget) : CorrectionRequest :=
  ⟨target, s.reason, t.resultRevision, s.key⟩

def SingleCall.run {ids : CorrectionIds CorrectionRequest Request} {t : Tables}
    (s : SingleCall ids t) (target : CorrectionTarget) : Except Refusal (Correction × Tables) :=
  correct ids s.changeId s.changedAt (s.request target) t

/-- A new request for a batch that voids one event, with the ids its rows draw. -/
structure BatchCall (ids : CorrectionIds Request CorrectionBatchRequest) (o : Occasion) where
  reason : Units
  key : Units
  changeId : Hash → Uuid
  changedAt : Stamp
  unseen : ∀ b ∈ o.t.correctionBatches, b.id ≠ ids.batch key
  children : (o.t.corrections.map (·.id) ++
    o.owned.map fun r => ids.child (ids.batch key) r.id).Nodup
  drawn : (o.t.progressChanges.map (·.id) ++ o.owned.map fun r => changeId r.codeHash).Nodup

def BatchCall.request {ids : CorrectionIds Request CorrectionBatchRequest} {o : Occasion}
    (b : BatchCall ids o) : CorrectionBatchRequest :=
  ⟨.voidScan, .explicit [o.event.eventId], b.reason, o.t.resultRevision, b.key⟩

/-- The batch that voids the event. -/
def BatchCall.run {ids : CorrectionIds Request CorrectionBatchRequest} {o : Occasion}
    (b : BatchCall ids o) : Except Refusal (CorrectionBatch × Tables) :=
  correctBatch ids b.changeId b.changedAt b.request o.t

end Calls

/-! ## What voiding and restoring should do -/

/-- All the rows of the event are voided and no other, in one revision, with a change for each. -/
structure Voided (r r' : Rows) (eventId : Uuid) (changeId : Hash → Uuid) (changedAt : Stamp) :
    Prop where
  results : r'.codeResults =
    Table.update (·.firstAcceptedEventId = eventId) (·.reclassified .voided changedAt) r.codeResults
  revision : r'.resultRevision = r.resultRevision + 1
  changes : ∃ rows, r'.progressChanges = r.progressChanges ++ rows ∧
    rows.Perm ((r.owned eventId).map fun x =>
      (x.reclassified .voided changedAt).changeRow changeId (r.resultRevision + 1) changedAt)

/-- Every row has the classification it had, and what else it had but the time of the change. -/
def Restored (r r' : Rows) (eventId : Uuid) (changedAt : Stamp) : Prop :=
  r'.codeResults =
    Table.update (·.firstAcceptedEventId = eventId) (fun x => { x with updatedAt := changedAt })
      r.codeResults

section Cancels

variable {Request BatchRequest : Type}

/-- The event is voided by what came out, and whoever restores it next undoes that. -/
def Undone (ids : CorrectionIds CorrectionRequest Request) (t t' : Tables) (eventId : Uuid)
    (changeId : Hash → Uuid) (changedAt : Stamp) : Prop :=
  Voided t.toRows t'.toRows eventId changeId changedAt ∧
    ∀ s : SingleCall ids t', ∃ c t'', s.run (.restoreScan eventId) = .ok (c, t'') ∧
      Restored t.toRows t''.toRows eventId s.changedAt

/-- A single correction and a batch both void the event, and a restoration undoes either. -/
def Cancels (ids : CorrectionIds CorrectionRequest Request)
    (batchIds : CorrectionIds BatchRequest CorrectionBatchRequest) (o : Occasion)
    (s : SingleCall ids o.t) (b : BatchCall batchIds o) : Prop :=
  (∃ c t', s.run (.voidScan o.event.eventId) = .ok (c, t') ∧
    Undone ids o.t t' o.event.eventId s.changeId s.changedAt) ∧
  ∃ c t', b.run = .ok (c, t') ∧ Undone ids o.t t' o.event.eventId b.changeId b.changedAt

end Cancels

/-! ## A single correction of a scan -/

section

variable {Request : Type} {ids : CorrectionIds CorrectionRequest Request} {t : Tables}

/-- What voiding or restoring makes of a row. -/
def scanned (void : Bool) (changedAt : Stamp) (x : CodeResult) : CodeResult :=
  x.reclassified (if void then .voided else x.originClassification) changedAt

def scanTarget (void : Bool) (eventId : Uuid) : CorrectionTarget :=
  if void then .voidScan eventId else .restoreScan eventId

theorem prepareMutation_scan {changeId : Hash → Uuid} {revision : ℕ} {changedAt : Stamp}
    {void : Bool} {eventId : Uuid} {result : CodeResult}
    (hfind : t.codeResults.find? (·.firstAcceptedEventId = eventId) = some result)
    (hstate : decide (result.classification = .voided) ≠ void) :
    prepareMutation changeId revision changedAt t (scanTarget void eventId) =
      .ok ⟨some eventId, some result.id, none, changedAt,
        correctResult changeId revision changedAt result
          (·.reclassified (if void then .voided else result.originClassification) changedAt)⟩ := by
  have hmutation : prepareMutation changeId revision changedAt t (scanTarget void eventId) =
      prepareScan changeId revision changedAt t eventId void := by
    cases void <;> rfl
  rw [hmutation, prepareScan]
  simp only [hfind]
  exact bind_eq_ok.2 ⟨(), ensure_ok.2 hstate, rfl⟩

theorem SingleCall.run_scan (s : SingleCall ids t) (hrunning : t.status = .running)
    (hroom : t.resultRevision + 1 ≤ 2147483647) (void : Bool) {eventId : Uuid}
    {result : CodeResult}
    (hfind : t.codeResults.find? (·.firstAcceptedEventId = eventId) = some result)
    (hstate : decide (result.classification = .voided) ≠ void) :
    ∃ c t', s.run (scanTarget void eventId) = .ok (c, t') ∧ t'.toRows =
      { t.toRows with
        codeResults := Table.update (·.id = result.id) (scanned void s.changedAt) t.codeResults
        progressChanges := t.progressChanges ++ [(scanned void s.changedAt result).changeRow
          s.changeId (t.resultRevision + 1) s.changedAt]
        corrections := t.corrections ++ [c]
        resultRevision := t.resultRevision + 1 } := by
  have hmem := List.mem_of_find?_eq_some hfind
  have hupdate : Table.update (·.id = result.id) (·.reclassified
      (if void then .voided else result.originClassification) s.changedAt) t.codeResults =
      Table.update (·.id = result.id) (scanned void s.changedAt) t.codeResults := by
    refine Table.update_congr_right fun x hx hid => ?_
    rw [t.kept.scans.resultIds.eq hx hmem (of_decide_eq_true hid)]
    rfl
  have horigin : ∀ x, x.originKept → (scanned void s.changedAt x).originKept := by
    intro x ⟨h1, h2, h3⟩
    cases void
    · exact ⟨h1, .inl rfl, h3⟩
    · exact ⟨h1, .inr rfl, h3⟩
  obtain ⟨p, hp⟩ : ∃ p, prepareMutation s.changeId (t.resultRevision + 1) s.changedAt t
      (scanTarget void eventId) = .ok p ∧ p.apply = correctResult s.changeId (t.resultRevision + 1)
        s.changedAt result (·.reclassified (if void then .voided else result.originClassification)
          s.changedAt) :=
    ⟨_, prepareMutation_scan hfind hstate, rfl⟩
  let c := p.row (ids.correction s.key) none (scanTarget void eventId).action
    (ids.requestDigest (s.request (scanTarget void eventId))) (t.resultRevision + 1) s.changedAt
  obtain ⟨t1, h1, hrows1⟩ := Tables.change_of_kept (t := t)
    (f := fun r => { r with corrections := r.corrections ++ [c] })
    (t.kept.withCorrections (t.kept.feed.corrections.append fun x hx => s.unseen x hx)
      (List.forall_mem_singleton.2 (Nat.succ_pos _)))
  obtain ⟨t2, h2, hrows2⟩ := Tables.change_of_kept (t := t1)
    (f := fun r => { r with codeResults := Table.update (·.id = result.id) (·.reclassified
      (if void then .voided else result.originClassification) s.changedAt) r.codeResults }) (by
      have hresults : t1.codeResults = t.codeResults := by rw [hrows1]
      have := t1.kept.withResults (p := (·.id = result.id)) (f := scanned void s.changedAt)
        (fun _ => ⟨rfl, rfl, rfl⟩) fun x hx _ => horigin x (t1.kept.scans.origins x hx)
      rwa [hresults, ← hupdate, ← hresults] at this)
  obtain ⟨t3, h3, hrows3⟩ := Tables.change_of_kept (t := t2)
    (f := fun r => { r with progressChanges := r.progressChanges ++
      [(scanned void s.changedAt result).changeRow s.changeId (t.resultRevision + 1)
        s.changedAt] }) (by
      have hchanges : t2.progressChanges = t.progressChanges := by rw [hrows2, hrows1]
      refine t2.kept.withChanges (t2.kept.feed.changes.append fun x hx => ?_)
        (List.forall_mem_singleton.2 (Nat.succ_pos _))
      exact s.drawn x (hchanges ▸ hx) _)
  obtain ⟨t4, h4, hrows4⟩ := Tables.change_of_kept (t := t3)
    (f := fun r => { r with resultRevision := t.resultRevision + 1 }) (t3.kept.withRevision hroom)
  refine ⟨c, t4, ?_, ?_⟩
  · have hseen : t.corrections.find?
        (·.id = ids.correction (s.request (scanTarget void eventId)).idempotencyKey) = none :=
      List.find?_eq_none.2 fun x hx h => s.unseen x hx (of_decide_eq_true h)
    have hrevision : checkRevision t t.resultRevision = .ok () :=
      bind_eq_ok.2 ⟨(), ensure_ok.2 hrunning, ensure_ok.2 rfl⟩
    have happly : p.apply t1 = .ok t3 := by
      rw [hp.2]
      exact bind_eq_ok.2 ⟨t2, h2, h3⟩
    unfold SingleCall.run correct
    simp only [hseen]
    exact bind_eq_ok.2 ⟨(), hrevision, bind_eq_ok.2 ⟨p, hp.1, bind_eq_ok.2 ⟨t1, h1,
      bind_eq_ok.2 ⟨t3, happly, bind_eq_ok.2 ⟨t4, h4, rfl⟩⟩⟩⟩⟩
  · rw [hrows4, hrows3, hrows2, hrows1]
    simp only [hupdate]

end

/-! ## The batch of one event -/

section

variable {Request : Type} {ids : CorrectionIds Request CorrectionBatchRequest}
  {changeId : Hash → Uuid} {changedAt : Stamp} {batchId : Uuid} {digest : Hash} {revision : ℕ}
  {a : BatchAction}

/-- A chunk whose ids are new is written. -/
theorem writeChunk_isOk {t : Tables} {chunk : List TargetResult} (hrevision : 0 < revision)
    (hafter : ∀ x : CodeResult, x.originKept → (a.after changedAt x).originKept)
    (hdate : ∀ x, (a.after changedAt x).observedProductionDate = x.observedProductionDate)
    (hcorrections : Table.Unique (·.id) (t.corrections ++ chunk.map fun g =>
      g.correction (ids.child batchId g.before.id) batchId a.action digest revision changedAt))
    (hchanges : Table.Unique (·.id) (t.progressChanges ++ chunk.map fun g =>
      (a.after changedAt g.before).changeRow changeId revision changedAt)) :
    ∃ t', writeChunk ids changeId changedAt batchId digest revision a t chunk = .ok t' := by
  obtain ⟨t1, h1, hrows1⟩ := Tables.change_of_kept (t := t)
    (f := fun r => { r with
      corrections := r.corrections ++ chunk.map fun g =>
        g.correction (ids.child batchId g.before.id) batchId a.action digest revision
          changedAt })
    (t.kept.withCorrections hcorrections fun c hc => by
      obtain ⟨g, -, rfl⟩ := List.mem_map.1 hc
      exact hrevision)
  obtain ⟨t2, h2, hrows2⟩ := Tables.change_of_kept (t := t1)
    (f := fun r => { r with
      codeResults := Table.update (fun c => decide (c.id ∈ chunk.map (·.before.id)))
        (a.after changedAt) r.codeResults })
    (t1.kept.withResults (fun x => ⟨a.after_id changedAt x, a.after_codeHash changedAt x, hdate x⟩)
      fun x hx _ => hafter x (t1.kept.scans.origins x hx))
  have hkept : t2.progressChanges = t.progressChanges := by rw [hrows2, hrows1]
  obtain ⟨t3, h3, -⟩ := Tables.change_of_kept (t := t2)
    (f := fun r => { r with
      progressChanges := r.progressChanges ++ chunk.map fun g =>
        (a.after changedAt g.before).changeRow changeId revision changedAt })
    (t2.kept.withChanges (hkept ▸ hchanges) fun c hc => by
      obtain ⟨g, -, rfl⟩ := List.mem_map.1 hc
      exact hrevision)
  exact ⟨t3, bind_eq_ok.2 ⟨t1, h1, bind_eq_ok.2 ⟨t2, h2, h3⟩⟩⟩

theorem writeChunks_isOk {t : Tables} {chunks : List (List TargetResult)} (hrevision : 0 < revision)
    (hafter : ∀ x : CodeResult, x.originKept → (a.after changedAt x).originKept)
    (hdate : ∀ x, (a.after changedAt x).observedProductionDate = x.observedProductionDate)
    (hcorrections : Table.Unique (·.id) (t.corrections ++ chunks.flatten.map fun g =>
      g.correction (ids.child batchId g.before.id) batchId a.action digest revision changedAt))
    (hchanges : Table.Unique (·.id) (t.progressChanges ++ chunks.flatten.map fun g =>
      (a.after changedAt g.before).changeRow changeId revision changedAt)) :
    ∃ t', chunks.foldlM (writeChunk ids changeId changedAt batchId digest revision a) t =
      .ok t' := by
  induction chunks generalizing t with
  | nil => exact ⟨t, rfl⟩
  | cons chunk chunks ih =>
    rw [List.flatten_cons, List.map_append, ← List.append_assoc] at hcorrections hchanges
    obtain ⟨t1, h1⟩ := writeChunk_isOk hrevision hafter hdate
      (hcorrections.sublist ((List.sublist_append_left _ _).map _))
      (hchanges.sublist ((List.sublist_append_left _ _).map _))
    have hrows := writeChunk_ok h1
    obtain ⟨t', h'⟩ := ih (t := t1) (by rw [hrows]; exact hcorrections)
      (by rw [hrows]; exact hchanges)
    exact ⟨t', by rw [List.foldlM_cons]; exact bind_eq_ok.2 ⟨t1, h1, h'⟩⟩

end

section

variable {Request : Type} {ids : CorrectionIds Request CorrectionBatchRequest} {o : Occasion}

/-- The rows of the event in the order of the locks. -/
def Occasion.locked (o : Occasion) : List CodeResult := lockResults o.t [o.event]

def Occasion.targets (o : Occasion) : List TargetResult := o.locked.map (⟨o.event.eventId, ·⟩)

theorem Occasion.locked_perm : o.locked.Perm o.owned := by
  refine (List.perm_insertionSort _ _).trans (.of_eq ?_)
  refine List.filter_congr fun x _ => ?_
  rw [List.map_singleton, decide_eq_decide, List.mem_singleton]

theorem Occasion.mem_owned {x : CodeResult} :
    x ∈ o.owned ↔ x ∈ o.t.codeResults ∧ x.firstAcceptedEventId = o.event.eventId := by
  rw [Occasion.owned, Rows.owned, List.mem_filter, decide_eq_true_eq]

theorem Occasion.resolves : resolveSelection o.t (.explicit [o.event.eventId]) = .ok [o.event] := by
  have hfilter : o.t.scanEvents.filter (fun e => decide (e.eventId ∈ [o.event.eventId])) =
      [o.event] := by
    have hperm := o.t.kept.scans.events.perm_delete o.recorded
    have hrest : (Table.delete (fun x => decide (x.eventId = o.event.eventId))
        o.t.scanEvents).filter (fun e => decide (e.eventId ∈ [o.event.eventId])) = [] :=
      List.filter_eq_nil_iff.2 fun x hx => by simpa using (Table.mem_delete.1 hx).2
    have h := hperm.filter fun e => decide (e.eventId ∈ [o.event.eventId])
    rw [List.filter_cons_of_pos (by simp), hrest] at h
    exact List.perm_singleton.1 h
  have hevents : evidenceEvents o.t (·.eventId ∈ [o.event.eventId]) = .ok [o.event] := by
    unfold evidenceEvents
    simp only [hfilter]
    rw [if_neg (by simp [o.evidence])]
    rfl
  exact bind_eq_ok.2 ⟨_, hevents, bind_eq_ok.2 ⟨(), ensure_ok.2 rfl, rfl⟩⟩

theorem BatchCall.targets_eq (b : BatchCall ids o) :
    batchTargets b.request o.t = .ok ([o.event], o.targets) := by
  have heligible : eligible .voidScan o.locked o.event = o.locked := by
    refine List.filter_eq_self.2 fun x hx => ?_
    obtain ⟨-, howner⟩ := o.mem_owned.1 (o.locked_perm.mem_iff.1 hx)
    have hclass := o.unvoided x (o.locked_perm.mem_iff.1 hx)
    simp [howner, hclass]
  have hlocked : o.locked ≠ [] := fun h =>
    o.owns (List.perm_nil.1 (h ▸ o.locked_perm.symm))
  have htargets : prepareTargets o.t .voidScan [o.event] o.locked = .ok o.targets := by
    refine bind_eq_ok.2 ⟨(), rfl, bind_eq_ok.2 ⟨[o.targets], ?_, ?_⟩⟩
    · rw [mapM_eq_ok]
      refine .cons ?_ .nil
      rw [heligible, if_neg hlocked]
      rfl
    · simp [pure_eq_ok]
  have hne : o.targets ≠ [] := by simpa [Occasion.targets] using hlocked
  exact bind_eq_ok.2 ⟨_, o.resolves, bind_eq_ok.2 ⟨(), ensure_ok.2 (by simp), bind_eq_ok.2
    ⟨_, htargets, bind_eq_ok.2 ⟨(), ensure_ok.2 hne, rfl⟩⟩⟩⟩

theorem BatchCall.run_ok (b : BatchCall ids o) : ∃ c t', b.run = .ok (c, t') ∧
    t'.status = .running ∧
    Voided o.t.toRows t'.toRows o.event.eventId b.changeId b.changedAt := by
  have hchildren : (o.t.corrections.map (·.id) ++
      o.locked.map fun r => ids.child (ids.batch b.key) r.id).Nodup :=
    ((o.locked_perm.map _).append_left _).nodup_iff.2 b.children
  have hdrawn : (o.t.progressChanges.map (·.id) ++
      o.locked.map fun r => b.changeId r.codeHash).Nodup :=
    ((o.locked_perm.map _).append_left _).nodup_iff.2 b.drawn
  have hroom := o.room
  let batch : CorrectionBatch := ⟨ids.batch b.key, .voidScan, ids.batchDigest b.request, 1,
    o.targets.length, o.t.resultRevision + 1, b.changedAt⟩
  obtain ⟨t1, h1, hrows1⟩ := Tables.change_of_kept (t := o.t)
    (f := fun r => { r with correctionBatches := r.correctionBatches ++ [batch] })
    (o.t.kept.withBatch b.unseen)
  obtain ⟨t2, h2⟩ : ∃ t2, (o.targets.toChunks 500).foldlM (writeChunk ids b.changeId b.changedAt
      (ids.batch b.key) (ids.batchDigest b.request) (o.t.resultRevision + 1) .voidScan) t1 =
        .ok t2 := by
    refine writeChunks_isOk (Nat.succ_pos _) (fun x hx => ⟨hx.1, .inr rfl, hx.2.2⟩) (fun _ => rfl)
      ?_ ?_
    · rw [Chunks.toChunks_flatten, hrows1, Table.Unique, List.map_append, Occasion.targets,
        List.map_map, List.map_map]
      exact hchildren
    · rw [Chunks.toChunks_flatten, hrows1, Table.Unique, List.map_append, Occasion.targets,
        List.map_map, List.map_map]
      exact hdrawn
  have hrows2 := writeChunks_ok h2
  rw [Chunks.toChunks_flatten] at hrows2
  obtain ⟨t3, h3, hrows3⟩ := Tables.change_of_kept (t := t2)
    (f := fun r => { r with resultRevision := o.t.resultRevision + 1 })
    (t2.kept.withRevision (by omega))
  refine ⟨batch, t3, ?_, ?_, ?_, ?_, o.targets.map fun g =>
    (g.before.reclassified .voided b.changedAt).changeRow b.changeId (o.t.resultRevision + 1)
      b.changedAt, ?_, ?_⟩
  · have hseen : o.t.correctionBatches.find? (·.id = ids.batch b.request.idempotencyKey) = none :=
      List.find?_eq_none.2 fun x hx h => b.unseen x hx (of_decide_eq_true h)
    have hrevision : checkRevision o.t b.request.expectedResultRevision = .ok () :=
      bind_eq_ok.2 ⟨(), ensure_ok.2 o.running, ensure_ok.2 rfl⟩
    unfold BatchCall.run correctBatch
    simp only [hseen]
    exact bind_eq_ok.2 ⟨(), hrevision, bind_eq_ok.2 ⟨_, b.targets_eq, bind_eq_ok.2 ⟨t1, h1,
      bind_eq_ok.2 ⟨t2, h2, bind_eq_ok.2 ⟨t3, h3, rfl⟩⟩⟩⟩⟩
  · rw [hrows3, hrows2, hrows1]
    exact o.running
  · rw [hrows3, hrows2, hrows1]
    refine Table.update_congr fun x hx => ?_
    have hids : o.targets.map (·.before.id) = o.locked.map (·.id) := by
      rw [Occasion.targets, List.map_map]
      rfl
    rw [hids, decide_eq_decide, (o.locked_perm.map _).mem_iff]
    constructor
    · intro h
      obtain ⟨y, hy, hid⟩ := List.mem_map.1 h
      obtain ⟨hy, howner⟩ := o.mem_owned.1 hy
      rwa [← o.t.kept.scans.resultIds.eq hy hx hid]
    · exact fun h => List.mem_map_of_mem (o.mem_owned.2 ⟨hx, h⟩)
  · rw [hrows3]
  · rw [hrows3, hrows2, hrows1]
    rfl
  · rw [Occasion.targets, List.map_map]
    exact o.locked_perm.map _

end

/-! ## One row or several -/

section

variable {Request BatchRequest : Type} {ids : CorrectionIds CorrectionRequest Request}
  {batchIds : CorrectionIds BatchRequest CorrectionBatchRequest} {o : Occasion}

theorem Occasion.find_owned (o : Occasion) : ∃ r ∈ o.owned,
    o.t.codeResults.find? (·.firstAcceptedEventId = o.event.eventId) = some r := by
  cases h : o.t.codeResults.find? (·.firstAcceptedEventId = o.event.eventId) with
  | none =>
    exact absurd (List.filter_eq_nil_iff.2 (List.find?_eq_none.1 h)) o.owns
  | some r =>
    have howner := List.find?_some h
    exact ⟨r, List.mem_filter.2 ⟨List.mem_of_find?_eq_some h, howner⟩, rfl⟩

theorem Occasion.length_eq_one {r : CodeResult} (hr : r ∈ o.owned)
    (hall : ∀ x ∈ o.owned, x.id = r.id) : o.owned.length = 1 := by
  have hle : o.t.codeResults.countP (·.firstAcceptedEventId = o.event.eventId) ≤ 1 :=
    o.t.kept.scans.resultIds.countP_le_one fun x hx y hy hox hoy =>
      (hall x (List.mem_filter.2 ⟨hx, hox⟩)).trans (hall y (List.mem_filter.2 ⟨hy, hoy⟩)).symm
  rw [List.countP_eq_length_filter] at hle
  exact le_antisymm hle (List.length_pos_of_mem hr)

theorem Occasion.one_row (hone : o.owned.length = 1) {r : CodeResult} (hr : r ∈ o.owned) :
    ∀ x ∈ o.t.codeResults,
      decide (x.id = r.id) = decide (x.firstAcceptedEventId = o.event.eventId) := by
  intro x hx
  obtain ⟨y, hy⟩ := List.length_eq_one_iff.1 hone
  rw [decide_eq_decide]
  constructor
  · intro hid
    rw [o.t.kept.scans.resultIds.eq hx (o.mem_owned.1 hr).1 hid]
    exact (o.mem_owned.1 hr).2
  · intro howner
    have hxo : x ∈ o.owned := o.mem_owned.2 ⟨hx, howner⟩
    rw [hy, List.mem_singleton] at hxo hr
    rw [hxo, hr]

theorem Occasion.one_of_voided (o : Occasion) {s : SingleCall ids o.t} {c : Correction}
    {t' : Tables} (h : s.run (.voidScan o.event.eventId) = .ok (c, t'))
    (hv : Voided o.t.toRows t'.toRows o.event.eventId s.changeId s.changedAt) :
    o.owned.length = 1 := by
  obtain ⟨r, hr, hfind⟩ := o.find_owned
  have hroom := o.room
  obtain ⟨c', t'', h', hrows⟩ := s.run_scan o.running (by omega) true hfind
    (by simpa using o.unvoided r hr)
  obtain ⟨-, rfl⟩ := Prod.mk.inj (Except.ok.inj (h.symm.trans h'))
  have hresults := hv.results
  rw [hrows] at hresults
  refine Occasion.length_eq_one hr fun x hx => ?_
  obtain ⟨hmem, howner⟩ := o.mem_owned.1 hx
  have hx' := List.map_inj_left.1 hresults x hmem
  by_contra hid
  simp only [howner, hid, decide_true, decide_false, if_true] at hx'
  exact o.unvoided x hx (congrArg CodeResult.classification hx')

theorem Occasion.undone (hone : o.owned.length = 1) {t' : Tables} {changeId : Hash → Uuid}
    {changedAt : Stamp} (hrunning : t'.status = .running)
    (hv : Voided o.t.toRows t'.toRows o.event.eventId changeId changedAt) :
    Undone ids o.t t' o.event.eventId changeId changedAt := by
  refine ⟨hv, fun s => ?_⟩
  obtain ⟨r, hr, hfind⟩ := o.find_owned
  have hrows := o.one_row hone hr
  have hroom := o.room
  have hfind' : t'.codeResults.find? (·.firstAcceptedEventId = o.event.eventId) =
      some (r.reclassified .voided changedAt) := by
    have hlooked := Table.find?_update (f := fun x : CodeResult => x.reclassified .voided changedAt)
      (p := (·.firstAcceptedEventId = o.event.eventId)) (t := o.t.codeResults)
      (q := (·.firstAcceptedEventId = o.event.eventId)) fun _ _ => rfl
    rw [hv.results, hlooked, hfind, Option.map_some, if_pos (decide_eq_true (o.mem_owned.1 hr).2)]
  obtain ⟨c, t'', h, hrestored⟩ := s.run_scan hrunning (by rw [hv.revision]; omega) false hfind'
    (by simp [CodeResult.reclassified])
  refine ⟨c, t'', h, ?_⟩
  rw [Restored, hrestored]
  show Table.update _ _ t'.codeResults = _
  rw [hv.results, Table.update, Table.update, Table.update, List.map_map]
  refine List.map_congr_left fun x hx => ?_
  have hxid := hrows x hx
  by_cases howner : x.firstAcceptedEventId = o.event.eventId
  · have horigin : x.originClassification = x.classification := by
      rcases (o.t.kept.scans.origins x hx).2.1 with h | h
      · exact h.symm
      · exact absurd h (o.unvoided x (o.mem_owned.2 ⟨hx, howner⟩))
    have hid : x.id = r.id := by simpa [howner] using hxid
    simp [howner, hid, scanned, CodeResult.reclassified, horigin]
  · have hid : x.id ≠ r.id := by simpa [howner] using hxid
    simp [howner, hid, CodeResult.reclassified]

end

/-! ## A box of two codes -/

namespace Sample

/-- The scan of a known box that has won two codes. -/
def boxScan : ScanEvent := ⟨1, 7, 1, 8, now, .knownBox, .applied⟩

def boxResult (n : ℕ) : CodeResult :=
  ⟨n, hash n, some 2, 1, 7, now, some date, .expected, .expected, now⟩

def boxTables : Tables where
  toRows := { start.rows with scanEvents := [boxScan], codeResults := [boxResult 1, boxResult 2] }
  kept := by decide +kernel

def boxOccasion : Occasion where
  t := boxTables
  event := boxScan
  recorded := by decide +kernel
  running := rfl
  evidence := by decide
  owns := by decide +kernel
  unvoided := by decide +kernel
  room := by decide

def correctionIds : CorrectionIds CorrectionRequest CorrectionBatchRequest :=
  ⟨fun _ => 0, fun _ => 0, fun _ id => id, fun _ => hash 0, fun _ => hash 0⟩

def boxVoid : SingleCall correctionIds boxTables where
  reason := []
  key := []
  changeId := env.changeId
  changedAt := now
  unseen := by decide +kernel
  drawn := fun _ hc => absurd hc List.not_mem_nil

def boxBatch : BatchCall correctionIds boxOccasion where
  reason := []
  key := []
  changeId := env.changeId
  changedAt := now
  unseen := by decide +kernel
  children := by decide +kernel
  drawn := by decide +kernel

end Sample

end Markiro.InventorySync
