import Markiro.InventorySync.CorrectionEffects

/-!
# The progress feed loses nothing

1. every transaction keeps the feed in step with the rows of the codes (`Advanced.fed`), and what it
   adds comes after everything the feed had (`Advanced.grows`);
2. a device that polls holds the stream up to its cursor, and accepts every page (`Watching.poll`);
3. over any run, nothing is lost (`progress_loses_nothing`).
-/

namespace Markiro.InventorySync

open Results

/-! ## The feed and the rows of the codes -/

/-- The feed is in step with the codes. -/
structure Fed (r : Rows) : Prop where
  changes : ∀ c ∈ r.progressChanges, c.resultRevision ≤ r.resultRevision
  corrections : ∀ k ∈ r.corrections, k.resultRevision ≤ r.resultRevision
  apart : ∀ c ∈ r.progressChanges, ∀ k ∈ r.corrections, k.action.stream ≠ none →
    c.resultRevision ≠ k.resultRevision
  reported : ∀ x ∈ r.codeResults, ∃ c ∈ r.progressChanges, c.Reports x ∧
    ∀ c' ∈ r.progressChanges, c'.codeHash = x.codeHash →
      c' = c ∨ c'.resultRevision < c.resultRevision
  known : ∀ c ∈ r.progressChanges, ∃ x ∈ r.codeResults, x.codeHash = c.codeHash
  based : ∀ k ∈ r.corrections, k.action.stream ≠ none → k.Based r

theorem Start.fed (start : Start) : Fed start.tables.toRows :=
  have hnil {α : Type} {p : α → Prop} : ∀ x ∈ ([] : List α), p x :=
    fun _ hx => absurd hx List.not_mem_nil
  ⟨hnil, hnil, hnil, hnil, hnil, hnil⟩

section

variable {rows : List ProgressChange} {cs : List Correction} {r r' : Rows}

theorem Advanced.based_old (h : Advanced rows cs r r') {k : Correction} (hk : k.Based r) :
    k.Based r' := by
  obtain ⟨⟨b, hb, hbox⟩, hresult, hmember⟩ := hk
  obtain ⟨b', hb', h1⟩ := h.boxes b hb
  refine ⟨⟨b', hb', hbox.trans (congrArg some h1.id.symm)⟩, fun id hid => ?_, hmember⟩
  obtain ⟨x, hx, rfl⟩ := hresult id hid
  obtain ⟨x', hx', h2, -⟩ := h.named x hx
  exact ⟨x', hx', h2⟩

/-- The latest change of a code is the one the transaction wrote of it, or the one before. -/
theorem Advanced.reported (h : Advanced rows cs r r') (hr : Fed r) (hkept : r'.Kept)
    {x : CodeResult} (hx : x ∈ r'.codeResults) : ∃ c ∈ r'.progressChanges, c.Reports x ∧
      ∀ c' ∈ r'.progressChanges, c'.codeHash = x.codeHash →
        c' = c ∨ c'.resultRevision < c.resultRevision := by
  rw [h.changes]
  by_cases hnew : ∃ c ∈ rows, c.codeHash = x.codeHash
  · obtain ⟨c, hc, hcx⟩ := hnew
    obtain ⟨y, hy, hcy⟩ := h.reports c hc
    obtain rfl := hkept.scans.currentClaims.eq hy hx (hcy.codeHash.symm.trans hcx)
    refine ⟨c, List.mem_append_right _ hc, hcy, fun c' hc' hcode => ?_⟩
    rcases List.mem_append.1 hc' with hold | hnew
    · have h1 := hr.changes c' hold
      have h2 := (h.changeRevisions c hc).1
      exact .inr (by omega)
    · exact .inl (h.distinct.eq hnew hc (hcode.trans hcx.symm))
  · obtain ⟨c, hc, hcx, hlast⟩ := hr.reported x ((h.results x hx).resolve_right hnew)
    refine ⟨c, List.mem_append_left _ hc, hcx, fun c' hc' hcode => ?_⟩
    rcases List.mem_append.1 hc' with hold | hin
    · exact hlast c' hold hcode
    · exact absurd ⟨c', hin, hcode⟩ hnew

/-- **A transaction keeps the feed in step.** -/
theorem Advanced.fed (h : Advanced rows cs r r') (hr : Fed r) (hkept : r'.Kept) : Fed r' where
  changes := by
    intro c hc
    rw [h.changes, List.mem_append] at hc
    rcases hc with hc | hc
    · exact (hr.changes c hc).trans h.revision
    · exact (h.changeRevisions c hc).2
  corrections := by
    intro k hk
    rw [h.corrections, List.mem_append] at hk
    rcases hk with hk | hk
    · exact (hr.corrections k hk).trans h.revision
    · exact (h.correctionRevisions k hk).2
  apart := by
    intro c hc k hk hstream
    rw [h.changes, List.mem_append] at hc
    rw [h.corrections, List.mem_append] at hk
    rcases hc with hc | hc <;> rcases hk with hk | hk
    · exact hr.apart c hc k hk hstream
    · have h1 := hr.changes c hc
      have h2 := (h.correctionRevisions k hk).1
      omega
    · have h1 := hr.corrections k hk
      have h2 := (h.changeRevisions c hc).1
      omega
    · rw [(h.based k hk hstream).1] at hc
      cases hc
  reported := fun x hx => h.reported hr hkept hx
  known := by
    intro c hc
    rw [h.changes, List.mem_append] at hc
    rcases hc with hc | hc
    · obtain ⟨x, hx, hcx⟩ := hr.known c hc
      obtain ⟨x', hx', -, h2⟩ := h.named x hx
      exact ⟨x', hx', h2.trans hcx⟩
    · obtain ⟨x, hx, hcx⟩ := h.reports c hc
      exact ⟨x, hx, hcx.codeHash.symm⟩
  based := by
    intro k hk hstream
    rw [h.corrections, List.mem_append] at hk
    rcases hk with hk | hk
    · exact h.based_old (hr.based k hk hstream)
    · exact (h.based k hk hstream).2

/-! ## The stream grows at its end -/

theorem streamRow_place {k : Correction} {x : StreamRow} (h : k.streamRow r = some x) :
    k.action.stream ≠ none ∧ x.place = ⟨k.resultRevision, k.id⟩ := by
  unfold Correction.streamRow at h
  cases hs : k.action.stream with
  | none =>
    rw [hs] at h
    cases h
  | some kind =>
    rw [hs, Option.map_some] at h
    obtain rfl := Option.some.inj h
    exact ⟨nofun, rfl⟩

theorem mem_stream {x : StreamRow} : x ∈ stream r ↔
    (∃ c ∈ r.progressChanges, c.streamRow = x) ∨ ∃ k ∈ r.corrections, k.streamRow r = some x := by
  rw [stream, List.mem_append, List.mem_map, List.mem_filterMap]

theorem Fed.revision_le (h : Fed r) {x : StreamRow} (hx : x ∈ stream r) :
    x.resultRevision ≤ r.resultRevision := by
  rcases mem_stream.1 hx with ⟨c, hc, rfl⟩ | ⟨k, hk, hkx⟩
  · exact h.changes c hc
  · have h1 := h.corrections k hk
    have h2 := congrArg ProgressCursor.revision (streamRow_place hkx).2
    exact h2.trans_le h1

theorem revision_pos (hkept : r.Kept) {x : StreamRow} (hx : x ∈ stream r) :
    0 < x.resultRevision := by
  rcases mem_stream.1 hx with ⟨c, hc, rfl⟩ | ⟨k, hk, hkx⟩
  · exact hkept.feed.changeRevisions c hc
  · have h2 := congrArg ProgressCursor.revision (streamRow_place hkx).2
    exact (hkept.feed.correctionRevisions k hk).trans_eq h2.symm

theorem Fed.distinct (h : Fed r) (hkept : r.Kept) : ((stream r).map (·.place)).Nodup := by
  have hplace : ∀ l : List StreamRow, (l.map (·.id)).Nodup → (l.map (·.place)).Nodup := by
    intro l hl
    refine List.Nodup.of_map (fun c : ProgressCursor => c.id) ?_
    rw [List.map_map]
    exact hl
  rw [stream, List.map_append, List.nodup_append]
  refine ⟨hplace _ ?_, hplace _ ?_, ?_⟩
  · rw [List.map_map]
    exact hkept.feed.changes
  · have hsub : ∀ l : List Correction,
        ((l.filterMap (·.streamRow r)).map (·.id)).Sublist (l.map (·.id)) := by
      intro l
      induction l with
      | nil => exact .slnil
      | cons k l ih =>
        cases hk : k.streamRow r with
        | none =>
          rw [List.filterMap_cons_none hk]
          exact ih.cons _
        | some x =>
          have hid : x.id = k.id := congrArg ProgressCursor.id (streamRow_place hk).2
          rw [List.filterMap_cons_some hk, List.map_cons, List.map_cons, hid]
          exact ih.cons_cons _
    exact hkept.feed.corrections.sublist (hsub _)
  · intro p hp q hq hpq
    obtain ⟨x, hx, rfl⟩ := List.mem_map.1 hp
    obtain ⟨c, hc, rfl⟩ := List.mem_map.1 hx
    obtain ⟨y, hy, rfl⟩ := List.mem_map.1 hq
    obtain ⟨k, hk, hky⟩ := List.mem_filterMap.1 hy
    obtain ⟨hstream, hplace'⟩ := streamRow_place hky
    exact h.apart c hc k hk hstream (congrArg ProgressCursor.revision (hpq.trans hplace'))

/-- The entry of a correction stays as it was: a box keeps its owner and a row its code. -/
theorem Advanced.streamRow_old (h : Advanced rows cs r r') (hr : r.Kept) (hr' : r'.Kept)
    {k : Correction} (hk : k.action.stream ≠ none → k.Based r) :
    k.streamRow r' = k.streamRow r := by
  cases hs : k.action.stream with
  | none => simp [Correction.streamRow, hs]
  | some kind =>
    obtain ⟨⟨b, hb, hbox⟩, hresult, -⟩ := hk (by simp [hs])
    obtain ⟨b', hb', hid, howner, -⟩ := h.boxes b hb
    have hb1 : (r.boxes.find? fun x => some x.id = k.targetRepackBoxId) = some b := by
      rw [hbox]
      simpa using hr.boxes.ids.find? hb
    have hb2 : (r'.boxes.find? fun x => some x.id = k.targetRepackBoxId) = some b' := by
      rw [hbox, ← hid]
      simpa using hr'.boxes.ids.find? hb'
    have hcode : ((r'.codeResults.find? fun x => some x.id = k.targetCodeResultId).map (·.codeHash)) =
        (r.codeResults.find? fun x => some x.id = k.targetCodeResultId).map (·.codeHash) := by
      cases ht : k.targetCodeResultId with
      | none =>
        have hno : ∀ l : List CodeResult, (l.find? fun x => some x.id = none) = none :=
          fun l => List.find?_eq_none.2 fun x _ => by simp
        rw [hno, hno]
      | some id =>
        obtain ⟨x, hx, rfl⟩ := hresult id ht
        obtain ⟨x', hx', hxid, hhash⟩ := h.named x hx
        have h1 : (r.codeResults.find? fun y => some y.id = some x.id) = some x := by
          simpa using hr.scans.resultIds.find? hx
        have h2 : (r'.codeResults.find? fun y => some y.id = some x.id) = some x' := by
          rw [← hxid]
          simpa using hr'.scans.resultIds.find? hx'
        rw [h1, h2, Option.map_some, Option.map_some, hhash]
    rw [Correction.streamRow, Correction.streamRow, hs, hb1, hb2, hcode, Option.map_some,
      Option.map_some, Option.map_some, Option.map_some, howner]

/-- **What a transaction adds comes after everything there is.** -/
theorem Advanced.grows (h : Advanced rows cs r r') (hr : Fed r) (hkept : r.Kept)
    (hkept' : r'.Kept) :
    Cursor.Grows StreamRow.place (stream r) (stream r') := by
  refine ⟨(h.fed hr hkept').distinct hkept',
    rows.map (·.streamRow) ++ cs.filterMap (·.streamRow r'), ?_, ?_⟩
  · have hold : r.corrections.filterMap (·.streamRow r') = r.corrections.filterMap (·.streamRow r) :=
      List.filterMap_congr fun k hk => h.streamRow_old hkept hkept' (hr.based k hk)
    rw [stream, stream, h.changes, h.corrections, List.map_append, List.filterMap_append, hold,
      List.append_assoc, List.append_assoc]
    exact (List.perm_append_comm_assoc _ _ _).append_left _
  · intro x hx y hy
    have hy1 := hr.revision_le hy
    have hx1 : r.resultRevision < x.resultRevision := by
      rcases List.mem_append.1 hx with hx | hx
      · obtain ⟨c, hc, rfl⟩ := List.mem_map.1 hx
        exact (h.changeRevisions c hc).1
      · obtain ⟨k, hk, hkx⟩ := List.mem_filterMap.1 hx
        have h2 := congrArg ProgressCursor.revision (streamRow_place hkx).2
        exact (h.correctionRevisions k hk).1.trans_eq h2.symm
    exact ProgressCursor.lt_iff.2 (.inl (hy1.trans_lt hx1))

end

/-! ## Every call -/

section

variable {s : Site}

theorem correct_advanced {changeId : Hash → Uuid} {changedAt : Stamp} {input : CorrectionRequest}
    {c : Correction} {t t' : Tables} (h : correct s.ids changeId changedAt input t = .ok (c, t')) :
    ∃ rows cs, Advanced rows cs t.toRows t'.toRows := by
  obtain rfl | ⟨-, haction, hrev, r, hr, hrows⟩ := correct_ok h
  · exact ⟨[], [], (Rows.Beside.refl _).advanced⟩
  have hnil {α : Type} {p : α → Prop} : ∀ x ∈ ([] : List α), p x :=
    fun _ hx => absurd hx List.not_mem_nil
  have hone {p : Correction → Prop} (hc : p c) : ∀ k ∈ [c], p k :=
    fun k hk => List.mem_singleton.1 hk ▸ hc
  have hrevision : t.resultRevision < c.resultRevision ∧
      c.resultRevision ≤ t.resultRevision + 1 := by omega
  have hrun := Nat.le_succ t.resultRevision
  generalize input.target = target at hr haction
  cases hr with
  | code _ result f hresult hkeeps hdate hstream =>
    refine ⟨[(f result).changeRow changeId (t.resultRevision + 1) changedAt], [c], ?_⟩
    rw [hrows]
    refine ⟨hrun, rfl, rfl, ?_, hone hrevision, ?_, List.nodup_singleton _, ?_, ?_,
      (Rows.Beside.refl _).boxes, hone fun hs => absurd (haction ▸ hstream) hs⟩
    · intro row hrow
      obtain rfl := List.mem_singleton.1 hrow
      exact ⟨Nat.lt_succ_self _, le_rfl⟩
    · intro row hrow
      obtain rfl := List.mem_singleton.1 hrow
      have hmem := Table.mem_update_of_mem (p := fun x => decide (x.id = result.id)) (f := f) hresult
      rw [if_pos (by simp)] at hmem
      exact ⟨f result, hmem, rfl, rfl, rfl, rfl, rfl, rfl⟩
    · intro x hx
      obtain ⟨y, hy, rfl⟩ := Table.mem_update.1 hx
      split_ifs with hsel
      · have hy' : y = result := t.kept.scans.resultIds.eq hy hresult (of_decide_eq_true hsel)
        exact .inr ⟨_, List.mem_singleton_self _, by rw [hy']; rfl⟩
      · exact .inl hy
    · intro x hx
      refine ⟨_, Table.mem_update_of_mem hx, ?_⟩
      split_ifs
      · exact ⟨(hkeeps x).1, (hkeeps x).2.1⟩
      · exact ⟨rfl, rfl⟩
  | removed resultId item box removedAt hitem hactive hresult hbox hid hopen hnamed =>
    refine ⟨[], [c], ?_⟩
    rw [hrows]
    refine ⟨hrun, (List.append_nil _).symm, rfl, hnil, hone hrevision, hnil, List.nodup_nil,
      fun x hx => .inl hx, fun x hx => ⟨x, hx, rfl, rfl⟩, (Rows.Beside.refl _).boxes,
      hone fun _ => ⟨rfl, ⟨box, hbox, hnamed.1⟩, fun id hidr => ?_, fun _ => ?_⟩⟩
    · obtain ⟨x, hx, hxr⟩ := t.kept.items.members item hitem
      rw [hnamed.2, Option.mem_some_iff] at hidr
      exact ⟨x, hx, hxr.trans (hresult.trans hidr)⟩
    · rw [hnamed.2]
      exact Option.some_ne_none _
  | invalidated box hbox hstate hnamed =>
    refine ⟨[], [c], ?_⟩
    rw [hrows]
    have hboxes := changeBox_boxes (f := (·.invalidatedByAdmin changedAt)) t.kept.boxes.ids hbox
      ⟨rfl, rfl, fun _ => ⟨rfl, rfl⟩⟩
    refine ⟨hrun, (List.append_nil _).symm, rfl, hnil, hone hrevision, hnil, List.nodup_nil,
      fun x hx => .inl hx, fun x hx => ⟨x, hx, rfl, rfl⟩, hboxes,
      hone fun _ => ⟨rfl, ?_, fun id hidr => ?_, fun hact => ?_⟩⟩
    · obtain ⟨b', hb', hbecomes⟩ := hboxes box hbox
      exact ⟨b', hb', hnamed.1.trans (congrArg some hbecomes.id.symm)⟩
    · rw [hnamed.2] at hidr
      cases hidr
    · rw [haction] at hact
      cases hact
  | reprinted box hbox hnamed =>
    refine ⟨[], [c], ?_⟩
    rw [hrows]
    refine ⟨hrun, (List.append_nil _).symm, rfl, hnil, hone hrevision, hnil, List.nodup_nil,
      fun x hx => .inl hx, fun x hx => ⟨x, hx, rfl, rfl⟩, (Rows.Beside.refl _).boxes,
      hone fun _ => ⟨rfl, ⟨box, hbox, hnamed.1⟩, fun id hidr => ?_, fun hact => ?_⟩⟩
    · rw [hnamed.2] at hidr
      cases hidr
    · rw [haction] at hact
      cases hact

theorem BatchAction.stream_none (a : BatchAction) : a.action.stream = none := by
  cases a <;> rfl

theorem correctBatch_advanced {changeId : Hash → Uuid} {changedAt : Stamp}
    {input : CorrectionBatchRequest} {batch : CorrectionBatch} {t t' : Tables}
    (h : correctBatch s.ids changeId changedAt input t = .ok (batch, t')) :
    ∃ rows cs, Advanced rows cs t.toRows t'.toRows := by
  obtain rfl | ⟨-, batchId, digest, events, targets, htargets, hrows⟩ := correctBatch_ok h
  · exact ⟨[], [], (Rows.Beside.refl _).advanced⟩
  obtain ⟨hnodup, hmem⟩ := batchTargets_ok htargets
  have hhash : ∀ g : TargetResult, ((input.action.after changedAt g.before).changeRow changeId
      (t.resultRevision + 1) changedAt).codeHash = g.before.codeHash :=
    fun g => input.action.after_codeHash changedAt g.before
  refine ⟨targets.map fun g => (input.action.after changedAt g.before).changeRow changeId
      (t.resultRevision + 1) changedAt,
    targets.map fun g => g.correction (s.ids.child batchId g.before.id) batchId
      input.action.action digest (t.resultRevision + 1) changedAt, ?_⟩
  rw [hrows]
  refine ⟨Nat.le_succ _, rfl, rfl, ?_, ?_, ?_, ?_, ?_, ?_, (Rows.Beside.refl _).boxes, ?_⟩
  · intro row hrow
    obtain ⟨g, -, rfl⟩ := List.mem_map.1 hrow
    exact ⟨Nat.lt_succ_self _, le_rfl⟩
  · intro k hk
    obtain ⟨g, -, rfl⟩ := List.mem_map.1 hk
    exact ⟨Nat.lt_succ_self _, le_rfl⟩
  · intro row hrow
    obtain ⟨g, hg, rfl⟩ := List.mem_map.1 hrow
    have hup := Table.mem_update_of_mem (p := fun x : CodeResult =>
      decide (x.id ∈ targets.map (·.before.id))) (f := input.action.after changedAt) (hmem g hg)
    rw [if_pos (decide_eq_true (List.mem_map_of_mem hg))] at hup
    exact ⟨_, hup, rfl, rfl, rfl, rfl, rfl, rfl⟩
  · rw [Table.Unique, List.map_map]
    refine List.Nodup.map_on ?_ (List.Nodup.of_map _ hnodup)
    intro g hg g' hg' heq
    have hcode : g.before.codeHash = g'.before.codeHash := by
      rw [← hhash g, ← hhash g']
      exact heq
    have hbefore := t.kept.scans.currentClaims.eq (hmem g hg) (hmem g' hg') hcode
    exact List.inj_on_of_nodup_map hnodup hg hg' (by rw [hbefore])
  · intro x hx
    obtain ⟨y, hy, rfl⟩ := Table.mem_update.1 hx
    split_ifs with hsel
    · obtain ⟨g, hg, hgy⟩ := List.mem_map.1 (of_decide_eq_true hsel)
      obtain rfl := t.kept.scans.resultIds.eq (hmem g hg) hy hgy
      exact .inr ⟨_, List.mem_map_of_mem hg, rfl⟩
    · exact .inl hy
  · intro x hx
    refine ⟨_, Table.mem_update_of_mem hx, ?_⟩
    split_ifs
    · exact ⟨input.action.after_id changedAt x, input.action.after_codeHash changedAt x⟩
    · exact ⟨rfl, rfl⟩
  · intro k hk hstream
    obtain ⟨g, -, rfl⟩ := List.mem_map.1 hk
    exact absurd input.action.stream_none hstream

theorem advanced_of_own {r r' : Rows} (h1 : r.resultRevision ≤ r'.resultRevision)
    (h2 : r'.codeResults = r.codeResults) (h3 : r'.progressChanges = r.progressChanges)
    (h4 : r'.corrections = r.corrections) (h5 : r'.boxes = r.boxes) : Advanced [] [] r r' :=
  have hnil {α : Type} {p : α → Prop} : ∀ x ∈ ([] : List α), p x :=
    fun _ hx => absurd hx List.not_mem_nil
  ⟨h1, by rw [h3, List.append_nil], by rw [h4, List.append_nil], hnil, hnil, hnil, List.nodup_nil,
    fun _ hx => .inl (h2 ▸ hx), fun x hx => ⟨x, h2 ▸ hx, rfl, rfl⟩,
    fun b hb => ⟨b, h5 ▸ hb, .refl b⟩, hnil⟩

/-- **What any call does to the feed.** -/
theorem Call.serve_advanced {c : Call s} {t t' : Tables} (h : c.serve t = .ok t') :
    ∃ rows cs, Advanced rows cs t.toRows t'.toRows := by
  cases Call.serve_does h with
  | ingest h1 | replay h1 =>
    obtain ⟨rows, hrows⟩ := ingestBatch_advanced h1
    exact ⟨rows, [], hrows⟩
  | correct h1 => exact correct_advanced h1
  | correctBatch h1 => exact correctBatch_advanced h1
  | other status revision participants ssccBlocks lateEvents hle hrows =>
    rw [hrows]
    exact ⟨[], [], advanced_of_own hle rfl rfl rfl rfl⟩

end

end Markiro.InventorySync
