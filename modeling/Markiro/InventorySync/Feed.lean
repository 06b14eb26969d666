import Markiro.Lib.Chunks
import Markiro.InventorySync.Answered
import Markiro.InventorySync.Claims
import Markiro.InventorySync.Progress
import Markiro.InventorySync.Runs

/-!
# What the transactions add to the feed

Every transaction of an inventory adds its changes under the next revision or adds none
(`Advanced`): a change of the feed says what its code's row says then, and no code whose row changed
is left out.
-/

namespace Markiro.InventorySync

open Results

/-! ## One transaction and the feed -/

/-- The change says what the code's row says. -/
structure ProgressChange.Reports (c : ProgressChange) (x : CodeResult) : Prop where
  codeHash : c.codeHash = x.codeHash
  classification : c.classification = x.classification
  observed : c.observedProductionDate = x.observedProductionDate
  event : c.winningEventId = x.firstAcceptedEventId
  device : c.winningDeviceId = x.winningDeviceId
  instant : c.winningScannedAt = x.winningScannedAt

structure Correction.Based (r : Rows) (c : Correction) : Prop where
  box : ∃ b ∈ r.boxes, c.targetRepackBoxId = some b.id
  result : ∀ id ∈ c.targetCodeResultId, ∃ x ∈ r.codeResults, x.id = id
  member : c.action = .removeItem → c.targetCodeResultId ≠ none

/-- What a transaction that writes the changes `rows` and the corrections `cs` leaves. -/
structure Advanced (rows : List ProgressChange) (cs : List Correction) (r r' : Rows) : Prop where
  revision : r.resultRevision ≤ r'.resultRevision
  changes : r'.progressChanges = r.progressChanges ++ rows
  corrections : r'.corrections = r.corrections ++ cs
  changeRevisions : ∀ c ∈ rows,
    r.resultRevision < c.resultRevision ∧ c.resultRevision ≤ r'.resultRevision
  correctionRevisions : ∀ c ∈ cs,
    r.resultRevision < c.resultRevision ∧ c.resultRevision ≤ r'.resultRevision
  reports : ∀ c ∈ rows, ∃ x ∈ r'.codeResults, c.Reports x
  distinct : Table.Unique (·.codeHash) rows
  results : ∀ x ∈ r'.codeResults, x ∈ r.codeResults ∨ ∃ c ∈ rows, c.codeHash = x.codeHash
  named : ∀ x ∈ r.codeResults, ∃ x' ∈ r'.codeResults, x'.id = x.id ∧ x'.codeHash = x.codeHash
  boxes : ∀ b ∈ r.boxes, ∃ b' ∈ r'.boxes, b.Becomes b'
  based : ∀ c ∈ cs, c.action.stream ≠ none → rows = [] ∧ c.Based r'

theorem Rows.Beside.advanced {r r' : Rows} (h : r.Beside r') : Advanced [] [] r r' where
  revision := h.resultRevision.ge
  changes := by rw [h.progressChanges, List.append_nil]
  corrections := by rw [h.corrections, List.append_nil]
  changeRevisions := fun _ hc => absurd hc List.not_mem_nil
  correctionRevisions := fun _ hc => absurd hc List.not_mem_nil
  reports := fun _ hc => absurd hc List.not_mem_nil
  distinct := List.nodup_nil
  results := fun x hx => .inl (h.codeResults ▸ hx)
  named := fun x hx => ⟨x, h.codeResults ▸ hx, rfl, rfl⟩
  boxes := h.boxes
  based := fun _ hc => absurd hc List.not_mem_nil

theorem Advanced.beside {rows : List ProgressChange} {cs : List Correction} {r r' r'' : Rows}
    (h : Advanced rows cs r r') (h' : r'.Beside r'') : Advanced rows cs r r'' where
  revision := h.revision.trans h'.resultRevision.ge
  changes := h'.progressChanges.trans h.changes
  corrections := h'.corrections.trans h.corrections
  changeRevisions := fun c hc => h'.resultRevision ▸ h.changeRevisions c hc
  correctionRevisions := fun c hc => h'.resultRevision ▸ h.correctionRevisions c hc
  reports := fun c hc => h'.codeResults ▸ h.reports c hc
  distinct := h.distinct
  results := fun x hx => h.results x (h'.codeResults ▸ hx)
  named := fun x hx => h'.codeResults ▸ h.named x hx
  boxes := boxes_trans h.boxes h'.boxes
  based := fun c hc hs => by
    obtain ⟨hrows, ⟨b, hb, hbox⟩, hresult, hmember⟩ := h.based c hc hs
    obtain ⟨b', hb', h1⟩ := h'.boxes b hb
    exact ⟨hrows, ⟨b', hb', hbox.trans (congrArg some h1.id.symm)⟩, h'.codeResults ▸ hresult, hmember⟩

theorem Rows.Beside.andAdvanced {rows : List ProgressChange} {cs : List Correction}
    {r r' r'' : Rows}
    (h : r.Beside r') (h' : Advanced rows cs r' r'') : Advanced rows cs r r'' where
  revision := h.resultRevision ▸ h'.revision
  changes := h.progressChanges ▸ h'.changes
  corrections := h.corrections ▸ h'.corrections
  changeRevisions := h.resultRevision ▸ h'.changeRevisions
  correctionRevisions := h.resultRevision ▸ h'.correctionRevisions
  reports := h'.reports
  distinct := h'.distinct
  results := h.codeResults ▸ h'.results
  named := h.codeResults ▸ h'.named
  boxes := boxes_trans h.boxes h'.boxes
  based := h'.based

section

variable {task : Task} {env : Env} {D : Uuid} {b : EventBatch} {t t' : Tables} {a : BatchResponse}

/-! ## The events of a batch take effect -/

theorem recordBatch_beside {xs : List Expanded} (h : recordBatch D b xs t = .ok t') :
    t.toRows.Beside t'.toRows := by
  unfold recordBatch at h
  obtain ⟨t1, h1, h⟩ := bind_eq_ok.1 h
  obtain ⟨rows, -, h⟩ := bind_eq_ok.1 h
  rw [Tables.change_ok.1 h, Tables.change_ok.1 h1]
  exact beside_of_boxes rfl rfl rfl rfl rfl rfl rfl

theorem applyRepackMutations_beside {xs : List (Expanded × EventOutcome)}
    (h : applyRepackMutations task env D t xs = .ok t') : t.toRows.Beside t'.toRows := by
  induction xs generalizing t with
  | nil =>
    obtain rfl := Except.ok.inj h
    exact .refl _
  | cons x xs ih =>
    obtain ⟨x, o⟩ := x
    rw [applyRepackMutations] at h
    obtain ⟨t1, h1, h⟩ := bind_eq_ok.1 h
    refine Rows.Beside.trans ?_ (ih h)
    split_ifs at h1
    · obtain rfl := Except.ok.inj h1
      exact .refl _
    · exact (applyRepackMutation_ok h1).beside t.kept.boxes.ids

theorem reviseVerdicts_recorded {ids : List Uuid} (h : ids.foldlM reviseVerdict t = .ok t') :
    t.toRows.Recorded t'.toRows :=
  foldlM_inv (P := fun u : Tables => t.toRows.Recorded u.toRows)
    (fun _ _ _ _ hu h1 => hu.trans (change_recorded h1 (setVerdict_recorded _ _))) (.refl _) h

theorem Stamp.ext_ms {s u : Stamp} (h : s.ms = u.ms) : s = u := by
  cases s
  cases u
  cases h
  rfl

theorem publish_ok {changed : List ChangedCode} (h : publish env D changed t = .ok t')
    (hchanged : changed ≠ []) : ∃ rows, t'.toRows =
      { t.toRows with
        resultRevision := t.resultRevision + 1
        progressChanges := t.progressChanges ++ rows } ∧
      List.Forall₂ (fun c row => ChangedCode.row env D (t.resultRevision + 1) c = .ok row)
        changed rows := by
  unfold publish at h
  rw [if_neg hchanged] at h
  obtain ⟨t1, h1, h⟩ := bind_eq_ok.1 h
  obtain ⟨rows, hrows, h⟩ := bind_eq_ok.1 h
  have e1 := Tables.change_ok.1 h1
  have e2 := Tables.change_ok.1 h
  have hrev : t1.resultRevision = t.resultRevision + 1 := by rw [e1]
  refine ⟨rows, by rw [e2, e1], ?_⟩
  rw [← hrev]
  exact mapM_eq_ok.1 hrows

theorem ChangedCode.row_ok {revision : ℕ} {c : ChangedCode} {row : ProgressChange}
    (h : c.row env D revision = .ok row) : row.resultRevision = revision ∧
      row.codeHash = c.target.codeHash ∧
      ∀ x : CodeResult, c.Shown D x → row.Reports x := by
  unfold ChangedCode.row at h
  obtain ⟨scannedAt, hcol, h⟩ := bind_eq_ok.1 h
  obtain rfl := pure_eq_ok.1 h
  refine ⟨rfl, rfl, fun x hx => ⟨hx.codeHash.symm, hx.classification.symm, hx.observed.symm,
    hx.event.symm, hx.device.symm, Stamp.ext_ms ?_⟩⟩
  rw [hx.instant]
  exact column_ok hcol

/-- The changed codes of a batch are published. -/
theorem Claimed.advanced {r r' r'' : Rows} {s : Claiming} (hs : Claimed D r s)
    (hbeside : s.tables.toRows.Beside r') (rows : List ProgressChange)
    (hrows : List.Forall₂ (fun c row => ChangedCode.row env D (r'.resultRevision + 1) c = .ok row)
      s.changed rows)
    (h : r'' = { r' with
      resultRevision := r'.resultRevision + 1, progressChanges := r'.progressChanges ++ rows }) :
    Advanced rows [] r r'' := by
  have hb := hs.beside.trans hbeside
  have hrev : r'.resultRevision = r.resultRevision := hb.resultRevision
  have hresults : r'.codeResults = s.tables.codeResults := hb.codeResults
  have hof : ∀ row ∈ rows, ∃ c ∈ s.changed,
      ChangedCode.row env D (r'.resultRevision + 1) c = .ok row := by
    intro row hrow
    obtain ⟨i, hi, rfl⟩ := List.getElem_of_mem hrow
    have hlen := hrows.length_eq
    exact ⟨s.changed.get ⟨i, by omega⟩, List.getElem_mem _, hrows.get (by omega) hi⟩
  have hto : ∀ c ∈ s.changed, ∃ row ∈ rows,
      ChangedCode.row env D (r'.resultRevision + 1) c = .ok row := by
    intro c hc
    obtain ⟨i, hi, rfl⟩ := List.getElem_of_mem hc
    have hlen := hrows.length_eq
    exact ⟨rows.get ⟨i, by omega⟩, List.getElem_mem _, hrows.get hi (by omega)⟩
  have hhashes : rows.map (·.codeHash) = s.changed.map (·.target.codeHash) := by
    symm
    rw [← List.forall₂_eq_eq_eq, List.forall₂_map_left_iff, List.forall₂_map_right_iff]
    exact hrows.imp fun c row hrow => ((ChangedCode.row_ok hrow).2.1).symm
  subst h
  refine ⟨?_, ?_, ?_, ?_, fun _ hc => absurd hc List.not_mem_nil, ?_, ?_, ?_, ?_, hb.boxes,
    fun _ hc => absurd hc List.not_mem_nil⟩
  · exact (hrev ▸ Nat.le_succ _ : r.resultRevision ≤ r'.resultRevision + 1)
  · exact congrArg (· ++ rows) hb.progressChanges
  · rw [List.append_nil]
    exact hb.corrections
  · intro row hrow
    obtain ⟨c, -, hc⟩ := hof row hrow
    have h1 := (ChangedCode.row_ok hc).1
    exact ⟨by omega, h1.le⟩
  · intro row hrow
    obtain ⟨c, hc, hcrow⟩ := hof row hrow
    obtain ⟨x, hx, hcx⟩ := hs.shown c hc
    exact ⟨x, (hresults ▸ hx : x ∈ r'.codeResults), (ChangedCode.row_ok hcrow).2.2 x hcx⟩
  · rw [Table.Unique, hhashes]
    exact hs.distinct
  · intro x hx
    have hx' : x ∈ s.tables.codeResults := hresults ▸ hx
    refine (hs.kept x hx').imp_right ?_
    rintro ⟨c, hc, hcx⟩
    obtain ⟨row, hrow, hcrow⟩ := hto c hc
    exact ⟨row, hrow, ((ChangedCode.row_ok hcrow).2.1).trans hcx⟩
  · intro x hx
    obtain ⟨x', hx', hid⟩ := hs.named x hx
    exact ⟨x', (hresults ▸ hx' : x' ∈ r'.codeResults), hid⟩

theorem Claimed.unchanged {r r' : Rows} {s : Claiming} (hs : Claimed D r s)
    (hbeside : s.tables.toRows.Beside r') (hnone : s.changed = []) : Advanced [] [] r r' := by
  have hb := hs.beside.trans hbeside
  have hresults : r'.codeResults = s.tables.codeResults := hb.codeResults
  have hnil {α : Type} {p : α → Prop} : ∀ x ∈ ([] : List α), p x :=
    fun _ hx => absurd hx List.not_mem_nil
  refine ⟨hb.resultRevision.ge, ?_, ?_, hnil, hnil, hnil, List.nodup_nil, ?_, ?_, hb.boxes, hnil⟩
  · rw [List.append_nil]
    exact hb.progressChanges
  · rw [List.append_nil]
    exact hb.corrections
  · intro x hx
    refine (hs.kept x (hresults ▸ hx)).imp_right ?_
    rintro ⟨c, hc, -⟩
    rw [hnone] at hc
    cases hc
  · intro x hx
    obtain ⟨x', hx', hid⟩ := hs.named x hx
    exact ⟨x', (hresults ▸ hx' : x' ∈ r'.codeResults), hid⟩

theorem applyBatch_advanced {xs : List Expanded} (h : applyBatch task env D b xs t = .ok (a, t')) :
    ∃ rows, Advanced rows [] t.toRows t'.toRows := by
  unfold applyBatch at h
  obtain ⟨t1, h1, h⟩ := bind_eq_ok.1 h
  obtain ⟨s, hs, h⟩ := bind_eq_ok.1 h
  obtain ⟨⟨os, t2⟩, h2, h⟩ := bind_eq_ok.1 h
  obtain ⟨t3, h3, h⟩ := bind_eq_ok.1 h
  obtain ⟨t4, h4, h⟩ := bind_eq_ok.1 h
  obtain ⟨t5, h5, h⟩ := bind_eq_ok.1 h
  obtain ⟨t6, h6, h⟩ := bind_eq_ok.1 h
  obtain ⟨-, rfl⟩ := pair_eq_ok.1 h
  have hclaimed := claimAll_claimed hs
  have hbeside : s.tables.toRows.Beside t4.toRows :=
    ((outcomesOf_ok h2).2.beside.trans (applyRepackMutations_beside h3)).trans
      (reviseVerdicts_recorded h4).beside
  have hlast := (change_recorded h6 (setBatchResult_recorded _ _ _)).beside
  by_cases hnone : s.changed = []
  · have e5 : t5 = t4 := by
      rw [publish, if_pos hnone] at h5
      exact (Except.ok.inj h5).symm
    subst e5
    exact ⟨[], (recordBatch_beside h1).andAdvanced
      ((hclaimed.unchanged hbeside hnone).beside hlast)⟩
  · obtain ⟨rows, hrows, hall⟩ := publish_ok h5 hnone
    exact ⟨rows, (recordBatch_beside h1).andAdvanced
      ((hclaimed.advanced hbeside rows hall hrows).beside hlast)⟩

theorem ingestBatch_advanced {d : Digests} {request : Option Uuid}
    (h : ingestBatch d task env D b request t = .ok (a, t')) :
    ∃ rows, Advanced rows [] t.toRows t'.toRows := by
  obtain ⟨-, hserved⟩ := ingestBatch_ok h
  cases hserved with
  | stored same hsame hdigest hanswer =>
    exact ⟨[], (normalizeStoredResponse_recorded hanswer).beside.advanced⟩
  | other request t1 hfrom hanswered =>
    obtain ⟨rows, hrows⟩ : ∃ rows, Advanced rows [] t1.toRows t'.toRows := by
      cases hanswered with
      | repeated same hsame hanswer =>
        exact ⟨[], (answerSameDigest_recorded hanswer).beside.advanced⟩
      | quarantined hnew hclosed xs hxs hanswer =>
        exact ⟨[], (quarantine_recorded hanswer).beside.advanced⟩
      | applied hnew hadmitted xs hxs t2 hanswer hlast =>
        obtain ⟨rows, hrows⟩ := applyBatch_advanced hanswer
        exact ⟨rows, hrows.beside (late_recorded hlast).beside⟩
    exact ⟨rows, hfrom.recorded.beside.andAdvanced hrows⟩

end

end Markiro.InventorySync
