import Markiro.InventorySync.CorrectionEffects

/-!
# Who has won a code

1. the claims of a batch leave every code to the earliest of them and of the winner before
   (`claimAll_led`);
2. every winner is an event of the ledger, under the device that sent it (`Call.serve_known`).
-/

namespace Markiro.InventorySync

open Results

/-! ## The order of winners -/

/-- The instant, then the device, then the event. -/
abbrev Rank := ℤ ×ₗ ℕ ×ₗ ℕ

def ClaimWinner.rank (w : ClaimWinner) : Rank :=
  toLex (w.scannedAt.ms, toLex (w.deviceId, w.eventId))

def CodeResult.rank (r : CodeResult) : Rank :=
  toLex (r.winningScannedAt.ms, toLex (r.winningDeviceId, r.firstAcceptedEventId))

def Event.rank (D : Uuid) (e : Event) : Rank := toLex (e.scannedAt.ms, toLex (D, e.eventId))

theorem winnerPrecedes_iff {v w : ClaimWinner} : winnerPrecedes v w = true ↔ v.rank < w.rank := by
  unfold winnerPrecedes ClaimWinner.rank
  rw [Prod.Lex.toLex_lt_toLex, Prod.Lex.toLex_lt_toLex]
  simp only [Bool.or_eq_true, Bool.and_eq_true, decide_eq_true_eq, beq_iff_eq]

theorem CodeResult.asWinner_rank (r : CodeResult) : r.asWinner.rank = r.rank := by
  unfold asWinner ClaimWinner.rank rank
  rw [Stamp.toISOString_ms]

theorem Event.precedes_iff {h : Hash} {D : Uuid} {e : Event} {r : CodeResult} :
    winnerPrecedes ⟨h, e.eventId, D, e.scannedAt⟩ r.asWinner = true ↔ e.rank D < r.rank := by
  rw [winnerPrecedes_iff, r.asWinner_rank]
  rfl

/-! ## The claims of a batch -/

/-- The claims of the events, in their order. -/
def claimsOf (xs : List Expanded) : List ChangedCode :=
  xs.flatMap fun x => x.claims.map fun g => ⟨g, x.event⟩

theorem mem_claimsOf {xs : List Expanded} {c : ChangedCode} :
    c ∈ claimsOf xs ↔ ∃ x ∈ xs, c.winner = x.event ∧ c.target ∈ x.claims := by
  unfold claimsOf
  rw [List.mem_flatMap]
  constructor
  · rintro ⟨x, hx, hc⟩
    obtain ⟨g, hg, rfl⟩ := List.mem_map.1 hc
    exact ⟨x, hx, rfl, hg⟩
  · rintro ⟨x, hx, hw, hc⟩
    exact ⟨x, hx, List.mem_map.2 ⟨c.target, hc, by rw [← hw]⟩⟩

/-- The rows of the codes after the claims `cs` on the rows `before`. -/
structure Led (D : Uuid) (before : List CodeResult) (cs : List ChangedCode)
    (after : List CodeResult) : Prop where
  kept : ∀ z ∈ before, ∃ y ∈ after, y.codeHash = z.codeHash
  present : ∀ c ∈ cs, ∃ y ∈ after, y.codeHash = c.target.codeHash
  earlier : ∀ y ∈ after, ∀ z ∈ before, z.codeHash = y.codeHash → y.rank ≤ z.rank
  least : ∀ y ∈ after, ∀ c ∈ cs, c.target.codeHash = y.codeHash → y.rank ≤ c.winner.rank D
  source : ∀ y ∈ after, y ∈ before ∨ ∃ c ∈ cs, c.Shown D y

theorem Led.start {D : Uuid} {before : List CodeResult} (h : Table.Unique (·.codeHash) before) :
    Led D before [] before where
  kept := fun z hz => ⟨z, hz, rfl⟩
  present := fun _ hc => absurd hc List.not_mem_nil
  earlier := fun _ hy _ hz hh => (h.eq hz hy hh) ▸ le_rfl
  least := fun _ _ _ hc => absurd hc List.not_mem_nil
  source := fun _ hy => .inl hy

section

variable {task : Task} {env : Env} {D : Uuid} {e : Event} {g : ClaimTarget} {s s' : Claiming}
  {before : List CodeResult} {cs : List ChangedCode}

theorem ChangedCode.Shown.rank {c : ChangedCode} {y : CodeResult} (h : c.Shown D y) :
    y.rank = c.winner.rank D := by
  unfold CodeResult.rank Event.rank
  rw [h.instant, h.device, h.event]

/-- **One more claim leaves its code to the earlier of its event and the winner before.** -/
theorem Led.step (h : Led D before cs s.tables.codeResults)
    (hstep : ClaimStep task env D e g s s') :
    Led D before (cs ++ [⟨g, e⟩]) s'.tables.codeResults := by
  have hunique := s.tables.kept.scans.currentClaims
  cases hstep with
  | fresh scannedAt t hms hnew hrows =>
    have hresults : t.codeResults = s.tables.codeResults ++ [g.newResult env D e scannedAt] := by
      rw [hrows]
    have hshown : ChangedCode.Shown D ⟨g, e⟩ (g.newResult env D e scannedAt) :=
      ⟨rfl, rfl, rfl, rfl, rfl, hms⟩
    show Led D before (cs ++ [⟨g, e⟩]) t.codeResults
    rw [hresults]
    constructor
    · intro z hz
      obtain ⟨y, hy, hh⟩ := h.kept z hz
      exact ⟨y, List.mem_append_left _ hy, hh⟩
    · intro c hc
      rcases List.mem_append.1 hc with hc | hc
      · obtain ⟨y, hy, hh⟩ := h.present c hc
        exact ⟨y, List.mem_append_left _ hy, hh⟩
      · rw [List.mem_singleton.1 hc]
        exact ⟨_, List.mem_append_right _ List.mem_cons_self, rfl⟩
    · intro y hy z hz hh
      rcases List.mem_append.1 hy with hy | hy
      · exact h.earlier y hy z hz hh
      · obtain ⟨y', hy', hh'⟩ := h.kept z hz
        rw [List.mem_singleton.1 hy] at hh
        exact absurd (hh'.trans hh) (hnew y' hy')
    · intro y hy c hc hh
      rcases List.mem_append.1 hy with hy | hy
      · rcases List.mem_append.1 hc with hc | hc
        · exact h.least y hy c hc hh
        · rw [List.mem_singleton.1 hc] at hh
          exact absurd hh.symm (hnew y hy)
      · rw [List.mem_singleton.1 hy] at hh ⊢
        rcases List.mem_append.1 hc with hc | hc
        · obtain ⟨y', hy', hh'⟩ := h.present c hc
          exact absurd (hh'.trans hh) (hnew y' hy')
        · rw [List.mem_singleton.1 hc]
          exact hshown.rank.le
    · intro y hy
      rcases List.mem_append.1 hy with hy | hy
      · refine (h.source y hy).imp_right ?_
        rintro ⟨c, hc, hcy⟩
        exact ⟨c, List.mem_append_left _ hc, hcy⟩
      · rw [List.mem_singleton.1 hy]
        exact .inr ⟨⟨g, e⟩, List.mem_append_right _ (List.mem_singleton_self _), hshown⟩
  | displaced current scannedAt t hcurrent hhash hfirst hms hrows =>
    have hresults : t.codeResults = Table.update (·.codeHash = g.codeHash)
        (·.wonBy g env D e scannedAt) s.tables.codeResults := by
      rw [hrows]
      rfl
    have hlt : e.rank D < current.rank := Event.precedes_iff.1 hfirst
    -- what became of a row: the winner's is taken over, the others stay
    have hrow : ∀ y ∈ t.codeResults, (ChangedCode.Shown D ⟨g, e⟩ y) ∨
        y ∈ s.tables.codeResults ∧ y.codeHash ≠ g.codeHash := by
      intro y hy
      rw [hresults] at hy
      obtain ⟨z, hz, rfl⟩ := Table.mem_update.1 hy
      split_ifs with hzg
      · exact .inl ⟨of_decide_eq_true hzg, rfl, rfl, rfl, rfl, hms⟩
      · exact .inr ⟨hz, fun hh => hzg (decide_eq_true hh)⟩
    have hthere : ∀ y ∈ s.tables.codeResults, ∃ y' ∈ t.codeResults, y'.codeHash = y.codeHash := by
      intro y hy
      rw [hresults]
      refine ⟨_, Table.mem_update_of_mem hy, ?_⟩
      split_ifs <;> rfl
    show Led D before (cs ++ [⟨g, e⟩]) t.codeResults
    constructor
    · intro z hz
      obtain ⟨y, hy, hh⟩ := h.kept z hz
      obtain ⟨y', hy', hh'⟩ := hthere y hy
      exact ⟨y', hy', hh'.trans hh⟩
    · intro c hc
      rcases List.mem_append.1 hc with hc | hc
      · obtain ⟨y, hy, hh⟩ := h.present c hc
        obtain ⟨y', hy', hh'⟩ := hthere y hy
        exact ⟨y', hy', hh'.trans hh⟩
      · obtain ⟨y', hy', hh'⟩ := hthere current hcurrent
        rw [List.mem_singleton.1 hc]
        exact ⟨y', hy', hh'.trans hhash⟩
    · intro y hy z hz hh
      rcases hrow y hy with hshown | ⟨hy', -⟩
      · rw [hshown.rank]
        refine hlt.le.trans (h.earlier current hcurrent z hz ?_)
        rw [hh, hshown.codeHash, hhash]
      · exact h.earlier y hy' z hz hh
    · intro y hy c hc hh
      rcases hrow y hy with hshown | ⟨hy', hne⟩
      · rw [hshown.rank]
        rcases List.mem_append.1 hc with hc | hc
        · refine hlt.le.trans (h.least current hcurrent c hc ?_)
          rw [hh, hshown.codeHash, hhash]
        · rw [List.mem_singleton.1 hc]
      · rcases List.mem_append.1 hc with hc | hc
        · exact h.least y hy' c hc hh
        · rw [List.mem_singleton.1 hc] at hh
          exact absurd hh.symm hne
    · intro y hy
      rcases hrow y hy with hshown | ⟨hy', -⟩
      · exact .inr ⟨⟨g, e⟩, List.mem_append_right _ (List.mem_singleton_self _), hshown⟩
      · refine (h.source y hy').imp_right ?_
        rintro ⟨c, hc, hcy⟩
        exact ⟨c, List.mem_append_left _ hc, hcy⟩
  | kept current hcurrent hhash hfirst =>
    have hle : current.rank ≤ e.rank D := by
      rw [← not_lt, ← Event.precedes_iff, hfirst]
      exact Bool.false_ne_true
    constructor
    · exact h.kept
    · intro c hc
      rcases List.mem_append.1 hc with hc | hc
      · exact h.present c hc
      · rw [List.mem_singleton.1 hc]
        exact ⟨current, hcurrent, hhash⟩
    · exact h.earlier
    · intro y hy c hc hh
      rcases List.mem_append.1 hc with hc | hc
      · exact h.least y hy c hc hh
      · rw [List.mem_singleton.1 hc] at hh ⊢
        rw [hunique.eq hy hcurrent (hh.symm.trans hhash.symm)]
        exact hle
    · intro y hy
      refine (h.source y hy).imp_right ?_
      rintro ⟨c, hc, hcy⟩
      exact ⟨c, List.mem_append_left _ hc, hcy⟩

theorem claimAll_eq (s : Claiming) (xs : List Expanded) : claimAll task env D s xs =
    (claimsOf xs).foldlM (fun s c => claim task env D c.winner s c.target) s := by
  unfold claimAll claimsOf
  induction xs generalizing s with
  | nil => rfl
  | cons x xs ih =>
    rw [List.foldlM_cons, List.flatMap_cons, List.foldlM_append, List.foldlM_map]
    exact bind_congr fun s => ih s

/-- **Every code is left to the earliest.** -/
theorem claimAll_led {t : Tables} {xs : List Expanded}
    (h : claimAll task env D ⟨t, [], []⟩ xs = .ok s') :
    Led D t.codeResults (claimsOf xs) s'.tables.codeResults := by
  rw [claimAll_eq] at h
  have key : ∀ (cs ds : List ChangedCode) (s : Claiming), Led D t.codeResults ds
      s.tables.codeResults →
      cs.foldlM (fun s c => claim task env D c.winner s c.target) s = .ok s' →
      Led D t.codeResults (ds ++ cs) s'.tables.codeResults := by
    intro cs
    induction cs with
    | nil =>
      intro ds s hs h
      obtain rfl := Except.ok.inj h
      rw [List.append_nil]
      exact hs
    | cons c cs ih =>
      intro ds s hs h
      rw [List.foldlM_cons] at h
      obtain ⟨s1, h1, h⟩ := bind_eq_ok.1 h
      have := ih (ds ++ [c]) s1 (hs.step (claim_ok h1)) h
      rwa [List.append_assoc] at this
  exact key (claimsOf xs) [] ⟨t, [], []⟩ (.start t.kept.scans.currentClaims) h

end

/-! ## The steps of a batch -/

/-- What is known of the expanded events of a batch. -/
structure Expanded.Sound (d : Digests) (task : Task) (x : Expanded) : Prop where
  accepted : x.event.Accepted
  targets : x.targets = validateAndExpand d task x.event

theorem expandAll_ok {d : Digests} {task : Task} {n : ℕ} {events : List Event} {xs : List Expanded}
    (h : expandAll d task n events = .ok xs) :
    xs.map (·.event) = events ∧ ∀ x ∈ xs, x.targets = validateAndExpand d task x.event := by
  induction events generalizing n xs with
  | nil =>
    obtain rfl := Except.ok.inj h
    exact ⟨rfl, fun _ hx => absurd hx List.not_mem_nil⟩
  | cons e events ih =>
    rw [expandAll] at h
    obtain ⟨_, -, h⟩ := bind_eq_ok.1 h
    obtain ⟨_, -, h⟩ := bind_eq_ok.1 h
    obtain ⟨rest, hrest, h⟩ := bind_eq_ok.1 h
    obtain rfl := pure_eq_ok.1 h
    obtain ⟨h1, h2⟩ := ih hrest
    refine ⟨by rw [List.map_cons, h1], fun x hx => ?_⟩
    rcases List.mem_cons.1 hx with rfl | hx
    · rfl
    · exact h2 x hx

section

variable {d : Digests} {task : Task} {env : Env} {D : Uuid} {b : EventBatch} {t t' : Tables}
  {a : BatchResponse} {xs : List Expanded}

def batchRow (D : Uuid) (b : EventBatch) (xs : List Expanded) : ScanBatch :=
  ⟨D, b.batchId, b.payloadDigest, b.sequenceCeiling,
    if xs.all (·.rejected) then .rejected else .applied, none⟩

/-- The row of an event says what was sent of it. -/
structure ScanEvent.Of (D : Uuid) (x : Expanded) (row : ScanEvent) : Prop where
  eventId : row.eventId = x.event.eventId
  deviceId : row.deviceId = D
  deviceSequence : row.deviceSequence = x.event.deviceSequence
  scannedAt : row.scannedAt.ms = x.event.scannedAt.ms

theorem recordBatch_ok (h : recordBatch D b xs t = .ok t') : ∃ rows,
    t'.toRows = { t.toRows with
      scanBatches := t.scanBatches ++ [batchRow D b xs], scanEvents := t.scanEvents ++ rows } ∧
      List.Forall₂ (fun x row => ScanEvent.Of D x row) xs rows := by
  unfold recordBatch at h
  obtain ⟨t1, h1, h⟩ := bind_eq_ok.1 h
  obtain ⟨rows, hrows, h⟩ := bind_eq_ok.1 h
  refine ⟨rows, ?_, ?_⟩
  · rw [Tables.change_ok.1 h, Tables.change_ok.1 h1]
    rfl
  · refine (mapM_eq_ok.1 hrows).imp fun x row hrow => ?_
    obtain ⟨scannedAt, hcol, hrow⟩ := bind_eq_ok.1 hrow
    obtain rfl := pure_eq_ok.1 hrow
    exact ⟨rfl, rfl, rfl, column_ok hcol⟩

theorem applyRepackMutations_ledger {ps : List (Expanded × EventOutcome)}
    (h : applyRepackMutations task env D t ps = .ok t') :
    t'.scanEvents = t.scanEvents ∧ t'.scanBatches = t.scanBatches := by
  induction ps generalizing t with
  | nil =>
    obtain rfl := Except.ok.inj h
    exact ⟨rfl, rfl⟩
  | cons p ps ih =>
    obtain ⟨x, o⟩ := p
    rw [applyRepackMutations] at h
    obtain ⟨t1, h1, h⟩ := bind_eq_ok.1 h
    rw [(ih h).1, (ih h).2]
    split_ifs at h1
    · obtain rfl := Except.ok.inj h1
      exact ⟨rfl, rfl⟩
    · have hacted := applyRepackMutation_ok h1
      generalize hr : t1.toRows = r at hacted
      cases hacted with
      | added box r' hadds hbox howner hstate hadded =>
        cases hadded with
        | lost => exact ⟨rfl, rfl⟩
        | member => unfold inserted; split_ifs <;> exact ⟨rfl, rfl⟩
      | _ => exact ⟨rfl, rfl⟩

theorem claimAll_batches {s s' : Claiming} (h : claimAll task env D s xs = .ok s') :
    s'.tables.scanBatches = s.tables.scanBatches := by
  refine claimAll_inv (P := fun u => u.tables.scanBatches = s.tables.scanBatches)
    (fun x _ g _ u u' hu hstep => ?_) rfl h
  refine Eq.trans ?_ hu
  cases hstep with
  | fresh scannedAt t hms hnew hrows =>
    show t.scanBatches = u.tables.scanBatches
    rw [hrows]
  | displaced current scannedAt t hcurrent hhash hfirst hms hrows =>
    show t.scanBatches = u.tables.scanBatches
    rw [hrows, displacedRows]
    split_ifs <;> rfl
  | kept => rfl

theorem outcomesOf_batches {os : List EventOutcome} (h : outcomesOf t xs = .ok (os, t')) :
    t'.scanBatches = t.scanBatches := by
  induction xs generalizing t os with
  | nil =>
    obtain ⟨-, rfl⟩ := pair_eq_ok.1 h
    rfl
  | cons x xs ih =>
    rw [outcomesOf] at h
    obtain ⟨⟨o, t1⟩, h1, h⟩ := bind_eq_ok.1 h
    obtain ⟨⟨os1, t2⟩, h2, h⟩ := bind_eq_ok.1 h
    obtain ⟨-, rfl⟩ := pair_eq_ok.1 h
    rw [ih h2]
    unfold outcomeOf at h1
    split_ifs at h1
    · obtain ⟨-, rfl⟩ := pair_eq_ok.1 h1
      rfl
    · obtain ⟨winners, -, h1⟩ := bind_eq_ok.1 h1
      obtain ⟨t3, h3, h1⟩ := bind_eq_ok.1 h1
      obtain ⟨t4, h4, h1⟩ := bind_eq_ok.1 h1
      obtain ⟨-, rfl⟩ := pair_eq_ok.1 h1
      rw [Tables.change_ok.1 h4]
      show t3.scanBatches = t.scanBatches
      split_ifs at h3
      · obtain rfl := Except.ok.inj h3
        rfl
      · rw [Tables.change_ok.1 h3]

theorem reviseVerdicts_batches {ids : List Uuid} (h : ids.foldlM reviseVerdict t = .ok t') :
    t'.scanBatches = t.scanBatches :=
  foldlM_inv (P := fun u : Tables => u.scanBatches = t.scanBatches)
    (fun _ _ _ _ hu h1 => by rw [Tables.change_ok.1 h1]; exact hu) rfl h

/-! ## The winners and the ledger -/

/-- Every winner is an event of the ledger, under the device that sent it. -/
def Rows.Known (r : Rows) : Prop :=
  ∀ y ∈ r.codeResults, ∃ e ∈ r.scanEvents.map (·.sent),
    e.eventId = y.firstAcceptedEventId ∧ e.deviceId = y.winningDeviceId

theorem Rows.Known.recorded {r r' : Rows} (h : r.Known) (hr : r.Recorded r') : r'.Known := by
  unfold Rows.Known
  rw [hr.events, hr.codeResults]
  exact h

theorem Rows.Known.congr {r r' : Rows} (h : r.Known) (h1 : r'.codeResults = r.codeResults)
    (h2 : r'.scanEvents = r.scanEvents) : r'.Known := by
  unfold Rows.Known
  rw [h1, h2]
  exact h

theorem Rows.Known.fresh {r : Rows} (h : r.Known) {y : CodeResult} (hy : y ∈ r.codeResults)
    (hnew : y.firstAcceptedEventId ∉ r.scanEvents.map (·.eventId)) : False := by
  obtain ⟨e, he, hid, -⟩ := h y hy
  obtain ⟨row, hrow, rfl⟩ := List.mem_map.1 he
  exact hnew (List.mem_map.2 ⟨row, hrow, hid⟩)

theorem publish_rows {changed : List ChangedCode} (h : publish env D changed t = .ok t') :
    t'.toRows = { t.toRows with
      resultRevision := t.resultRevision + if changed = [] then 0 else 1
      progressChanges := t'.progressChanges } := by
  by_cases hnone : changed = []
  · rw [publish, if_pos hnone] at h
    obtain rfl := Except.ok.inj h
    rw [if_pos hnone]
    rfl
  · obtain ⟨rows, hrows, -⟩ := publish_ok h hnone
    rw [hrows, if_neg hnone]

theorem publish_kept {changed : List ChangedCode} (h : publish env D changed t = .ok t') :
    t'.codeResults = t.codeResults ∧ t'.scanEvents = t.scanEvents ∧
      t'.scanBatches = t.scanBatches := by
  rw [publish_rows h]
  exact ⟨rfl, rfl, rfl⟩

/-- A batch that is applied is stored with its answer. -/
theorem applyBatch_batches {xs : List Expanded} (h : applyBatch task env D b xs t = .ok (a, t')) :
    t'.scanBatches = t.scanBatches ++ [{ batchRow D b xs with result := some a }] := by
  unfold applyBatch at h
  obtain ⟨t1, h1, h⟩ := bind_eq_ok.1 h
  obtain ⟨s, hs, h⟩ := bind_eq_ok.1 h
  obtain ⟨⟨os, t2⟩, h2, h⟩ := bind_eq_ok.1 h
  obtain ⟨t3, h3, h⟩ := bind_eq_ok.1 h
  obtain ⟨t4, h4, h⟩ := bind_eq_ok.1 h
  obtain ⟨t5, h5, h⟩ := bind_eq_ok.1 h
  obtain ⟨t6, h6, h⟩ := bind_eq_ok.1 h
  obtain ⟨rfl, rfl⟩ := pair_eq_ok.1 h
  obtain ⟨rows, hrows, -⟩ := recordBatch_ok h1
  have hbatches : t5.scanBatches = t.scanBatches ++ [batchRow D b xs] := by
    rw [(publish_kept h5).2.2, reviseVerdicts_batches h4, (applyRepackMutations_ledger h3).2,
      outcomesOf_batches h2, claimAll_batches hs, hrows]
  have hunique := t5.kept.scans.batches
  rw [hbatches, Table.Unique, List.map_append, List.nodup_append] at hunique
  have hold : ∀ s ∈ t.scanBatches, decide (s.deviceId = D ∧ s.batchId = b.batchId) = false := by
    intro s hs
    rw [decide_eq_false_iff_not]
    intro hk
    refine hunique.2.2 _ (List.mem_map_of_mem hs) (D, b.batchId) ?_ (Prod.ext hk.1 hk.2)
    exact List.mem_singleton_self _
  rw [Tables.change_ok.1 h6]
  show Table.update _ _ t5.scanBatches = _
  rw [hbatches, Table.update, List.map_append]
  congr 1
  · exact Table.update_of_none hold
  · rw [List.map_singleton, if_pos (decide_eq_true ⟨rfl, rfl⟩)]

theorem applyBatch_ledger (h : applyBatch task env D b xs t = .ok (a, t')) :
    ∃ rows, List.Forall₂ (fun x row => ScanEvent.Of D x row) xs rows ∧
      t'.scanEvents.map (·.sent) = (t.scanEvents ++ rows).map (·.sent) ∧
      Led D t.codeResults (claimsOf xs) t'.codeResults := by
  unfold applyBatch at h
  obtain ⟨t1, h1, h⟩ := bind_eq_ok.1 h
  obtain ⟨s, hs, h⟩ := bind_eq_ok.1 h
  obtain ⟨⟨os, t2⟩, h2, h⟩ := bind_eq_ok.1 h
  obtain ⟨t3, h3, h⟩ := bind_eq_ok.1 h
  obtain ⟨t4, h4, h⟩ := bind_eq_ok.1 h
  obtain ⟨t5, h5, h⟩ := bind_eq_ok.1 h
  obtain ⟨t6, h6, h⟩ := bind_eq_ok.1 h
  obtain ⟨-, rfl⟩ := pair_eq_ok.1 h
  obtain ⟨rows, hrows, hof⟩ := recordBatch_ok h1
  have hrecorded2 := (outcomesOf_ok h2).2
  have hrecorded4 := reviseVerdicts_recorded h4
  have hrecorded6 := change_recorded h6 (setBatchResult_recorded _ _ _)
  obtain ⟨hresults5, hevents5, -⟩ := publish_kept h5
  refine ⟨rows, hof, ?_, ?_⟩
  · rw [hrecorded6.events, hevents5, hrecorded4.events, (applyRepackMutations_ledger h3).1,
      hrecorded2.events, (claimAll_claimed hs).events, hrows]
  · rw [hrecorded6.codeResults, hresults5, hrecorded4.codeResults,
      (applyRepackMutations_beside h3).codeResults, hrecorded2.codeResults]
    have hled := claimAll_led hs
    rw [hrows] at hled
    exact hled

theorem Rows.Known.applied (h : t.toRows.Known)
    (happly : applyBatch task env D b xs t = .ok (a, t')) : t'.toRows.Known := by
  obtain ⟨rows, hof, hevents, hled⟩ := applyBatch_ledger happly
  intro y hy
  rw [hevents, List.map_append]
  rcases hled.source y hy with hy | ⟨c, hc, hshown⟩
  · obtain ⟨e, he, hid⟩ := h y hy
    exact ⟨e, List.mem_append_left _ he, hid⟩
  · obtain ⟨x, hx, hwinner, -⟩ := mem_claimsOf.1 hc
    obtain ⟨row, hrow, hrowof⟩ := forall₂_mem hof hx
    refine ⟨row.sent, List.mem_append_right _ (List.mem_map_of_mem hrow), ?_, ?_⟩
    · rw [hshown.event, hwinner]
      exact hrowof.eventId
    · rw [hshown.device]
      exact hrowof.deviceId

theorem Rows.Known.served {request : Option Uuid} (h : t.toRows.Known)
    (hserved : Served d task env D b request t a t') : t'.toRows.Known := by
  cases hserved with
  | stored same hsame hdigest hanswer => exact h.recorded (normalizeStoredResponse_recorded hanswer)
  | other replay t1 hfrom hanswered =>
    have h1 := h.recorded hfrom.recorded
    cases hanswered with
    | repeated same hsame hanswer => exact h1.recorded (answerSameDigest_recorded hanswer)
    | quarantined hnew hclosed xs hxs hanswer => exact h1.recorded (quarantine_recorded hanswer)
    | applied hnew hadmitted xs hxs t2 hanswer hlast =>
      exact (h1.applied hanswer).recorded (late_recorded hlast)

theorem Rows.Known.recoded {r r' : Rows} {p : CodeResult → Bool} {f : CodeResult → CodeResult}
    (h : r.Known) (hresults : r'.codeResults = Table.update p f r.codeResults)
    (hevents : r'.scanEvents = r.scanEvents)
    (hkeeps : ∀ x, (f x).firstAcceptedEventId = x.firstAcceptedEventId ∧
      (f x).winningDeviceId = x.winningDeviceId) : r'.Known := by
  unfold Rows.Known
  rw [hresults, hevents]
  intro y hy
  obtain ⟨x, hx, rfl⟩ := Table.mem_update.1 hy
  split_ifs
  · rw [(hkeeps x).1, (hkeeps x).2]
    exact h x hx
  · exact h x hx

end

section

variable {s : Site} {t t' : Tables}

theorem BatchAction.after_winner (a : BatchAction) (changedAt : Stamp) (x : CodeResult) :
    (a.after changedAt x).firstAcceptedEventId = x.firstAcceptedEventId ∧
      (a.after changedAt x).winningDeviceId = x.winningDeviceId := by
  cases a <;> exact ⟨rfl, rfl⟩

/-- **Every call keeps the winners in the ledger.** -/
theorem Call.serve_known {c : Call s} (h : t.toRows.Known) (hserve : c.serve t = .ok t') :
    t'.toRows.Known := by
  cases Call.serve_does hserve with
  | ingest h1 | replay h1 => exact h.served (ingestBatch_ok h1).2
  | @correct _ _ input _ h1 =>
    obtain rfl | ⟨-, -, -, r, hr, hrows⟩ := correct_ok h1
    · exact h
    generalize input.target = target at hr
    rw [hrows]
    cases hr with
    | code _ result f hresult hkeeps hdate hstream =>
      exact h.recoded rfl rfl fun x => ⟨(hkeeps x).2.2.1, (hkeeps x).2.2.2⟩
    | removed => exact h.congr rfl rfl
    | invalidated => exact h.congr rfl rfl
    | reprinted => exact h.congr rfl rfl
  | @correctBatch _ changedAt input _ h1 =>
    obtain rfl | ⟨-, batchId, digest, events, targets, -, hrows⟩ := correctBatch_ok h1
    · exact h
    rw [hrows]
    exact h.recoded (p := fun c => decide (c.id ∈ targets.map (·.before.id)))
      (f := input.action.after changedAt) rfl rfl (input.action.after_winner changedAt)
  | other status revision participants ssccBlocks lateEvents hle hrows =>
    rw [hrows]
    exact h.congr rfl rfl

theorem run_known (start : Start) (calls : List (Call s)) : (run start calls).toRows.Known :=
  run_inv (P := fun t => t.toRows.Known) (fun _ hy => absurd hy List.not_mem_nil)
    (fun _ _ _ h hserve => Call.serve_known h hserve) calls

end

end Markiro.InventorySync
