import Markiro.InventorySync.Arrivals

/-!
# What was taken in settles the codes

The codes, the recorded claims and the verdicts agree with the events taken in (`Settled`). A batch
that is applied takes its events in (`Settled.applied`), and any other answer takes in nothing and
changes nothing (`Settled.served`).
-/

namespace Markiro.InventorySync

open Results

/-! ## The state that a set of events settles -/

structure Settled (d : Digests) (task : Task) (Sent : Uuid → Payload → Prop)
    (H : List (Uuid × Event)) (r : Rows) : Prop where
  running : r.status = .running
  ledger : List.Forall₂
    (fun (p : Uuid × Event) (row : ScanEvent) => row.eventId = p.2.eventId ∧ row.deviceId = p.1) H
      r.scanEvents
  present : ∀ p ∈ H, ∀ g ∈ p.2.targets d task, ∃ y ∈ r.codeResults, y.codeHash = g.codeHash
  least : ∀ p ∈ H, ∀ g ∈ p.2.targets d task, ∀ y ∈ r.codeResults, y.codeHash = g.codeHash →
    y.rank ≤ p.2.rank p.1
  source : ∀ y ∈ r.codeResults, ∃ p ∈ H, ∃ g ∈ p.2.targets d task,
    ChangedCode.Shown p.1 ⟨g, p.2⟩ y
  judged : Judged r.claimOutcomes r.codeResults
  claims : ∀ k, k ∈ r.claimOutcomes.map (·.key) ↔
    ∃ p ∈ H, ∃ g ∈ p.2.targets d task, k = (p.2.eventId, g.codeHash)
  verdicts : ∀ e ∈ r.scanEvents, e.authoritativeVerdict = verdictOf r.claimOutcomes e.eventId
  stored : ∀ s ∈ r.scanBatches, ∃ p, Sent s.deviceId p ∧ d.payload p = s.payloadDigest ∧
    ∀ e ∈ p.events, (s.deviceId, e) ∈ H

def Rows.winner (r : Rows) (h : Hash) : Option Uuid :=
  (r.codeResults.find? (·.codeHash = h)).map (·.firstAcceptedEventId)

theorem winner_eq {r : Rows} (hunique : Table.Unique (·.codeHash) r.codeResults) {y : CodeResult}
    (hy : y ∈ r.codeResults) : r.winner y.codeHash = some y.firstAcceptedEventId := by
  unfold Rows.winner
  rw [hunique.find? hy, Option.map_some]

theorem mem_of_winner {r : Rows} {h : Hash} {id : Uuid} (hw : r.winner h = some id) :
    ∃ y ∈ r.codeResults, y.codeHash = h ∧ y.firstAcceptedEventId = id := by
  obtain ⟨y, hfind, hid⟩ := Option.map_eq_some_iff.1 hw
  have hfound := List.find?_some hfind
  exact ⟨y, List.mem_of_find?_eq_some hfind, of_decide_eq_true hfound, hid⟩

section

variable {d : Digests} {task : Task} {env : Env} {D : Uuid} {b : EventBatch} {t t' : Tables}
  {a : BatchResponse} {xs : List Expanded} {Sent : Uuid → Payload → Prop} {H : List (Uuid × Event)}

theorem Settled.rebatched {r r' : Rows} (h : Settled d task Sent H r)
    (hrows : r' = { r with scanBatches := r'.scanBatches })
    (hbatches : ∀ s ∈ r'.scanBatches, ∃ p, Sent s.deviceId p ∧ d.payload p = s.payloadDigest ∧
      ∀ e ∈ p.events, (s.deviceId, e) ∈ H) : Settled d task Sent H r' := by
  have hstored := hbatches
  generalize r'.scanBatches = batches at hrows hstored
  subst hrows
  exact { h with stored := hstored }

theorem Settled.taken (h : Settled d task Sent H t.toRows) {id : Uuid}
    (hid : ∃ p ∈ H, p.2.eventId = id) : id ∈ t.scanEvents.map (·.eventId) := by
  obtain ⟨p, hp, rfl⟩ := hid
  obtain ⟨row, hrow, hrowid, -⟩ := forall₂_mem h.ledger hp
  exact List.mem_map.2 ⟨row, hrow, hrowid⟩

/-! ## A batch that is applied -/

theorem applyRepackMutations_none {ps : List (Expanded × EventOutcome)}
    (hnone : ∀ p ∈ ps, p.1.event.repack = none)
    (h : applyRepackMutations task env D t ps = .ok t') :
    t' = t := by
  induction ps generalizing t with
  | nil => exact (Except.ok.inj h).symm
  | cons p ps ih =>
    obtain ⟨x, o⟩ := p
    rw [applyRepackMutations] at h
    obtain ⟨t1, h1, h⟩ := bind_eq_ok.1 h
    have hx : x.event.repack = none := hnone (x, o) List.mem_cons_self
    have h1' : t1 = t := by
      split_ifs at h1
      · exact (Except.ok.inj h1).symm
      · unfold applyRepackMutation at h1
        rw [hx] at h1
        exact (Except.ok.inj h1).symm
    rw [ih (fun p hp => hnone p (List.mem_cons_of_mem _ hp)) h, h1']

theorem changed_iff {s : Claiming} (h : claimAll task env D ⟨t, [], []⟩ xs = .ok s)
    (hnew : ∀ y ∈ t.codeResults, ∀ x ∈ xs, y.firstAcceptedEventId ≠ x.event.eventId) :
    s.changed = [] ↔ ∀ hash, s.tables.toRows.winner hash = t.toRows.winner hash := by
  have hclaimed := claimAll_claimed h
  have hevents : ∀ c ∈ s.changed, ∃ x ∈ xs, c.winner = x.event := by
    refine claimAll_inv (P := fun u => ∀ c ∈ u.changed, ∃ x ∈ xs, c.winner = x.event)
      (fun x hx g hg u u' hu hstep => ?_) (fun _ hc => absurd hc List.not_mem_nil) h
    have hset : ∀ c ∈ setKey (·.target.codeHash) ⟨g, x.event⟩ u.changed,
        ∃ x ∈ xs, c.winner = x.event := by
      intro c hc
      rcases mem_setKey.1 hc with rfl | ⟨hc, -⟩
      · exact ⟨x, hx, rfl⟩
      · exact hu c hc
    cases hstep with
    | fresh => exact hset
    | displaced => exact hset
    | kept => exact hu
  have hsame : s.changed = [] → s.tables.codeResults = t.codeResults := by
    refine claimAll_inv (P := fun u => u.changed = [] → u.tables.codeResults = t.codeResults)
      (fun x hx g hg u u' hu hstep => ?_) (fun _ => rfl) h
    have hne : setKey (·.target.codeHash) (⟨g, x.event⟩ : ChangedCode) u.changed ≠ [] :=
      List.ne_nil_of_mem (mem_setKey.2 (.inl rfl))
    cases hstep with
    | fresh => exact fun hnil => (hne hnil).elim
    | displaced => exact fun hnil => (hne hnil).elim
    | kept => exact hu
  refine ⟨fun hnil hash => ?_, fun hall => ?_⟩
  · unfold Rows.winner
    rw [hsame hnil]
  · rw [List.eq_nil_iff_forall_not_mem]
    intro c hc
    obtain ⟨y, hy, hshown⟩ := hclaimed.shown c hc
    obtain ⟨x, hx, hwinner⟩ := hevents c hc
    have hw := hall y.codeHash
    rw [winner_eq s.tables.kept.scans.currentClaims hy] at hw
    obtain ⟨z, hz, -, hzid⟩ := mem_of_winner hw.symm
    exact hnew z hz x hx (by rw [hzid, hshown.event, hwinner])

/-- The events of a batch, under the device that sends it. -/
def EventBatch.takenFrom (b : EventBatch) (D : Uuid) : List (Uuid × Event) :=
  b.events.map fun e => (D, e)

theorem mem_takenFrom {p : Uuid × Event} : p ∈ b.takenFrom D ↔ p.1 = D ∧ p.2 ∈ b.events := by
  unfold EventBatch.takenFrom
  rw [List.mem_map]
  constructor
  · rintro ⟨e, he, rfl⟩
    exact ⟨rfl, he⟩
  · rintro ⟨hD, he⟩
    exact ⟨p.2, he, Prod.ext hD.symm rfl⟩

/-- The revision rises by one when some code has another winner, and only then. -/
def Revised (r r' : Rows) : Prop :=
  r'.resultRevision = r.resultRevision + 1 ∧ (∃ h, r'.winner h ≠ r.winner h) ∨
    r'.resultRevision = r.resultRevision ∧ ∀ h, r'.winner h = r.winner h

/-- **A batch that is applied takes its events in.** -/
theorem Settled.applied (h : Settled d task Sent H t.toRows) (hknown : t.toRows.Known)
    (hmode : task.mode = .check) (hb : b.Accepted d.payload) (hsent : Sent D b.toPayload)
    (hvalid : ∀ e ∈ b.events, e.Valid d task)
    (hnew : ∀ e ∈ b.events, e.eventId ∉ t.scanEvents.map (·.eventId))
    (hxs : expandAll d task 0 b.events = .ok xs) (happly : applyBatch task env D b xs t = .ok (a, t')) :
    Settled d task Sent (H ++ b.takenFrom D) t'.toRows ∧ Revised t.toRows t'.toRows := by
  have hbatches := applyBatch_batches happly
  unfold applyBatch at happly
  obtain ⟨t1, h1, happly⟩ := bind_eq_ok.1 happly
  obtain ⟨s, hs, happly⟩ := bind_eq_ok.1 happly
  obtain ⟨⟨os, t2⟩, h2, happly⟩ := bind_eq_ok.1 happly
  obtain ⟨t3, h3, happly⟩ := bind_eq_ok.1 happly
  obtain ⟨t4, h4, happly⟩ := bind_eq_ok.1 happly
  obtain ⟨t5, h5, happly⟩ := bind_eq_ok.1 happly
  obtain ⟨t6, h6, happly⟩ := bind_eq_ok.1 happly
  obtain ⟨-, rfl⟩ := pair_eq_ok.1 happly
  obtain ⟨rows, hrows, hof⟩ := recordBatch_ok h1
  obtain ⟨hevents, htargets⟩ := expandAll_ok hxs
  have hmem : ∀ x ∈ xs, x.event ∈ b.events := fun x hx =>
    hevents ▸ List.mem_map_of_mem (f := fun x : Expanded => x.event) hx
  have hsound : ∀ x ∈ xs, x.Sound d task := fun x hx =>
    ⟨hb.events _ (hmem x hx), htargets x hx⟩
  have hclaims : ∀ x ∈ xs, x.claims = x.event.targets d task := fun x hx => (hsound x hx).targets_eq
  have hkinds : ∀ x ∈ xs, (x.event.kind = .item ∨ x.event.kind = .knownBox) ∧
      x.event.repack = none := fun x hx =>
    (hvalid _ (hmem x hx)).kind (hb.events _ (hmem x hx)) hmode
  have hids : (xs.map (·.event.eventId)).Nodup := by
    have hmap : xs.map (·.event.eventId) = b.events.map (·.eventId) := by
      rw [← hevents, List.map_map]
      rfl
    exact hmap ▸ hb.ids
  have hxnew : ∀ x ∈ xs, x.event.eventId ∉ t.scanEvents.map (·.eventId) := fun x hx =>
    hnew _ (hmem x hx)
  -- the rows that follow the claims, by what the later steps leave of them
  have hresults1 : t1.codeResults = t.codeResults := by rw [hrows]
  have houtcomes1 : t1.claimOutcomes = t.claimOutcomes := by rw [hrows]
  have hled := claimAll_led hs
  rw [hresults1] at hled
  have hclaimed := claimAll_claimed hs
  have hrecorded2 := (outcomesOf_ok h2).2
  have h23 : t3 = t2 := applyRepackMutations_none (fun p hp =>
    (hkinds p.1 (List.of_mem_zip hp).1).2) h3
  subst h23
  have hsources : ∀ c ∈ t.claimOutcomes, ∀ x ∈ xs, c.sourceEventId ≠ x.event.eventId := by
    intro c hc x hx he
    obtain ⟨p, hp, g, -, hk⟩ := (h.claims c.key).1 (List.mem_map_of_mem hc)
    refine hxnew x hx (h.taken ⟨p, hp, ?_⟩)
    rw [← he]
    exact (congrArg Prod.fst hk).symm
  have hmoved : ∀ u : Claiming, Moved t.claimOutcomes u →
      ∀ c ∈ u.tables.claimOutcomes, ∀ x ∈ xs, c.sourceEventId ≠ x.event.eventId := by
    intro u hu c hc x hx
    have hkey : c.key ∈ t.claimOutcomes.map (·.key) := hu.keys ▸ List.mem_map_of_mem hc
    obtain ⟨c0, hc0, hk⟩ := List.mem_map.1 hkey
    rw [show c.sourceEventId = c0.sourceEventId from (congrArg Prod.fst hk).symm]
    exact hsources c0 hc0 x hx
  obtain ⟨hmovedS, hjudgedS⟩ : Moved t.claimOutcomes s ∧
      Judged s.tables.claimOutcomes s.tables.codeResults := by
    refine claimAll_inv (P := fun u => Moved t.claimOutcomes u ∧
      Judged u.tables.claimOutcomes u.tables.codeResults)
      (fun x hx g hg u u' hu hstep => ⟨hu.1.step hstep, hu.2.step (fun c hc =>
        hmoved u hu.1 c hc x hx) hstep⟩) ⟨⟨?_, fun _ _ => ?_⟩, ?_⟩ hs
    · show t1.claimOutcomes.map (·.key) = _
      rw [houtcomes1]
    · show t1.claimOutcomes.filter _ = _
      rw [houtcomes1]
    · show Judged t1.claimOutcomes t1.codeResults
      rw [houtcomes1, hresults1]
      exact h.judged
  have hcount := outcomesOf_check (fun x hx => ⟨(hsound x hx).valid (hvalid _ (hmem x hx)),
    (hkinds x hx).1⟩) hids (hmoved s hmovedS) h2
  obtain ⟨houtcomes4, hresults4, hevents4⟩ := reviseVerdicts_events h4
  have hrows5 := publish_rows h5
  have hrows6 := Tables.change_ok.1 h6
  have hresults : t6.codeResults = s.tables.codeResults := by
    rw [hrows6]
    show t5.codeResults = _
    rw [hrows5]
    show t4.codeResults = _
    rw [hresults4, hrecorded2.codeResults]
  have houtcomes : t6.claimOutcomes = t3.claimOutcomes := by
    rw [hrows6]
    show t5.claimOutcomes = _
    rw [hrows5]
    exact houtcomes4
  have hscans : t6.scanEvents = t4.scanEvents := by
    rw [hrows6]
    show t5.scanEvents = _
    rw [hrows5]
  have hunique := s.tables.kept.scans.currentClaims
  refine ⟨⟨?_, ?_, ?_, ?_, ?_, ?_, ?_, ?_, ?_⟩, ?_⟩
  · rw [hrows6]
    show t5.status = .running
    rw [hrows5]
    show t4.status = .running
    rw [(reviseVerdicts_recorded h4).beside.status, hrecorded2.beside.status,
      hclaimed.beside.status]
    show t1.status = .running
    rw [(recordBatch_beside h1).status, h.running]
  · have hsent : t6.scanEvents.map (·.sent) = (t.scanEvents ++ rows).map (·.sent) := by
      rw [hscans, (reviseVerdicts_recorded h4).events, hrecorded2.events, hclaimed.events, hrows]
    have hledger : List.Forall₂ (fun (p : Uuid × Event) (row : ScanEvent) =>
        row.eventId = p.2.eventId ∧ row.deviceId = p.1) (H ++ b.takenFrom D)
        (t.scanEvents ++ rows) := by
      refine List.rel_append h.ledger ?_
      unfold EventBatch.takenFrom
      rw [← hevents, List.map_map, List.forall₂_map_left_iff]
      exact hof.imp fun x row hrow => ⟨hrow.eventId, hrow.deviceId⟩
    have hview : ∀ l : List ScanEvent, List.Forall₂ (fun (p : Uuid × Event) (row : ScanEvent) =>
        row.eventId = p.2.eventId ∧ row.deviceId = p.1) (H ++ b.takenFrom D) l ↔
        List.Forall₂ (fun (p : Uuid × Event) (row : ScanEvent) =>
          row.eventId = p.2.eventId ∧ row.deviceId = p.1) (H ++ b.takenFrom D) (l.map (·.sent)) :=
      fun l => by
        rw [List.forall₂_map_right_iff]
        rfl
    rw [hview, hsent, ← hview]
    exact hledger
  · rw [hresults]
    intro p hp g hg
    rcases List.mem_append.1 hp with hp | hp
    · obtain ⟨z, hz, hzg⟩ := h.present p hp g hg
      obtain ⟨y, hy, hyz⟩ := hled.kept z hz
      exact ⟨y, hy, hyz.trans hzg⟩
    · obtain ⟨-, he⟩ := mem_takenFrom.1 hp
      rw [← hevents] at he
      obtain ⟨x, hx, hxe⟩ := List.mem_map.1 he
      rw [← hxe, ← hclaims x hx] at hg
      exact hled.present ⟨g, x.event⟩ (mem_claimsOf.2 ⟨x, hx, rfl, hg⟩)
  · rw [hresults]
    intro p hp g hg y hy hyg
    rcases List.mem_append.1 hp with hp | hp
    · obtain ⟨z, hz, hzg⟩ := h.present p hp g hg
      exact (hled.earlier y hy z hz (hzg.trans hyg.symm)).trans (h.least p hp g hg z hz hzg)
    · obtain ⟨hD, he⟩ := mem_takenFrom.1 hp
      rw [← hevents] at he
      obtain ⟨x, hx, hxe⟩ := List.mem_map.1 he
      rw [← hxe, ← hclaims x hx] at hg
      rw [hD, ← hxe]
      exact hled.least y hy ⟨g, x.event⟩ (mem_claimsOf.2 ⟨x, hx, rfl, hg⟩) hyg.symm
  · rw [hresults]
    intro y hy
    rcases hled.source y hy with hy | ⟨c, hc, hshown⟩
    · obtain ⟨p, hp, hrest⟩ := h.source y hy
      exact ⟨p, List.mem_append_left _ hp, hrest⟩
    · obtain ⟨x, hx, hwinner, htarget⟩ := mem_claimsOf.1 hc
      refine ⟨(D, x.event), List.mem_append_right _ (mem_takenFrom.2 ⟨rfl, hmem x hx⟩), c.target,
        ?_, ?_⟩
      · show c.target ∈ x.event.targets d task
        rw [← hclaims x hx]
        exact htarget
      · show ChangedCode.Shown D ⟨c.target, x.event⟩ y
        rw [← hwinner]
        exact hshown
  · rw [hresults, houtcomes]
    intro c hc
    rcases hcount.rows c hc with hc | ⟨x, hx, y, hy, rfl⟩
    · exact hjudgedS c hc
    · unfold claimOutcomeRow ClaimOutcome.Won
      dsimp only
      constructor
      · intro hstatus
        split_ifs at hstatus with hfirst
        exact ⟨y, hy, rfl, hfirst⟩
      · rintro ⟨y', hy', hh, hfirst⟩
        rw [hunique.eq hy' hy hh] at hfirst
        rw [if_pos hfirst]
  · rw [houtcomes]
    intro k
    rw [hcount.keys, hmovedS.keys, h.claims]
    constructor
    · rintro (⟨p, hp, hk⟩ | ⟨x, hx, g, hg, hk⟩)
      · exact ⟨p, List.mem_append_left _ hp, hk⟩
      · refine ⟨(D, x.event), List.mem_append_right _ (mem_takenFrom.2 ⟨rfl, hmem x hx⟩), g, ?_, hk⟩
        rw [hclaims x hx] at hg
        exact hg
    · rintro ⟨p, hp, g, hg, hk⟩
      rcases List.mem_append.1 hp with hp | hp
      · exact .inl ⟨p, hp, g, hg, hk⟩
      · obtain ⟨-, he⟩ := mem_takenFrom.1 hp
        rw [← hevents] at he
        obtain ⟨x, hx, hxe⟩ := List.mem_map.1 he
        rw [← hxe] at hg hk
        rw [← hclaims x hx] at hg
        exact .inr ⟨x, hx, g, hg, hk⟩
  · rw [hscans, houtcomes]
    intro e he
    rcases hevents4 e he with ⟨he, hno⟩ | ⟨-, hv⟩
    · rcases hcount.verdicts e he with ⟨he, hother⟩ | ⟨-, hv⟩
      · have hold : e ∈ t.scanEvents := by
          rw [hclaimed.events, hrows] at he
          refine (List.mem_append.1 he).resolve_right fun hrow => ?_
          obtain ⟨x, hx, hxrow⟩ := forall₂_mem hof.flip hrow
          exact hother x hx hxrow.eventId.symm
        rw [h.verdicts e hold]
        symm
        refine verdictOf_congr ?_
        rw [hcount.others _ hother, hmovedS.untouched _ hno]
      · exact hv
    · exact hv
  · rw [hbatches]
    intro row hrow
    rcases List.mem_append.1 hrow with hrow | hrow
    · obtain ⟨p, hp, hdp, hin⟩ := h.stored row hrow
      exact ⟨p, hp, hdp, fun e he => List.mem_append_left _ (hin e he)⟩
    · rw [List.mem_singleton.1 hrow]
      exact ⟨b.toPayload, hsent, hb.payloadDigest.symm, fun e he =>
        List.mem_append_right _ (mem_takenFrom.2 ⟨rfl, he⟩)⟩
  · have hrevision : t6.resultRevision =
        t.resultRevision + if s.changed = [] then 0 else 1 := by
      rw [hrows6]
      show t5.resultRevision = _
      rw [hrows5, ← (recordBatch_beside h1).resultRevision, ← hclaimed.beside.resultRevision]
      show t4.resultRevision + _ = _
      rw [(reviseVerdicts_recorded h4).beside.resultRevision, hrecorded2.beside.resultRevision]
    have hchanged := changed_iff hs (hresults1 ▸ fun y hy x hx he =>
      hknown.fresh hy (he ▸ hxnew x hx))
    have hw0 : ∀ hash, t1.toRows.winner hash = t.toRows.winner hash := fun hash => by
      unfold Rows.winner
      rw [hresults1]
    have hw6 : ∀ hash, t6.toRows.winner hash = s.tables.toRows.winner hash := fun hash => by
      unfold Rows.winner
      rw [hresults]
    by_cases hnil : s.changed = []
    · rw [if_pos hnil] at hrevision
      exact .inr ⟨hrevision, fun hash => by rw [hw6, hchanged.1 hnil hash, hw0]⟩
    · rw [if_neg hnil] at hrevision
      refine .inl ⟨hrevision, ?_⟩
      by_contra hall
      refine hnil (hchanged.2 fun hash => ?_)
      rw [← hw6, hw0]
      by_contra hne
      exact hall ⟨hash, hne⟩

end

end Markiro.InventorySync
