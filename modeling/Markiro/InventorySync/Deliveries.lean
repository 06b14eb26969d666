import Markiro.InventorySync.Settled

/-!
# Deliveries in any order

The deliveries of batches to a check-mode inventory, repeats among them: the codes, the claims of the
events and their verdicts depend only on the events of the deliveries that are answered
(`claims_settle`).
-/

namespace Markiro.InventorySync

open Results

section

variable {d : Digests} {task : Task} {env : Env} {D : Uuid} {b : EventBatch} {t t' : Tables}
  {a : BatchResponse} {Sent : Uuid → Payload → Prop} {H : List (Uuid × Event)}

/-! ## A batch that is answered again -/

theorem Settled.evidence (h : Settled d task Sent H t.toRows) {e : Event} (he : (D, e) ∈ H)
    (hclaims : e.targets d task ≠ []) : readEvidence task e t = .ok
    (evidenceOf t e.eventId, t) := by
  obtain ⟨g, hg⟩ := List.exists_mem_of_ne_nil _ hclaims
  have hkey := (h.claims (e.eventId, g.codeHash)).2 ⟨(D, e), he, g, hg, rfl⟩
  obtain ⟨c, hc, hk⟩ := List.mem_map.1 hkey
  have hsource : c.sourceEventId = e.eventId := congrArg Prod.fst hk
  have hne : evidenceOf t e.eventId ≠ [] := by
    refine List.ne_nil_of_mem (a := c) ?_
    unfold evidenceOf
    rw [List.mem_insertionSort, List.mem_filter]
    exact ⟨hc, decide_eq_true hsource⟩
  unfold readEvidence
  rw [if_neg fun hand => hne hand.1]

theorem Settled.rebuilt (h : Settled d task Sent H t.toRows) {events : List Event}
    (hevents : ∀ e ∈ events, (D, e) ∈ H ∧ e.targets d task ≠ []) {os : List EventOutcome}
    (hrebuild : rebuildOutcomes task t events = .ok (os, t')) : t' = t := by
  induction events generalizing os with
  | nil =>
    obtain ⟨-, rfl⟩ := pair_eq_ok.1 hrebuild
    rfl
  | cons e events ih =>
    obtain ⟨he, hclaims⟩ := hevents e List.mem_cons_self
    rw [rebuildOutcomes, h.evidence he hclaims, ok_bind] at hrebuild
    obtain ⟨⟨os1, t1⟩, h1, hrebuild⟩ := bind_eq_ok.1 hrebuild
    obtain ⟨-, rfl⟩ := pair_eq_ok.1 hrebuild
    exact ih (fun e he => hevents e (List.mem_cons_of_mem _ he)) h1

/-- An answer from a row changes the answer of a row at most. -/
theorem Settled.normalized (h : Settled d task Sent H t.toRows)
    (hevents : ∀ e ∈ b.events, (D, e) ∈ H ∧ e.targets d task ≠ [])
    {stored : Option BatchResponse} {revision : ℕ}
    (hanswer : normalizeStoredResponse task D b stored revision t = .ok (a, t')) :
    Settled d task Sent H t'.toRows ∧
      t'.toRows = { t.toRows with scanBatches := t'.scanBatches } := by
  unfold normalizeStoredResponse at hanswer
  split at hanswer
  · obtain ⟨-, rfl⟩ := pair_eq_ok.1 hanswer
    exact ⟨h, rfl⟩
  · obtain ⟨⟨os, t1⟩, h1, hanswer⟩ := bind_eq_ok.1 hanswer
    obtain ⟨t2, h2, hanswer⟩ := bind_eq_ok.1 hanswer
    obtain ⟨-, rfl⟩ := pair_eq_ok.1 hanswer
    obtain rfl := h.rebuilt hevents h1
    have hrows : t2.toRows = { t1.toRows with scanBatches := t2.scanBatches } := by
      rw [Tables.change_ok.1 h2]
      rfl
    refine ⟨h.rebatched hrows fun s hs => ?_, hrows⟩
    rw [Tables.change_ok.1 h2] at hs
    obtain ⟨s0, hs0, rfl⟩ := Table.mem_update.1 hs
    obtain ⟨p, hp, hdp, hin⟩ := h.stored s0 hs0
    split_ifs
    · exact ⟨p, hp, hdp, hin⟩
    · exact ⟨p, hp, hdp, hin⟩

/-- What a delivery that is answered takes in. -/
structure TakesIn (d : Digests) (task : Task) (Sent : Uuid → Payload → Prop)
    (H H' : List (Uuid × Event)) (D : Uuid) (b : EventBatch) (t t' : Tables) : Prop where
  settled : Settled d task Sent H' t'.toRows
  taken : ∀ p, p ∈ H' ↔ p ∈ H ∨ p.1 = D ∧ p.2 ∈ b.events
  revised : Revised t.toRows t'.toRows

theorem Revised.of_same {r r' : Rows} (h : r' = { r with scanBatches := r'.scanBatches }) :
    Revised r r' := by
  refine .inr ⟨?_, fun hash => ?_⟩
  · rw [h]
  · unfold Rows.winner
    rw [h]

/-- **A delivery that is answered takes the events of its batch in**, or finds them taken in. -/
theorem Settled.served (h : Settled d task Sent H t.toRows) (hknown : t.toRows.Known)
    (hmode : task.mode = .check) (hb : b.Accepted d.payload) (hsent : Sent D b.toPayload)
    (hvalid : ∀ e ∈ b.events, e.Valid d task)
    (hdistinct : ∀ p, Sent D p → d.payload p = d.payload b.toPayload → p = b.toPayload)
    (hserved : Served d task env D b none t a t') :
    ∃ H', TakesIn d task Sent H H' D b t t' := by
  have hclaims : ∀ e ∈ b.events, e.targets d task ≠ [] := fun e he =>
    (hvalid e he).claims (hb.events e he) hmode
  -- the events of a payload that is stored were taken in
  have hthere : ∀ s ∈ t.scanBatches, s.deviceId = D → s.payloadDigest = b.payloadDigest →
      ∀ e ∈ b.events, (D, e) ∈ H := by
    intro s hs hdevice hdigest e he
    obtain ⟨p, hp, hdp, hin⟩ := h.stored s hs
    have hpb : p = b.toPayload :=
      hdistinct p (hdevice ▸ hp) (by rw [hdp, hdigest, hb.payloadDigest])
    rw [← hdevice]
    exact hin e (hpb ▸ he)
  have hagain : (∀ e ∈ b.events, (D, e) ∈ H) → ∀ p, p ∈ H ↔ p ∈ H ∨ p.1 = D ∧ p.2 ∈ b.events := by
    refine fun hin p => ⟨.inl, fun hp => hp.elim id ?_⟩
    rintro ⟨hD, he⟩
    have hp := hin p.2 he
    rwa [← hD] at hp
  cases hserved with
  | stored same hsame hdigest hanswer =>
    have hin := hthere same hsame.1 hsame.2.1 hdigest
    obtain ⟨hsettled, hrows⟩ := h.normalized (fun e he => ⟨hin e he, hclaims e he⟩) hanswer
    exact ⟨H, hsettled, hagain hin, .of_same hrows⟩
  | other replay t1 hfrom hanswered =>
    cases hfrom with
    | fresh =>
      cases hanswered with
      | repeated same hsame hanswer =>
        have hin := hthere same hsame.1 hsame.2.1 hsame.2.2
        unfold answerSameDigest at hanswer
        obtain ⟨⟨prior, t1⟩, h1, hanswer⟩ := bind_eq_ok.1 hanswer
        obtain ⟨t2, h2, hanswer⟩ := bind_eq_ok.1 hanswer
        obtain ⟨-, rfl⟩ := pair_eq_ok.1 hanswer
        obtain ⟨hsettled, hrows⟩ := h.normalized (b := { b with batchId := same.batchId })
          (fun e he => ⟨hin e he, hclaims e he⟩) h1
        have hrows2 := Tables.change_ok.1 h2
        refine ⟨H, hsettled.rebatched (by rw [hrows2]) fun s hs => ?_, hagain hin, .of_same ?_⟩
        · rw [hrows2] at hs
          rcases List.mem_append.1 hs with hs | hs
          · exact hsettled.stored s hs
          · rw [List.mem_singleton.1 hs]
            exact ⟨b.toPayload, hsent, hb.payloadDigest.symm, fun e he => hin e he⟩
        · rw [hrows2, hrows]
      | quarantined hnew hclosed xs hxs hanswer => exact absurd h.running hclosed
      | applied hnew hadmitted xs hxs t2 hanswer hlast =>
        obtain ⟨hsettled, hrevised⟩ := h.applied hknown hmode hb hsent hvalid hadmitted.newIds hxs
          hanswer
        refine ⟨H ++ b.takenFrom D, ?_, fun p => ?_, ?_⟩
        · rw [hlast]
          exact { hsettled with }
        · rw [List.mem_append, mem_takenFrom]
        · rw [hlast]
          exact hrevised
    | again id _ hasked => cases hasked

end

/-! ## Runs of deliveries -/

section

variable {s : Site} {t : Tables}

structure Delivery (s : Site) where
  env : Env
  deviceId : Uuid
  batch : s.Batch

def Delivery.after (t : Tables) (x : Delivery s) : Tables :=
  (Call.ingest x.env x.deviceId x.batch).after t

def Delivery.answered (t : Tables) (x : Delivery s) : Bool :=
  (ingest s.digests s.task x.env x.deviceId x.batch.1 t).toOption.isSome

def deliver (t : Tables) (xs : List (Delivery s)) : Tables := xs.foldl Delivery.after t

def answeredIn : Tables → List (Delivery s) → List (Delivery s)
  | _, [] => []
  | t, x :: xs =>
    if x.answered t then x :: answeredIn (x.after t) xs else answeredIn (x.after t) xs

def Delivered (xs : List (Delivery s)) (p : Uuid × Event) : Prop :=
  ∃ x ∈ xs, x.deviceId = p.1 ∧ p.2 ∈ x.batch.1.events

/-- The deliveries are of valid events, and no two payloads of a device have one digest. -/
structure Sound (xs : List (Delivery s)) : Prop where
  valid : ∀ x ∈ xs, ∀ e ∈ x.batch.1.events, e.Valid s.digests s.task
  distinct : ∀ x ∈ xs, ∀ y ∈ xs, x.deviceId = y.deviceId →
    s.digests.payload x.batch.1.toPayload = s.digests.payload y.batch.1.toPayload →
      x.batch.1.toPayload = y.batch.1.toPayload

def SentIn (xs : List (Delivery s)) (D : Uuid) (p : Payload) : Prop :=
  ∃ x ∈ xs, x.deviceId = D ∧ x.batch.1.toPayload = p

theorem Settled.delivery {all : List (Delivery s)} {H : List (Uuid × Event)} {x : Delivery s}
    (h : Settled s.digests s.task (SentIn all) H t.toRows) (hknown : t.toRows.Known)
    (hmode : s.task.mode = .check) (hall : Sound all) (hx : x ∈ all) :
    ∃ H', Settled s.digests s.task (SentIn all) H' (x.after t).toRows ∧ (x.after t).toRows.Known ∧
      (∀ p, p ∈ H' ↔ p ∈ H ∨ x.answered t = true ∧ x.deviceId = p.1 ∧ p.2 ∈ x.batch.1.events) ∧
      Revised t.toRows (x.after t).toRows := by
  unfold Delivery.after Delivery.answered Call.after
  cases hserve : (Call.ingest x.env x.deviceId x.batch).serve t with
  | error e =>
    have hno : (ingest s.digests s.task x.env x.deviceId x.batch.1 t).toOption.isSome = false := by
      unfold ingest
      cases hingest : ingestBatch s.digests s.task x.env x.deviceId x.batch.1 none t with
      | error e => rfl
      | ok r =>
        have hmap : (ingestBatch s.digests s.task x.env x.deviceId x.batch.1 none t).map (·.2) =
            .error e := hserve
        rw [hingest] at hmap
        cases hmap
    refine ⟨H, h, hknown, fun p => ⟨.inl, fun hp => hp.resolve_right fun hand => ?_⟩,
      .inr ⟨rfl, fun _ => rfl⟩⟩
    rw [hno] at hand
    exact absurd hand.1 Bool.false_ne_true
  | ok t' =>
    obtain ⟨⟨a, t1⟩, h1, rfl⟩ := map_eq_ok.1 hserve
    have hyes : (ingest s.digests s.task x.env x.deviceId x.batch.1 t).toOption.isSome = true := by
      unfold ingest
      rw [h1]
      rfl
    obtain ⟨H', hsettled, htaken, hrevised⟩ := h.served hknown hmode x.batch.2
      ⟨x, hx, rfl, rfl⟩ (hall.valid x hx) (by
        rintro p ⟨y, hy, hD, rfl⟩ hdp
        exact hall.distinct y hy x hx hD hdp) (ingestBatch_ok h1).2
    refine ⟨H', hsettled, Call.serve_known hknown hserve, fun p => ?_, hrevised⟩
    rw [htaken p, hyes]
    refine or_congr Iff.rfl ?_
    rw [eq_self_iff_true, true_and, eq_comm]

theorem Settled.deliver {all xs : List (Delivery s)} {H : List (Uuid × Event)}
    (h : Settled s.digests s.task (SentIn all) H t.toRows) (hknown : t.toRows.Known)
    (hmode : s.task.mode = .check) (hall : Sound all) (hxs : ∀ x ∈ xs, x ∈ all) :
    ∃ H', Settled s.digests s.task (SentIn all) H' (deliver t xs).toRows ∧
      (deliver t xs).toRows.Known ∧ ∀ p, p ∈ H' ↔ p ∈ H ∨ Delivered (answeredIn t xs) p := by
  induction xs generalizing t H with
  | nil =>
    refine ⟨H, h, hknown, fun p => ⟨.inl, fun hp => hp.resolve_right ?_⟩⟩
    rintro ⟨x, hx, -⟩
    exact List.not_mem_nil hx
  | cons x xs ih =>
    obtain ⟨H1, h1, hknown1, htaken1, -⟩ := h.delivery hknown hmode hall (hxs x List.mem_cons_self)
    obtain ⟨H2, h2, hknown2, htaken2⟩ := ih h1 hknown1 fun y hy => hxs y (List.mem_cons_of_mem _ hy)
    refine ⟨H2, h2, hknown2, fun p => ?_⟩
    rw [htaken2, htaken1, or_assoc]
    refine or_congr Iff.rfl ?_
    unfold Delivered
    rw [answeredIn]
    split_ifs with hx
    · rw [List.exists_mem_cons_iff, hx, eq_self_iff_true, true_and]
    · rw [Bool.not_eq_true] at hx
      rw [hx]
      refine ⟨fun hp => hp.resolve_left fun hand => absurd hand.1 Bool.false_ne_true, .inr⟩

theorem Start.settled (d : Digests) (task : Task) (Sent : Uuid → Payload → Prop) (start : Start) :
    Settled d task Sent [] start.tables.toRows := by
  have hnil {α : Type} {p : α → Prop} : ∀ x ∈ ([] : List α), p x :=
    fun _ hx => absurd hx List.not_mem_nil
  refine ⟨rfl, .nil, hnil, hnil, hnil, hnil, fun k => ?_, hnil, hnil⟩
  refine iff_of_false List.not_mem_nil ?_
  rintro ⟨p, hp, -⟩
  exact List.not_mem_nil hp

/-! ## What the deliveries leave -/

def Task.classify (task : Task) (h : Hash) : CodeClassification :=
  (task.code h).elim .unknown (·.classification)

structure Arrived (s : Site) (xs : List (Delivery s)) (r : Rows) : Prop where
  /-- Every code that an event claims has one row, and no other has any. -/
  codes : Table.Unique (·.codeHash) r.codeResults ∧ ∀ h, (∃ y ∈ r.codeResults, y.codeHash = h) ↔
    ∃ p, Delivered xs p ∧ h ∈ p.2.codes s.digests s.task
  /-- The winner is the least of the events that claim the code. -/
  winners : ∀ y ∈ r.codeResults, ∃ p, (Delivered xs p ∧ y.codeHash ∈ p.2.codes s.digests s.task) ∧
    (∀ q, Delivered xs q → y.codeHash ∈ q.2.codes s.digests s.task → p.2.rank p.1 ≤ q.2.rank q.1) ∧
    y.firstAcceptedEventId = p.2.eventId ∧ y.winningDeviceId = p.1 ∧
    y.winningScannedAt.ms = p.2.scannedAt.ms ∧
    y.observedProductionDate = p.2.activeProductionDate ∧
    y.classification = s.task.classify y.codeHash
  /-- A claim is recorded once for every event and code, and is claimed where the event has won. -/
  outcomes : Table.Unique (·.key) r.claimOutcomes ∧
    (∀ k, (∃ c ∈ r.claimOutcomes, c.key = k) ↔
      ∃ p, Delivered xs p ∧ k.1 = p.2.eventId ∧ k.2 ∈ p.2.codes s.digests s.task) ∧
    ∀ c ∈ r.claimOutcomes, c.status = .claimed ↔ r.winner c.codeHash = some c.sourceEventId
  /-- An event is applied where it has won some code. -/
  verdicts : (∀ p, Delivered xs p → ∃ e ∈ r.scanEvents, e.eventId = p.2.eventId ∧ e.deviceId = p.1) ∧
    ∀ e ∈ r.scanEvents, (∃ p, Delivered xs p ∧ e.eventId = p.2.eventId ∧ e.deviceId = p.1) ∧
      e.authoritativeVerdict =
        if ∃ y ∈ r.codeResults, y.firstAcceptedEventId = e.eventId then .applied else .duplicate
  /-- No two events have one id. -/
  distinct : ∀ p q, Delivered xs p → Delivered xs q → p.2.eventId = q.2.eventId → p = q

/-- Two states that differ in nothing but revisions, times of writing, the ids of rows and what a
lost claim says of its winner. -/
structure Alike (r r' : Rows) : Prop where
  codes : ∀ y ∈ r.codeResults, ∃ y' ∈ r'.codeResults, y'.codeHash = y.codeHash ∧
    y'.firstAcceptedEventId = y.firstAcceptedEventId ∧ y'.winningDeviceId = y.winningDeviceId ∧
    y'.winningScannedAt = y.winningScannedAt ∧
    y'.observedProductionDate = y.observedProductionDate ∧ y'.classification = y.classification
  outcomes : ∀ c ∈ r.claimOutcomes, ∃ c' ∈ r'.claimOutcomes, c'.key = c.key ∧ c'.status = c.status
  verdicts : ∀ e ∈ r.scanEvents, ∃ e' ∈ r'.scanEvents, e'.eventId = e.eventId ∧
    e'.deviceId = e.deviceId ∧ e'.authoritativeVerdict = e.authoritativeVerdict

theorem Event.codes_eq (d : Digests) (task : Task) (e : Event) :
    e.codes d task = (e.targets d task).map (·.codeHash) := by
  unfold Event.codes Event.targets
  cases validateAndExpand d task e <;> rfl

theorem targets_classified {d : Digests} {task : Task} {e : Event} {g : ClaimTarget}
    (hg : g ∈ e.targets d task) : g.classification = task.classify g.codeHash := by
  unfold Event.targets at hg
  cases hv : validateAndExpand d task e with
  | error code =>
    rw [hv] at hg
    exact absurd hg List.not_mem_nil
  | ok targets =>
    rw [hv] at hg
    unfold validateAndExpand at hv
    obtain ⟨_, -, hv⟩ := bind_eq_ok.1 hv
    by_cases hkind : e.kind = .repackAction
    · rw [if_pos hkind] at hv
      unfold validateRepackAction at hv
      split_ifs at hv
      split at hv
      · split_ifs at hv
        obtain rfl := Except.ok.inj hv
        exact absurd hg List.not_mem_nil
      · obtain rfl := Except.ok.inj hv
        exact absurd hg List.not_mem_nil
    · rw [if_neg hkind] at hv
      cases hraw : e.canonicalRaw with
      | none =>
        simp only [hraw] at hv
        cases hv
      | some raw =>
        simp only [hraw] at hv
        split_ifs at hv
        · unfold validateItem at hv
          split at hv
          · split_ifs at hv
            simp only at hv
            split_ifs at hv
            obtain rfl := Except.ok.inj hv
            rw [List.mem_singleton.1 hg]
            rfl
          · cases hv
        · unfold validateBox at hv
          split at hv
          · cases hv
          · split_ifs at hv
            split at hv
            · split_ifs at hv
              obtain rfl := Except.ok.inj hv
              exact absurd hg List.not_mem_nil
            · simp only at hv
              split_ifs at hv
              obtain rfl := Except.ok.inj hv
              obtain ⟨c, hc, rfl⟩ := List.mem_map.1 hg
              have hmem : c ∈ task.codes := by
                have hsorted := List.mem_of_mem_take hc
                rw [List.mem_insertionSort] at hsorted
                exact (List.mem_filter.1 hsorted).1
              unfold Task.classify Task.code
              rw [task.distinct.find? hmem]
              rfl

theorem Settled.arrived {d : Digests} {Sent : Uuid → Payload → Prop} {H : List (Uuid × Event)}
    {xs : List (Delivery s)} (hd : d = s.digests) (h : Settled d s.task Sent H t.toRows)
    (hH : ∀ p, p ∈ H ↔ Delivered xs p) : Arrived s xs t.toRows := by
  subst hd
  have hunique := t.kept.scans.currentClaims
  have hclaim : ∀ (p : Uuid × Event) (g : ClaimTarget), g ∈ p.2.targets s.digests s.task →
      g.codeHash ∈ p.2.codes s.digests s.task := fun p g hg => by
      rw [Event.codes_eq]
      exact List.mem_map_of_mem hg
  have htarget : ∀ (p : Uuid × Event) hash, hash ∈ p.2.codes s.digests s.task →
      ∃ g ∈ p.2.targets s.digests s.task, g.codeHash = hash := fun p hash hc => by
    rw [Event.codes_eq] at hc
    exact List.mem_map.1 hc
  have hwon : ∀ c ∈ t.claimOutcomes, c.Won t.codeResults ↔
      t.toRows.winner c.codeHash = some c.sourceEventId := by
    intro c hc
    constructor
    · rintro ⟨y, hy, hh, hfirst⟩
      rw [← hh, winner_eq hunique hy, hfirst]
    · exact mem_of_winner
  refine ⟨⟨hunique, fun hash => ?_⟩, fun y hy => ?_, ⟨t.kept.scans.claims, fun k => ?_, fun c hc => ?_⟩,
    ⟨fun p hp => ?_, fun e he => ⟨?_, ?_⟩⟩, fun p q hp hq hid => ?_⟩
  · constructor
    · rintro ⟨y, hy, rfl⟩
      obtain ⟨p, hp, g, hg, hshown⟩ := h.source y hy
      exact ⟨p, (hH p).1 hp, hshown.codeHash ▸ hclaim p g hg⟩
    · rintro ⟨p, hp, hc⟩
      obtain ⟨g, hg, rfl⟩ := htarget p hash hc
      exact h.present p ((hH p).2 hp) g hg
  · obtain ⟨p, hp, g, hg, hshown⟩ := h.source y hy
    refine ⟨p, ⟨(hH p).1 hp, hshown.codeHash ▸ hclaim p g hg⟩, fun q hq hc => ?_, hshown.event,
      hshown.device, hshown.instant, hshown.observed, ?_⟩
    · obtain ⟨g', hg', hh⟩ := htarget q _ hc
      rw [← show y.rank = p.2.rank p.1 from hshown.rank]
      exact h.least q ((hH q).2 hq) g' hg' y hy hh.symm
    · rw [hshown.classification, hshown.codeHash]
      exact targets_classified hg
  · rw [← List.mem_map, h.claims]
    constructor
    · rintro ⟨p, hp, g, hg, rfl⟩
      exact ⟨p, (hH p).1 hp, rfl, hclaim p g hg⟩
    · rintro ⟨p, hp, h1, h2⟩
      obtain ⟨g, hg, hh⟩ := htarget p _ h2
      exact ⟨p, (hH p).2 hp, g, hg, Prod.ext h1 hh.symm⟩
  · rw [h.judged c hc, hwon c hc]
  · obtain ⟨row, hrow, hid⟩ := forall₂_mem h.ledger ((hH p).2 hp)
    exact ⟨row, hrow, hid⟩
  · obtain ⟨p, hp, hid⟩ := forall₂_mem h.ledger.flip he
    exact ⟨p, (hH p).1 hp, hid⟩
  · rw [h.verdicts e he]
    unfold verdictOf
    refine if_congr ?_ rfl rfl
    rw [List.any_eq_true]
    constructor
    · rintro ⟨c, hc, hand⟩
      rw [Bool.and_eq_true, beq_iff_eq, beq_iff_eq] at hand
      obtain ⟨y, hy, -, hfirst⟩ := (h.judged c hc).1 hand.2
      exact ⟨y, hy, hfirst.trans hand.1⟩
    · rintro ⟨y, hy, hfirst⟩
      obtain ⟨p, hp, g, hg, hshown⟩ := h.source y hy
      obtain ⟨c, hc, hk⟩ := List.mem_map.1 ((h.claims (p.2.eventId, g.codeHash)).2
        ⟨p, hp, g, hg, rfl⟩)
      have hsource : c.sourceEventId = e.eventId :=
        (congrArg Prod.fst hk).trans (hshown.event.symm.trans hfirst)
      refine ⟨c, hc, ?_⟩
      rw [Bool.and_eq_true, beq_iff_eq, beq_iff_eq]
      refine ⟨hsource, (h.judged c hc).2 ⟨y, hy, ?_, hfirst.trans hsource.symm⟩⟩
      exact hshown.codeHash.trans (congrArg Prod.snd hk).symm
  · have hids : (H.map fun p => p.2.eventId).Nodup := by
      have hrows := t.kept.scans.events
      have hmap : t.scanEvents.map (·.eventId) = H.map fun p => p.2.eventId := by
        symm
        rw [← List.forall₂_eq_eq_eq, List.forall₂_map_left_iff, List.forall₂_map_right_iff]
        exact h.ledger.imp fun _ _ hrow => hrow.1.symm
      rw [Table.Unique, hmap] at hrows
      exact hrows
    exact List.inj_on_of_nodup_map hids ((hH p).2 hp) ((hH q).2 hq) hid

/-- Two states that the same events have settled are alike. -/
theorem Arrived.alike {xs xs' : List (Delivery s)} {r r' : Rows} (h : Arrived s xs r)
    (h' : Arrived s xs' r') (hsame : ∀ p, Delivered xs p ↔ Delivered xs' p) : Alike r r' := by
  -- the winner of a code is the same event
  have hwinner : ∀ y ∈ r.codeResults, ∀ y' ∈ r'.codeResults, y'.codeHash = y.codeHash →
      y'.firstAcceptedEventId = y.firstAcceptedEventId ∧ y'.winningDeviceId = y.winningDeviceId ∧
      y'.winningScannedAt = y.winningScannedAt ∧
      y'.observedProductionDate = y.observedProductionDate ∧
      y'.classification = y.classification := by
    intro y hy y' hy' hh
    obtain ⟨p, ⟨hp, hpc⟩, hleast, h1, h2, h3, h4, h5⟩ := h.winners y hy
    obtain ⟨q, ⟨hq, hqc⟩, hleast', h1', h2', h3', h4', h5'⟩ := h'.winners y' hy'
    have hrank : p.2.rank p.1 = q.2.rank q.1 :=
      le_antisymm (hleast q ((hsame q).2 hq) (hh ▸ hqc)) (hleast' p ((hsame p).1 hp) (hh.symm ▸ hpc))
    have hid : p.2.eventId = q.2.eventId :=
      congrArg (fun r : Rank => (ofLex (ofLex r).2).2) hrank
    obtain rfl := h.distinct p q hp ((hsame q).2 hq) hid
    exact ⟨h1'.trans h1.symm, h2'.trans h2.symm, Stamp.ext_ms (h3'.trans h3.symm),
      h4'.trans h4.symm, by rw [h5', h5, hh]⟩
  have hrow : ∀ y ∈ r.codeResults, ∃ y' ∈ r'.codeResults, y'.codeHash = y.codeHash := by
    intro y hy
    obtain ⟨p, hp, hc⟩ := (h.codes.2 y.codeHash).1 ⟨y, hy, rfl⟩
    exact (h'.codes.2 y.codeHash).2 ⟨p, (hsame p).1 hp, hc⟩
  have hrow' : ∀ y' ∈ r'.codeResults, ∃ y ∈ r.codeResults, y'.codeHash = y.codeHash := by
    intro y' hy'
    obtain ⟨p, hp, hc⟩ := (h'.codes.2 y'.codeHash).1 ⟨y', hy', rfl⟩
    obtain ⟨y, hy, hh⟩ := (h.codes.2 y'.codeHash).2 ⟨p, (hsame p).2 hp, hc⟩
    exact ⟨y, hy, hh.symm⟩
  refine ⟨fun y hy => ?_, fun c hc => ?_, fun e he => ?_⟩
  · obtain ⟨y', hy', hh⟩ := hrow y hy
    exact ⟨y', hy', hh, hwinner y hy y' hy' hh⟩
  · obtain ⟨p, hp, hk⟩ := (h.outcomes.2.1 c.key).1 ⟨c, hc, rfl⟩
    obtain ⟨c', hc', hkey⟩ := (h'.outcomes.2.1 c.key).2 ⟨p, (hsame p).1 hp, hk⟩
    have hsource : c'.sourceEventId = c.sourceEventId := congrArg Prod.fst hkey
    have hhash : c'.codeHash = c.codeHash := congrArg Prod.snd hkey
    refine ⟨c', hc', hkey, ?_⟩
    have hiff : c'.status = .claimed ↔ c.status = .claimed := by
      rw [h.outcomes.2.2 c hc, h'.outcomes.2.2 c' hc', hsource, hhash]
      constructor
      · intro hw
        obtain ⟨y', hy', hyh, hfirst⟩ := mem_of_winner hw
        obtain ⟨y, hy, hh⟩ := hrow' y' hy'
        rw [← hyh, hh, winner_eq h.codes.1 hy, ← (hwinner y hy y' hy' hh).1, hfirst]
      · intro hw
        obtain ⟨y, hy, hyh, hfirst⟩ := mem_of_winner hw
        obtain ⟨y', hy', hh⟩ := hrow y hy
        rw [← hyh, ← hh, winner_eq h'.codes.1 hy', (hwinner y hy y' hy' hh).1, hfirst]
    cases hs : c.status with
    | claimed => exact hiff.2 hs
    | duplicate =>
      cases hs' : c'.status with
      | claimed => rw [hiff.1 hs'] at hs; cases hs
      | duplicate => rfl
  · obtain ⟨⟨p, hp, hid, hdevice⟩, hv⟩ := h.verdicts.2 e he
    obtain ⟨e', he', hid', hdevice'⟩ := h'.verdicts.1 p ((hsame p).1 hp)
    have hsameId : e'.eventId = e.eventId := hid'.trans hid.symm
    refine ⟨e', he', hsameId, hdevice'.trans hdevice.symm, ?_⟩
    rw [hv, (h'.verdicts.2 e' he').2, hsameId]
    refine if_congr ?_ rfl rfl
    constructor
    · rintro ⟨y', hy', hfirst⟩
      obtain ⟨y, hy, hh⟩ := hrow' y' hy'
      exact ⟨y, hy, (hwinner y hy y' hy' hh).1.symm.trans hfirst⟩
    · rintro ⟨y, hy, hfirst⟩
      obtain ⟨y', hy', hh⟩ := hrow y hy
      exact ⟨y', hy', (hwinner y hy y' hy' hh).1.trans hfirst⟩

theorem deliver_settled (hmode : s.task.mode = .check) (start : Start) {all xs : List (Delivery s)}
    (hall : Sound all) (hxs : ∀ x ∈ xs, x ∈ all) :
    ∃ H, Settled s.digests s.task (SentIn all) H (deliver start.tables xs).toRows ∧
      (deliver start.tables xs).toRows.Known ∧
      ∀ p, p ∈ H ↔ Delivered (answeredIn start.tables xs) p := by
  obtain ⟨H, hsettled, hknown, hH⟩ := (start.settled s.digests s.task (SentIn all)).deliver
    (fun _ hy => absurd hy List.not_mem_nil) hmode hall hxs
  refine ⟨H, hsettled, hknown, fun p => ?_⟩
  rw [hH]
  exact ⟨fun hp => hp.resolve_left List.not_mem_nil, .inr⟩

end


namespace Sample

/-- The sample inventory, in check mode. -/
def checked : Site := { site with task := { task with mode := .check } }

/-- A scan of the code with this serial. -/
def scan (n : ℕ) (minute : Fin 60) (serial : ℕ) : Event :=
  ⟨n, n, 8, instant minute, .item, Utf16.encode "item:" ++ (hash serial).1, some (hash serial),
    some (raw serial), some date, .expected, none⟩

/-- Two devices have scanned one code, the second one first. -/
def later : Delivery checked :=
  ⟨env, 7, batch "later" [scan 1 2 1, scan 2 3 2], by decide +kernel⟩

def sooner : Delivery checked :=
  ⟨{ env with changeId := fun h => env.changeId h + 10 }, 9, batch "sooner" [scan 105 1 1],
    by decide +kernel⟩

theorem scans_sound {xs : List (Delivery checked)} (hxs : ∀ x ∈ xs, x = later ∨ x = sooner) :
    Sound xs := by
  constructor
  · intro x hx
    rcases hxs x hx with rfl | rfl
    · decide +kernel
    · decide +kernel
  · intro x hx y hy hdevice _
    rcases hxs x hx with rfl | rfl <;> rcases hxs y hy with rfl | rfl
    · rfl
    · exact absurd hdevice (by decide)
    · exact absurd hdevice (by decide)
    · rfl

end Sample

end Markiro.InventorySync
