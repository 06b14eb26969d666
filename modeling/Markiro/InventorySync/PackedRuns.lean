import Markiro.InventorySync.PackingSteps
import Markiro.InventorySync.ProgressRuns

/-!
# The boxes over whole runs

1. the actions of a batch put every code it won into a box of its device (`Packing.actions`);
2. a run whose removals by the cabinet take the last item of a box, and whose conflicts are resolved
   with no other box open, keeps the boxes packed (`boxes_packed`);
3. without either condition a box is left with a gap, or a device with two open boxes.
-/

namespace Markiro.InventorySync

open Results

/-! ## The actions of a batch -/

/-- In the actions that are left, a conflict is resolved only while its device has no open box. -/
def ResolvesFree (task : Task) (env : Env) (D : Uuid) : Tables → List
    (Expanded × EventOutcome) → Prop
  | _, [] => True
  | t, (x, o) :: rest =>
    ∀ t', (if x.rejected then .ok t else applyRepackMutation task env D x.event o t) = .ok t' →
      (x.rejected = false → x.event.resolves = true → ∀ b ∈ t.boxes, b.openOf D = false) ∧
        ResolvesFree task env D t' rest

section

variable {d : Digests} {task : Task} {env : Env} {D : Uuid} {t t' : Tables}

theorem Packing.imp {p q : CodeResult → Prop} {r : Rows} (h : Packing task p r)
    (hpq : ∀ b ∈ r.boxes, ∀ i ∈ activeItems r b.id, ∀ y ∈ r.codeResults, y.id = i.resultId → p y →
      y.winningDeviceId = b.ownerDeviceId ∨ q y) : Packing task q r :=
  { h with
    boxes := fun b hb =>
      have hh := h.boxes b hb
      ⟨hh.opened, hh.closed, hh.positions, fun hne i hi y hy hid =>
        (hh.winners hne i hi y hy hid).elim .inl (hpq b hb i hi y hy hid), hh.prints⟩ }

theorem Decided.applied {x : Expanded} {o : EventOutcome} (hd : Decided t.codeResults x o)
    {g : ClaimTarget} (hclaims : x.claims = [g]) (hrej : x.rejected = false) {y : CodeResult}
    (hy : y ∈ t.codeResults) (hcode : g.codeHash = y.codeHash)
    (hfirst : x.event.eventId = y.firstAcceptedEventId) : o.status = .applied := by
  cases hd with
  | rejected h =>
    rw [hrej] at h
    cases h
  | decided _ winners hwinners =>
    rw [hclaims] at hwinners
    cases hwinners with
    | cons hw hnil =>
      cases hnil
      obtain ⟨hw, hhash⟩ := hw
      obtain rfl := t.kept.scans.currentClaims.eq hw hy (hhash.trans hcode)
      simp [claimsOutcome, claimAgainst, hfirst]

/-- **The action of the event that has won a code puts it into a box of its device.** -/
theorem Added.settled {e : Event} {o : EventOutcome} {box : RepackBox}
    (ha : Added env D e o box t.toRows t'.toRows) (hbox : box ∈ t.boxes)
    (howner : box.ownerDeviceId = D) (hopen : box.state = .opened) (happ : o.status = .applied)
    {b : RepackBox} (hb : b ∈ t'.boxes) {i : RepackItem} (hi : i ∈ activeItems t'.toRows b.id)
    {y : CodeResult} (hy : y ∈ t.codeResults) (hid : y.id = i.resultId)
    (hcode : e.codeHash = some y.codeHash) : b.ownerDeviceId = D := by
  generalize hr : t'.toRows = r' at ha
  cases ha with
  | lost hlost => exact absurd happ hlost
  | member codeHash result mismatch itemId n addedAt hcode' hresult hhash hwon hn hroom =>
    have hsame : result = y := t.kept.scans.currentClaims.eq hresult hy
      (hhash.trans (Option.some.inj (hcode'.symm.trans hcode)))
    have hnew : newItem mismatch e box result.id itemId (n + 1) addedAt ∈ t'.items := by
      rw [hr, inserted]
      split_ifs <;> exact List.mem_append_right _ List.mem_cons_self
    obtain ⟨h1, h2, h3⟩ := mem_activeItems.1 hi
    have hitem : i = newItem mismatch e box result.id itemId (n + 1) addedAt :=
      t'.kept.items.activeResults.eq (List.mem_filter.2 ⟨h1, h2⟩)
        (List.mem_filter.2 ⟨hnew, rfl⟩) (hid.symm.trans (congrArg CodeResult.id hsame.symm))
    have hbeside : t.toRows.Beside (inserted e box env.now
        (newItem mismatch e box result.id itemId (n + 1) addedAt)
        (retired env.now result.id t.toRows)) :=
      inserted_beside result.id t.kept.boxes.ids hbox hopen
    obtain ⟨b', hb', hbecomes⟩ := hbeside.boxes box hbox
    rw [← hr] at hb'
    have hbb : b = b' := by
      refine t'.kept.boxes.ids.eq hb hb' ?_
      rw [hbecomes.id, ← h3, hitem]
      rfl
    rw [hbb, hbecomes.owner, howner]

/-- What is known of the events of a batch whose actions are still to be applied. -/
structure Pair (d : Digests) (task : Task) (D : Uuid) (t : Tables) (p : Expanded × EventOutcome) :
    Prop where
  sound : p.1.Sound d task
  decided : Decided t.codeResults p.1 p.2
  mine : ∀ y ∈ t.codeResults, y.firstAcceptedEventId = p.1.event.eventId → y.winningDeviceId = D

theorem Pair.later {p : Expanded × EventOutcome} (h : Pair d task D t p)
    (hresults : t'.codeResults = t.codeResults) : Pair d task D t' p :=
  ⟨h.sound, hresults ▸ h.decided, hresults ▸ h.mine⟩

/-- **The actions of a batch keep the boxes, and settle what its claims have left open.** -/
theorem Packing.actions {xs : List (Expanded × EventOutcome)} (hmode : task.mode = .repack)
    (h : Packing task (pendingIn D (xs.map (·.1))) t.toRows) (hxs : ∀ p ∈ xs, Pair d task D t p)
    (hfree : ResolvesFree task env D t xs)
    (happly : applyRepackMutations task env D t xs = .ok t') :
    Packing task (fun _ => False) t'.toRows := by
  induction xs generalizing t with
  | nil =>
    obtain rfl := Except.ok.inj happly
    exact h.imp fun _ _ _ _ _ _ _ ⟨_, x, hx, _⟩ => absurd hx List.not_mem_nil
  | cons p xs ih =>
    obtain ⟨x, o⟩ := p
    rw [applyRepackMutations] at happly
    obtain ⟨t1, h1, happly⟩ := bind_eq_ok.1 happly
    obtain ⟨hresolves, hfree⟩ := hfree t1 h1
    have hx := hxs _ List.mem_cons_self
    cases hrej : x.rejected with
    | true =>
      rw [hrej, if_pos rfl] at h1
      obtain rfl := Except.ok.inj h1
      refine ih (h.imp fun b hb i hi y hy hid hp => .inr ?_)
        (fun p hp => hxs p (List.mem_cons_of_mem _ hp)) hfree happly
      obtain ⟨hwinner, x', hx', hfirst, g, hg, hcode⟩ := hp
      rcases List.mem_cons.1 hx' with rfl | hx'
      · rw [(hx.sound.claim hmode hg).1] at hrej
        cases hrej
      · exact ⟨hwinner, x', hx', hfirst, g, hg, hcode⟩
    | false =>
      rw [hrej, if_neg Bool.false_ne_true] at h1
      have hacted := applyRepackMutation_ok h1
      have hresults := (hacted.beside t.kept.boxes.ids).codeResults
      have hpacked := h.acted t.kept t1.kept hacted (hresolves hrej) (hx.sound.adds hmode hrej)
        hx.mine
      refine ih (hpacked.imp fun b hb i hi y hy hid hp => ?_)
        (fun p hp => (hxs p (List.mem_cons_of_mem _ hp)).later hresults) hfree happly
      obtain ⟨hwinner, x', hx', hfirst, g, hg, hcode⟩ := hp
      rcases List.mem_cons.1 hx' with rfl | hx'
      · obtain ⟨-, hclaims, hcodeHash, helig⟩ := hx.sound.claim hmode hg
        have hy' : y ∈ t.codeResults := hresults ▸ hy
        have hadds : x'.event.adds = true := by
          rw [← helig, hcode]
          exact hpacked.eligible i (mem_activeItems.1 hi).1 y hy hid
        obtain ⟨box, hbox, howner, hopen, hadded⟩ := applyRepackMutation_adds h1 hadds
        have happ := hx.decided.applied hclaims hrej hy' hcode hfirst
        exact .inl (hwinner.trans (hadded.settled hbox howner hopen happ hb hi hy' hid
          (hcode ▸ hcodeHash)).symm)
      · exact .inr ⟨hwinner, x', hx', hfirst, g, hg, hcode⟩

end

/-! ## A whole batch -/

section

variable {d : Digests} {task : Task} {env : Env} {D : Uuid} {b : EventBatch} {t t' : Tables}
  {a : BatchResponse} {xs : List Expanded}

/-- In the actions of a batch, a conflict is resolved only while its device has no open box. -/
def BatchFree (d : Digests) (task : Task) (env : Env) (D : Uuid) (b : EventBatch) (t : Tables) :
    Prop :=
  t.status = .running → ∀ xs t1 s os t2, expandAll d task 0 b.events = .ok xs →
    recordBatch D b xs t = .ok t1 → claimAll task env D ⟨t1, [], []⟩ xs = .ok s →
      outcomesOf s.tables xs = .ok (os, t2) → ResolvesFree task env D t2 (xs.zip os)

/-- What the boxes keep between the transactions. -/
abbrev Kempt (task : Task) (r : Rows) : Prop := Packing task (fun _ => False) r

theorem Packing.published {changed : List ChangedCode} (h : Kempt task t.toRows)
    (hpublish : publish env D changed t = .ok t') : Kempt task t'.toRows := by
  by_cases hnone : changed = []
  · rw [publish, if_pos hnone] at hpublish
    obtain rfl := Except.ok.inj hpublish
    exact h
  · obtain ⟨rows, hrows, -⟩ := publish_ok hpublish hnone
    rw [hrows]
    exact h.congr rfl rfl rfl rfl

/-- **A batch that is applied keeps the boxes.** -/
theorem Packing.applied (h : Kempt task t.toRows) (hknown : t.toRows.Known)
    (hmode : task.mode = .repack) (hsound : ∀ x ∈ xs, x.Sound d task)
    (hfresh : ∀ x ∈ xs, x.event.eventId ∉ t.scanEvents.map (·.eventId))
    (hfree : ∀ t1 s os t2, recordBatch D b xs t = .ok t1 →
      claimAll task env D ⟨t1, [], []⟩ xs = .ok s → outcomesOf s.tables xs = .ok (os, t2) →
        ResolvesFree task env D t2 (xs.zip os))
    (happly : applyBatch task env D b xs t = .ok (a, t')) : Kempt task t'.toRows := by
  unfold applyBatch at happly
  obtain ⟨t1, h1, happly⟩ := bind_eq_ok.1 happly
  obtain ⟨s, hs, happly⟩ := bind_eq_ok.1 happly
  obtain ⟨⟨os, t2⟩, h2, happly⟩ := bind_eq_ok.1 happly
  obtain ⟨t3, h3, happly⟩ := bind_eq_ok.1 happly
  obtain ⟨t4, h4, happly⟩ := bind_eq_ok.1 happly
  obtain ⟨t5, h5, happly⟩ := bind_eq_ok.1 happly
  obtain ⟨t6, h6, happly⟩ := bind_eq_ok.1 happly
  obtain ⟨-, rfl⟩ := pair_eq_ok.1 happly
  obtain ⟨rows, hrows, -⟩ := recordBatch_ok h1
  have hpacked0 : Packing task (pendingIn D xs) t.toRows :=
    h.imp fun _ _ _ _ _ _ _ hf => hf.elim
  have hpacked1 : Packing task (pendingIn D xs) t1.toRows := by
    rw [hrows]
    exact hpacked0.congr rfl rfl rfl rfl
  have hled := claimAll_led hs
  rw [show t1.codeResults = t.codeResults by rw [hrows]] at hled
  have hpacked2 : Packing task (pendingIn D xs) s.tables.toRows :=
    claimAll_inv (P := fun s => Packing task (pendingIn D xs) s.tables.toRows)
      (fun _ hx _ hg _ _ hp hstep => hp.claimed hx hg hstep) hpacked1 hs
  obtain ⟨hdecided, hrecorded⟩ := outcomesOf_ok h2
  obtain ⟨hfst, hpairs⟩ := zip_of_forall₂ hdecided
  have hpacked3 : Packing task (fun _ => False) t3.toRows := by
    refine (show Packing task (pendingIn D ((xs.zip os).map (·.1))) t2.toRows by
      rw [hfst]; exact hpacked2.recorded hrecorded).actions (d := d) hmode (fun p hp => ?_)
      (hfree t1 s os t2 h1 hs h2) h3
    obtain ⟨hx, hd⟩ := hpairs p hp
    refine ⟨hsound p.1 hx, by rw [hrecorded.codeResults]; exact hd, fun y hy hfirst => ?_⟩
    rw [hrecorded.codeResults] at hy
    rcases hled.source y hy with hy | ⟨c, -, hshown⟩
    · exact (hknown.fresh hy (hfirst ▸ hfresh p.1 hx)).elim
    · exact hshown.device
  exact (Packing.published (hpacked3.recorded (reviseVerdicts_recorded h4)) h5).recorded
    (change_recorded h6 (setBatchResult_recorded _ _ _))

/-- In a batch that is applied, conflicts are resolved with no other box open. -/
def IngestFree (d : Digests) (task : Task) (env : Env) (D : Uuid) (b : EventBatch) (t : Tables) :
    Prop :=
  Unsent D b t → BatchFree d task env D b t

theorem Packing.served {request : Option Uuid} (h : Kempt task t.toRows) (hknown : t.toRows.Known)
    (hmode : task.mode = .repack) (haccepted : ∀ e ∈ b.events, e.Accepted)
    (hfree : IngestFree d task env D b t)
    (hlate : request ≠ none → ∀ t1, t.change (withoutQuarantined D b.batchId) = .ok t1 →
      IngestFree d task env D b t1)
    (hserved : Served d task env D b request t a t') : Kempt task t'.toRows := by
  cases hserved with
  | stored same hsame hdigest hanswer => exact h.recorded (normalizeStoredResponse_recorded hanswer)
  | other replay t1 hfrom hanswered =>
    have h1 := h.recorded hfrom.recorded
    have hfree1 : IngestFree d task env D b t1 := by
      cases hfrom with
      | fresh => exact hfree
      | again id t1 hasked hrunning same hsame hdigest hquarantined hrows =>
        exact hlate (hasked ▸ nofun) t1 (Tables.change_ok.2 hrows)
    cases hanswered with
    | repeated same hsame hanswer => exact h1.recorded (answerSameDigest_recorded hanswer)
    | quarantined hnew hclosed xs hxs hanswer => exact h1.recorded (quarantine_recorded hanswer)
    | applied hnew hadmitted xs hxs t2 hanswer hlast =>
      obtain ⟨hevents, htargets⟩ := expandAll_ok hxs
      have hmem : ∀ x ∈ xs, x.event ∈ b.events := fun x hx =>
        hevents ▸ List.mem_map_of_mem (f := fun x : Expanded => x.event) hx
      refine Packing.recorded ?_ (late_recorded hlast)
      exact Packing.applied (d := d) h1 (hknown.recorded hfrom.recorded) hmode
        (fun x hx => ⟨haccepted _ (hmem x hx), htargets x hx⟩)
        (fun x hx => hadmitted.newIds _ (hmem x hx))
        (fun t3 s os t4 => hfree1 hnew hadmitted.running xs t3 s os t4 hxs) hanswer

end

/-! ## Careful runs -/

section

variable {s : Site} {t t' : Tables}

def RemovesLast (s : Site) (input : CorrectionRequest) (t : Tables) : Prop :=
  ∀ resultId, input.target = .removeItem resultId →
    t.corrections.find? (·.id = s.ids.correction input.idempotencyKey) = none →
    t.status = .running → t.resultRevision = input.expectedResultRevision →
    ∀ i ∈ t.items, i.active = true → i.resultId = resultId →
      (∃ b ∈ t.boxes, b.id = i.boxId ∧ b.state = .opened) →
      ∀ j ∈ activeItems t.toRows i.boxId, j.position ≤ i.position

/-- The call takes no item from the middle of a box and opens no second box. -/
def Call.Careful (t : Tables) : Call s → Prop
  | .ingest env D b => IngestFree s.digests s.task env D b.1 t
  | .replay env D b _ => IngestFree s.digests s.task env D b.1 t ∧
      ∀ t', t.change (withoutQuarantined D b.1.batchId) = .ok t' →
        IngestFree s.digests s.task env D b.1 t'
  | .correct _ _ input => RemovesLast s input t
  | _ => True

def CarefulRun (t : Tables) : List (Call s) → Prop
  | [] => True
  | c :: calls => c.Careful t ∧ CarefulRun (c.after t) calls

theorem Packing.correct {changeId : Hash → Uuid} {changedAt : Stamp} {input : CorrectionRequest}
    {c : Correction} (h : Kempt s.task t.toRows) (hlast : RemovesLast s input t)
    (hcorrect : correct s.ids changeId changedAt input t = .ok (c, t')) :
    Kempt s.task t'.toRows := by
  obtain rfl | ⟨⟨hnew, hrunning, hrevision⟩, -, -, r, hr, hrows⟩ := correct_ok hcorrect
  · exact h
  rw [RemovesLast] at hlast
  generalize input.target = target at hr hlast
  cases hr with
  | code _ result f hresult hkeeps hdate hstream =>
    exact h.codes (by rw [hrows]) fun x => ⟨(hkeeps x).1, (hkeeps x).2.1, (hkeeps x).2.2.2⟩
  | removed resultId item box removedAt hitem hactive hresult hbox hid hopen hnamed =>
    have htop := hlast resultId rfl hnew hrunning hrevision item hitem hactive hresult
      ⟨box, hbox, hid, hopen⟩
    rw [← hid] at htop
    have hitems : item ∈ activeItems t.toRows box.id :=
      mem_activeItems.2 ⟨hitem, hactive, hid.symm⟩
    rw [hrows]
    exact Packing.congr (h.removeLast t.kept hbox hopen hitems htop) rfl rfl rfl rfl
  | invalidated box hbox hstate hnamed =>
    rw [hrows]
    exact Packing.congr (h.changeBox (f := (·.invalidatedByAdmin changedAt)) t.kept.boxes.ids hbox
      rfl rfl nofun ((h.boxes box hbox).invalidate rfl rfl)) rfl rfl rfl rfl
  | reprinted box hbox hnamed =>
    rw [hrows]
    exact h.congr rfl rfl rfl rfl

theorem Packing.correctBatch {changeId : Hash → Uuid} {changedAt : Stamp}
    {input : CorrectionBatchRequest} {batch : CorrectionBatch} (h : Kempt s.task t.toRows)
    (hcorrect : correctBatch s.ids changeId changedAt input t = .ok (batch, t')) :
    Kempt s.task t'.toRows := by
  obtain rfl | ⟨-, batchId, digest, events, targets, -, hrows⟩ := correctBatch_ok hcorrect
  · exact h
  rw [hrows]
  exact h.codes (p := fun c => decide (c.id ∈ targets.map (·.before.id)))
    (f := input.action.after changedAt) rfl fun x =>
      ⟨input.action.after_id changedAt x, input.action.after_codeHash changedAt x,
        (input.action.after_winner changedAt x).2⟩

/-- **A careful call keeps the boxes.** -/
theorem Packing.call {c : Call s} (h : Kempt s.task t.toRows) (hknown : t.toRows.Known)
    (hmode : s.task.mode = .repack) (hcareful : c.Careful t) (hserve : c.serve t = .ok t') :
    Kempt s.task t'.toRows := by
  cases Call.serve_does hserve with
  | @ingest env D b a h1 =>
    exact Packing.served h hknown hmode b.2.events hcareful (fun hne => absurd rfl hne)
      (ingestBatch_ok h1).2
  | @replay env D late b a h1 =>
    exact Packing.served h hknown hmode b.2.events hcareful.1 (fun _ => hcareful.2)
      (ingestBatch_ok h1).2
  | correct h1 => exact Packing.correct h hcareful h1
  | correctBatch h1 => exact Packing.correctBatch h h1
  | other status revision participants ssccBlocks lateEvents hle hrows =>
    rw [hrows]
    exact h.congr rfl rfl rfl rfl

theorem Start.kempt (task : Task) (start : Start) : Kempt task start.tables.toRows :=
  have hnil {α : Type} {p : α → Prop} : ∀ x ∈ ([] : List α), p x :=
    fun _ hx => absurd hx List.not_mem_nil
  ⟨hnil, hnil, hnil, hnil⟩

theorem Packing.run {calls : List (Call s)} (h : Kempt s.task t.toRows) (hknown : t.toRows.Known)
    (hmode : s.task.mode = .repack) (hcareful : CarefulRun t calls) : Kempt s.task
    (calls.foldl Call.after t).toRows := by
  induction calls generalizing t with
  | nil => exact h
  | cons c calls ih =>
    obtain ⟨hc, hcareful⟩ := hcareful
    have hkept : Kempt s.task (c.after t).toRows ∧ (c.after t).toRows.Known := by
      unfold Call.after
      cases hserve : c.serve t with
      | ok t' => exact ⟨Packing.call h hknown hmode hc hserve, Call.serve_known hknown hserve⟩
      | error e => exact ⟨h, hknown⟩
    exact ih hkept.1 hkept.2 hcareful

/-! ## What the boxes are like -/

/-- The boxes are packed. A box is reopened only before its first print, so the prints since then
are all of its prints. -/
structure Packed (r : Rows) : Prop where
  single : Table.Unique (·.resultId) (r.items.filter (·.active))
  positions : ∀ b ∈ r.boxes, b.state ≠ .invalidated →
    ((activeItems r b.id).map (·.position)).Perm (List.range' 1 (activeItems r b.id).length)
  opened : ∀ b ∈ r.boxes, b.state = .opened → (activeItems r b.id).length < b.capacity
  closed : ∀ b ∈ r.boxes, b.state = .closed →
    1 ≤ (activeItems r b.id).length ∧ (activeItems r b.id).length ≤ b.capacity
  members : ∀ b ∈ r.boxes, b.state ≠ .invalidated → ∀ i ∈ activeItems r b.id,
    ∃ x ∈ r.codeResults, x.id = i.resultId ∧ x.winningDeviceId = b.ownerDeviceId ∧
      x.observedProductionDate = some b.productionDate
  oneOpen : ∀ b ∈ r.boxes, ∀ b' ∈ r.boxes, b.state = .opened → b'.state = .opened →
    b.ownerDeviceId = b'.ownerDeviceId → b = b'
  prints : ∀ b ∈ r.boxes, b.printAttemptCount = r.printAttempts.countP (·.boxId = b.id)
  newSsccs : Table.Unique (·.newSscc) r.boxes

theorem Packing.packed (h : Kempt s.task t.toRows) : Packed t.toRows where
  single := t.kept.items.activeResults
  positions := by
    intro b hb hne
    have hnodup : ((activeItems t.toRows b.id).map (·.position)).Nodup := by
      refine List.Nodup.map_on (fun i hi j hj hp => t.kept.positions_inj hi hj hp) ?_
      exact (List.Nodup.of_map _ t.kept.items.ids).filter _
    refine (List.subperm_of_subset hnodup fun p hp => ?_).perm_of_length_le ?_
    · obtain ⟨i, hi, rfl⟩ := List.mem_map.1 hp
      have h1 := (h.boxes b hb).positions hne i hi
      have h2 := t.kept.items.positions i (mem_activeItems.1 hi).1
      rw [List.mem_range'_1]
      omega
    · rw [List.length_range', List.length_map]
  opened := fun b hb => (h.boxes b hb).opened
  closed := fun b hb => (h.boxes b hb).closed
  members := by
    intro b hb hne i hi
    obtain ⟨h1, h2, h3⟩ := mem_activeItems.1 hi
    have hdates := t.kept.items.datesKept i h1
    unfold RepackItem.datesKept at hdates
    rw [RepackItem.active, Option.isNone_iff_eq_none] at h2
    rw [h2] at hdates
    obtain ⟨x, hx, hid, hobserved⟩ := t.kept.items.resultDates i h1 i.productionDate hdates
    obtain ⟨b', hb', hbid, hdate⟩ := t.kept.items.boxDates i h1
    obtain rfl := t.kept.boxes.ids.eq hb' hb (hbid.trans h3)
    refine ⟨x, hx, hid, ?_, by rw [hobserved, hdate]⟩
    exact ((h.boxes b' hb).winners hne i hi x hx hid).resolve_right id
  oneOpen := fun b hb b' hb' ho ho' hown =>
    t.kept.boxes.ids.eq hb hb' (h.oneOpen b hb b' hb' ho ho' hown)
  prints := fun b hb => (h.boxes b hb).prints
  newSsccs := t.kept.boxes.newSsccs

theorem byAdmin_kept {b : RepackBox} (hb : b ∈ t.boxes) (ha : b.byAdmin) (calls : List (Call s)) :
    ∃ b' ∈ (calls.foldl Call.after t).boxes, b'.id = b.id ∧ b'.byAdmin := by
  induction calls generalizing t b with
  | nil => exact ⟨b, hb, rfl, ha⟩
  | cons c calls ih =>
    have hnext : ∃ b' ∈ (c.after t).boxes, b.Becomes b' := by
      unfold Call.after
      cases hserve : c.serve t with
      | error e => exact ⟨b, hb, .refl b⟩
      | ok t' =>
        obtain ⟨rows, cs, hadv⟩ := c.serve_advanced hserve
        exact hadv.boxes b hb
    obtain ⟨b1, hb1, hbecomes⟩ := hnext
    obtain ⟨b', hb', hid, ha'⟩ := ih hb1 (hbecomes.admin ha)
    exact ⟨b', hb', hid.trans hbecomes.id, ha'⟩

/-- **Careful runs keep the boxes packed**, and a box that the cabinet has invalidated stays so,
whatever follows. -/
theorem boxes_packed (hmode : s.task.mode = .repack) (start : Start) (calls : List (Call s))
    (hcareful : CarefulRun start.tables calls) :
    Packed (run start calls).toRows ∧
      ∀ b ∈ (run start calls).boxes, b.byAdmin → ∀ later : List (Call s),
        ∃ b' ∈ (run start (calls ++ later)).boxes, b'.id = b.id ∧ b'.byAdmin := by
  refine ⟨Packing.packed (Packing.run (start.kempt s.task) (fun _ hy => absurd hy List.not_mem_nil)
    hmode hcareful), fun b hb ha later => ?_⟩
  rw [run, List.foldl_append]
  exact byAdmin_kept hb ha later

end

/-! ## Where a run is not careful -/

section

variable {d : Digests} {task : Task} {env : Env} {D : Uuid}

theorem resolvesFree_of_none {ps : List (Expanded × EventOutcome)}
    (h : ∀ p ∈ ps, p.1.event.resolves = false) (t : Tables) : ResolvesFree task env D t ps := by
  induction ps generalizing t with
  | nil => trivial
  | cons p ps ih =>
    obtain ⟨x, o⟩ := p
    intro t' _
    refine ⟨fun _ hresolves => ?_, ih (fun p hp => h p (List.mem_cons_of_mem _ hp)) t'⟩
    rw [h _ List.mem_cons_self] at hresolves
    cases hresolves

theorem ingestFree_of_none {b : EventBatch} (h : ∀ e ∈ b.events, e.resolves = false) (t : Tables) :
    IngestFree d task env D b t := by
  intro _ _ xs _ _ os t2 hxs _ _ _
  refine resolvesFree_of_none (fun p hp => ?_) t2
  have hx : p.1 ∈ xs := (List.of_mem_zip hp).1
  refine h _ ?_
  rw [← (expandAll_ok hxs).1]
  exact List.mem_map_of_mem (f := fun x : Expanded => x.event) hx

end

namespace Sample

/-- The cabinet takes the code of this result out of its box. -/
def removal (resultId : Uuid) : Call site :=
  .correct (fun _ => 5) now ⟨.removeItem resultId, [], 1, []⟩

/-- Another device has put a code aside before. -/
def earlier : site.Batch :=
  ⟨batch "earlier" [opening 104 3, adding 105 (instant 1) 3 1 1], by decide +kernel⟩

/-- A box loses its code, a second one is opened, and the conflict of the first is resolved. -/
def contested : site.Batch :=
  ⟨batch "contested" [opening 1 1, adding 2 (instant 2) 1 1 1, opening 3 2, resolving 4 1],
    by decide +kernel⟩

end Sample

open Sample

/-- A removal keeps the boxes packed where it takes the last item. -/
theorem boxes_packed_last :
    Packed (run start [.ingest env 7 packed, removal 2]).toRows := by
  refine (boxes_packed rfl start [.ingest env 7 packed, removal 2]
    ⟨ingestFree_of_none (by decide +kernel) _, ?_, trivial⟩).1
  intro resultId hr _ _ _ i hi ha hid _
  cases hr
  revert i
  decide +kernel

/-- Where the cabinet takes the first of two items, the positions are no longer those up to their
number; where a conflict is resolved while another box is open, a device has two open boxes. -/
theorem boxes_not_packed :
    ¬Packed (run start [.ingest env 7 packed, removal 1]).toRows ∧
      ¬Packed (run start [.ingest env 9 earlier,
        .ingest env 7 contested]).toRows := by
  constructor
  · intro h
    have hgap : ∃ b ∈ (run start [.ingest env 7 packed,
        removal 1]).boxes, b.state ≠ .invalidated ∧
        (activeItems (run start [.ingest env 7 packed,
          removal 1]).toRows b.id).map (·.position) = [2] := by
      decide +kernel
    obtain ⟨b, hb, hstate, hpositions⟩ := hgap
    have hlength := congrArg List.length hpositions
    rw [List.length_map] at hlength
    have hperm := h.positions b hb hstate
    rw [hpositions, hlength] at hperm
    exact absurd hperm (by decide)
  · intro h
    have htwo : ∃ b ∈ (run start [.ingest env 9 earlier,
        .ingest env 7 contested]).boxes,
        ∃ b' ∈ (run start [.ingest env 9 earlier,
          .ingest env 7 contested]).boxes,
        b.state = .opened ∧ b'.state = .opened ∧ b.ownerDeviceId = b'.ownerDeviceId ∧
          b.id ≠ b'.id := by
      decide +kernel
    obtain ⟨b, hb, b', hb', ho, ho', howner, hne⟩ := htwo
    exact hne (congrArg RepackBox.id (h.oneOpen b hb b' hb' ho ho' howner))

end Markiro.InventorySync
