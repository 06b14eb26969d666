import Markiro.Lib.Results
import Markiro.Subscriptions.Snapshots

/-!
# Between two boundaries

Every time that the reading of a snapshot looks at is a boundary of its timeline or of its sources.
So between an instant and the next boundary after it nothing changes but the stamps
(`snapshot_unchanged`), up to the last instant that a stamp can name (`snapshot_past_last_timestamp`).
-/

namespace Markiro.Subscriptions

open Results

/-! ## Terms between two instants -/

def Term.Quiet (a t : Instant) (term : Term) : Prop :=
  ∀ b, some b ∈ term.bounds → b ≤ a ∨ t < b

theorem reached_iff {a t b : ℤ} (hat : a ≤ t) (hb : b ≤ a ∨ t < b) : b ≤ t ↔ b ≤ a := by omega

theorem ahead_iff {a t b : ℤ} (hat : a ≤ t) (hb : b ≤ a ∨ t < b) : t < b ↔ a < b := by omega

section

variable {a t : Instant} (hat : a ≤ t)
include hat

theorem Term.Quiet.contains {term : Term} (h : term.Quiet a t) :
    termContains term t = termContains term a := by
  have hstart : term.startsAt.all (· ≤ t) = term.startsAt.all (· ≤ a) := by
    cases hs : term.startsAt with
    | none => rfl
    | some b =>
      have hb := h b (by rw [bounds, hs]; exact List.mem_cons_self)
      rw [Option.all_some, Option.all_some, decide_eq_decide]
      exact reached_iff hat hb
  have hend : term.endsAt.all (t < ·) = term.endsAt.all (a < ·) := by
    cases he : term.endsAt with
    | none => rfl
    | some b =>
      have hb := h b (by rw [bounds, he]; exact List.mem_cons_of_mem _ List.mem_cons_self)
      rw [Option.all_some, Option.all_some, decide_eq_decide]
      exact ahead_iff hat hb
  rw [termContains, termContains, hstart, hend]

theorem Term.Quiet.ended {term : Term} (h : term.Quiet a t) :
    termEnded term t = termEnded term a := by
  unfold termEnded
  cases he : term.endsAt with
  | none => rfl
  | some b =>
    have hb := h b (by rw [bounds, he]; exact List.mem_cons_of_mem _ List.mem_cons_self)
    rw [Option.any_some, Option.any_some, decide_eq_decide]
    exact reached_iff hat hb

/-! ## The rights in force -/

theorem isEffectiveAt_quiet {row : Subscription}
    (h : row.status.isClosed = false → row.toTerm.Quiet a t) :
    isEffectiveAt row t = isEffectiveAt row a := by
  unfold isEffectiveAt
  cases hc : inCandidateStatus row.status with
  | false => rfl
  | true =>
    have hopen : row.status.isClosed = false := by
      unfold inCandidateStatus at hc
      split at hc
      all_goals first
        | (rename_i hs; rw [hs]; rfl)
        | exact nomatch hc
    rw [(h hopen).contains hat]

theorem endedAt_quiet {row : Subscription}
    (h : row.status.isClosed = false → row.toTerm.Quiet a t) : endedAt t row = endedAt a row := by
  unfold endedAt
  cases hc : row.status.isClosed with
  | false => rw [(h hc).ended hat]
  | true =>
    have hclosed : (row.status != .cancelled && row.status != .superseded) = false := by
      cases hs : row.status <;> rw [hs] at hc <;> first | rfl | exact nomatch hc
    rw [hclosed, Bool.false_and, Bool.false_and]

theorem countsAt_quiet {addon : Addon} (h : addon.isOpen = true → addon.toTerm.Quiet a t)
    (subscriptionId : Uuid) :
    addon.countsAt subscriptionId t = addon.countsAt subscriptionId a := by
  unfold Addon.countsAt
  cases ho : addon.isOpen with
  | false =>
    have hstatus : (decide (addon.status = .active) || decide (addon.status = .scheduled)) =
        false := ho
    rw [hstatus, Bool.and_false, Bool.false_and, Bool.false_and]
  | true => rw [(h ho).contains hat]

/-- Nothing that the rights are read from changes between the instants. -/
structure EntitlementTimeline.Quiet (tl : EntitlementTimeline) (a t : Instant) : Prop where
  subscriptions : ∀ row ∈ tl.subscriptions, row.status.isClosed = false → row.toTerm.Quiet a t
  additions : ∀ addon ∈ tl.additions, addon.isOpen = true → addon.toTerm.Quiet a t
  invitations : ∀ b ∈ tl.invitations, b ≤ a ∨ t < b

variable {tl : EntitlementTimeline} (h : tl.Quiet a t)
include h

theorem contributorsFor_quiet (subscriptionId : Uuid) :
    contributorsFor tl.catalog tl.additions subscriptionId t =
      contributorsFor tl.catalog tl.additions subscriptionId a := by
  have hfilter : tl.additions.filter (·.countsAt subscriptionId t) =
      tl.additions.filter (·.countsAt subscriptionId a) :=
    List.filter_congr fun addon hmem => countsAt_quiet hat (h.additions addon hmem) subscriptionId
  rw [contributorsFor, contributorsFor, hfilter]

theorem lapsedEntitlements_quiet :
    lapsedEntitlements tl.catalog tl.subscriptions t =
      lapsedEntitlements tl.catalog tl.subscriptions a := by
  have hended : lastEnded tl.subscriptions t = lastEnded tl.subscriptions a := by
    rw [lastEnded, lastEnded, List.filter_congr fun row hmem =>
      endedAt_quiet hat (h.subscriptions row hmem)]
  rw [lapsedEntitlements, lapsedEntitlements, hended]

theorem resolveTimeline_quiet : resolveTimeline tl t = resolveTimeline tl a := by
  have heffective : effectiveSubscription tl.subscriptions t =
      effectiveSubscription tl.subscriptions a := by
    rw [effectiveSubscription, effectiveSubscription, List.filter_congr fun row hmem =>
      isEffectiveAt_quiet hat (h.subscriptions row hmem)]
  have hmanaged : ∀ selected : Subscription,
      managedEntitlements tl.catalog tl.additions selected t =
        managedEntitlements tl.catalog tl.additions selected a := by
    intro selected
    rw [managedEntitlements, managedEntitlements, contributorsFor_quiet hat h]
  rw [resolveTimeline, resolveTimeline, resolveRows, resolveRows, heffective,
    lapsedEntitlements_quiet hat h]
  simp only [hmanaged]

theorem usageAt_quiet (baseUsage : QuotaKey → ℕ) :
    usageAt tl baseUsage t = usageAt tl baseUsage a := by
  have hcount : tl.invitations.countP (t < ·) = tl.invitations.countP (a < ·) := by
    apply List.countP_congr
    intro b hb
    rw [decide_eq_true_iff, decide_eq_true_iff]
    exact ahead_iff hat (h.invitations b hb)
  rw [usageAt, usageAt, hcount]

end

/-! ## The boundaries of a snapshot -/

section

variable {a t : Instant}

def EntitlementFacts.Quiet (facts : EntitlementFacts) (a t : Instant) : Prop :=
  ∀ b ∈ allBoundaries facts, b ≤ a ∨ t < b

theorem quiet_of_nextChange {facts : EntitlementFacts}
    (h : ∀ n ∈ nextChange facts a, t < n) : facts.Quiet a t := by
  intro b hb
  by_cases hba : b ≤ a
  · exact .inl hba
  · right
    have hmem : b ∈ (allBoundaries facts).filter (a < ·) :=
      List.mem_filter.2 ⟨hb, decide_eq_true (not_le.1 hba)⟩
    cases hmin : nextChange facts a with
    | none =>
      rw [nextChange, List.min?_eq_none_iff] at hmin
      rw [hmin] at hmem
      exact absurd hmem List.not_mem_nil
    | some n =>
      have hle : n ≤ b := (List.min?_eq_some_iff.1 hmin).2 b hmem
      exact lt_of_lt_of_le (h n hmin) hle

theorem EntitlementFacts.Quiet.nextChange (hat : a ≤ t) {facts : EntitlementFacts}
    (h : facts.Quiet a t) : nextChange facts t = Subscriptions.nextChange facts a := by
  have hfilter : (allBoundaries facts).filter (t < ·) = (allBoundaries facts).filter (a < ·) := by
    apply List.filter_congr
    intro b hb
    rw [decide_eq_decide]
    exact ahead_iff hat (h b hb)
  rw [Subscriptions.nextChange, Subscriptions.nextChange, hfilter]

theorem quiet_of_mem {facts : EntitlementFacts} (h : facts.Quiet a t) {terms : List Term}
    (hterms : ∀ x ∈ terms.flatMap Term.bounds,
      x ∈ facts.boundaries ++ facts.sources.flatMap (·.term.bounds))
    {term : Term} (hmem : term ∈ terms) : term.Quiet a t := fun b hb =>
  h b (List.mem_filterMap.2 ⟨some b, hterms _ (List.mem_flatMap.2 ⟨term, hmem, hb⟩), rfl⟩)

theorem EntitlementFacts.Quiet.timeline {facts : EntitlementFacts} (h : facts.Quiet a t)
    {tl : EntitlementTimeline} (hb : facts.boundaries = Subscriptions.boundaries tl) :
    tl.Quiet a t where
  subscriptions row hrow hopen := by
    have hmem : row.toTerm ∈ (tl.subscriptions.filter fun row => !row.status.isClosed).map
        (·.toTerm) :=
      List.mem_map_of_mem (List.mem_filter.2 ⟨hrow, by rw [hopen]; rfl⟩)
    refine quiet_of_mem h (fun x hx => ?_) hmem
    rw [List.flatMap_map] at hx
    rw [hb, Subscriptions.boundaries]
    exact List.mem_append_left _ (List.mem_append_left _ (List.mem_append_left _ hx))
  additions addon haddon hopen := by
    have hmem : addon.toTerm ∈ (tl.additions.filter (·.isOpen)).map (·.toTerm) :=
      List.mem_map_of_mem (List.mem_filter.2 ⟨haddon, hopen⟩)
    refine quiet_of_mem h (fun x hx => ?_) hmem
    rw [List.flatMap_map] at hx
    rw [hb, Subscriptions.boundaries]
    exact List.mem_append_left _ (List.mem_append_left _ (List.mem_append_right _ hx))
  invitations b hmem := by
    refine h b (List.mem_filterMap.2 ⟨some b, ?_, rfl⟩)
    rw [hb, Subscriptions.boundaries]
    exact List.mem_append_left _ (List.mem_append_right _ (List.mem_map_of_mem hmem))

theorem EntitlementFacts.Quiet.projectCandidate (hat : a ≤ t) {facts : EntitlementFacts}
    (h : facts.Quiet a t) (current : EffectiveEntitlements) :
    projectCandidate current facts.sources t =
      Subscriptions.projectCandidate current facts.sources a := by
  have hactive : activeSources current facts.sources t = activeSources current facts.sources a := by
    unfold activeSources
    split
    · apply List.filter_congr
      intro source hsource
      have hmem : source.term ∈ facts.sources.map (·.term) := List.mem_map_of_mem hsource
      have hquiet : source.term.Quiet a t := by
        refine quiet_of_mem h (fun x hx => ?_) hmem
        rw [List.flatMap_map] at hx
        exact List.mem_append_right _ hx
      exact hquiet.contains hat
    · rfl
  rw [Subscriptions.projectCandidate, Subscriptions.projectCandidate, hactive]

end

/-! ## Snapshots -/

theorem readEntitlementFacts_ok {tl : EntitlementTimeline} {current : EffectiveEntitlements}
    {facts : EntitlementFacts} (h : readEntitlementFacts tl current = .ok facts) :
    ∃ managed prepared, managedSources tl current = .ok managed ∧
      (preparedRows tl current).mapM safeSource = .ok prepared ∧
      facts = ⟨managed ++ prepared, boundaries tl, lifecyclePolicyRequired tl current⟩ := by
  obtain ⟨_, -, h⟩ := bind_eq_ok.1 h
  obtain ⟨managed, hmanaged, h⟩ := bind_eq_ok.1 h
  obtain ⟨prepared, hprepared, h⟩ := bind_eq_ok.1 h
  exact ⟨managed, prepared, hmanaged, hprepared, (pure_eq_ok.1 h).symm⟩

theorem resolveSnapshot_ok {tl : EntitlementTimeline} {baseUsage : QuotaKey → ℕ}
    {mode : EnforcementMode} {t : Instant} {s : EntitlementSnapshotV1}
    (h : resolveSnapshot tl baseUsage mode t = .ok s) :
    ∃ current facts, resolveTimeline tl t = .ok current ∧
      readEntitlementFacts tl current = .ok facts ∧
      projectEntitlements tl current (usageAt tl baseUsage t) facts mode t = .ok s := by
  obtain ⟨current, hcurrent, h⟩ := bind_eq_ok.1 h
  obtain ⟨facts, hfacts, h⟩ := bind_eq_ok.1 h
  refine ⟨current, facts, ?_, hfacts, h⟩
  cases hr : resolveTimeline tl t with
  | error e =>
    rw [hr] at hcurrent
    exact nomatch hcurrent
  | ok current' =>
    rw [hr] at hcurrent
    exact congrArg Except.ok (Except.ok.inj hcurrent)

theorem parseSnapshot_ok {s s' : EntitlementSnapshotV1} (h : parseSnapshot s = .ok s') :
    s' = s ∧ s.accepted = true ∧ isTimestamp s.asOf = true := by
  unfold parseSnapshot at h
  split at h
  · next hok => exact ⟨(Except.ok.inj h).symm, hok.1, hok.2.1⟩
  · exact nomatch h

theorem isTimestamp_iff {t : Instant} :
    isTimestamp t = true ↔ firstTimestamp ≤ t ∧ t ≤ lastTimestamp := by
  simp [isTimestamp]

theorem SnapshotBody.accepted_times {s : SnapshotBody} (h : s.accepted = true) :
    ∀ n, s.nextChangeAt = some n → n ≤ lastTimestamp := by
  intro n hn
  simp only [accepted, Bool.and_eq_true] at h
  obtain ⟨⟨⟨⟨-, htimes⟩, -⟩, -⟩, -⟩ := h
  rw [hn, Option.all_some] at htimes
  exact (isTimestamp_iff.1 htimes).2

/-- **Nothing changes before the announced change**: a snapshot that resolves at `a` resolves at
every later instant before it to the same rights. -/
theorem snapshot_unchanged (tl : EntitlementTimeline) (baseUsage : QuotaKey → ℕ)
    (mode : EnforcementMode) (a t : Instant) (s : EntitlementSnapshotV1)
    (h : resolveSnapshot tl baseUsage mode a = .ok s) (hat : a ≤ t)
    (hnext : ∀ n ∈ s.nextChangeAt, t < n)
    (hlast : s.nextChangeAt = none → t ≤ lastTimestamp) :
    ∃ s', resolveSnapshot tl baseUsage mode t = .ok s' ∧ s'.toSnapshotBody = s.toSnapshotBody := by
  obtain ⟨current, facts, hcurrent, hfacts, hproject⟩ := resolveSnapshot_ok h
  obtain ⟨candidate, hcandidate, hparse⟩ := bind_eq_ok.1 hproject
  obtain ⟨rfl, haccepted, hstamp⟩ := parseSnapshot_ok hparse
  obtain ⟨managed, prepared, -, -, rfl⟩ := readEntitlementFacts_ok hfacts
  have hquiet := quiet_of_nextChange hnext
  have htimeline := hquiet.timeline rfl
  have hup : t ≤ lastTimestamp := by
    cases hn : nextChange _ a with
    | none => exact hlast hn
    | some n =>
      have hn' := (SnapshotBody.accepted_times haccepted) n hn
      exact (hnext n hn).le.trans hn'
  have htime : isTimestamp t = true := isTimestamp_iff.2 ⟨(isTimestamp_iff.1 hstamp).1.trans hat, hup⟩
  refine ⟨⟨_, t, t, t⟩, ?_, rfl⟩
  unfold resolveSnapshot
  rw [resolveTimeline_quiet hat htimeline, hcurrent]
  refine bind_eq_ok.2 ⟨current, rfl, bind_eq_ok.2 ⟨_, hfacts, bind_eq_ok.2 ⟨candidate, ?_, ?_⟩⟩⟩
  · rw [hquiet.projectCandidate hat]
    exact hcandidate
  · rw [usageAt_quiet hat htimeline, hquiet.nextChange hat]
    exact if_pos ⟨haccepted, htime, htime, htime⟩

/-! ## Samples -/

namespace Sample

def emptyCatalog : Catalog where
  tenant := none
  versions _ := none
  invoiceLines _ := none
  offerLines _ := none
  calendar := ⟨fun _ _ _ => none, fun _ _ => none, fun _ _ => none⟩

/-- A tenant without subscriptions, with one invitation that ends at `10`. -/
def invited : EntitlementTimeline where
  subscriptions := []
  additions := []
  rows := []
  catalog := emptyCatalog
  lifecyclePolicyId _ := none
  policies := []
  invitations := [10]
  revision := 0
  usageRevision := 0

/-- The same tenant without the invitation. -/
def uninvited : EntitlementTimeline := { invited with invitations := [] }

end Sample

/-- The seat of an invitation is taken at `5` as it is at `0`. -/
theorem invited_unchanged : ∃ s s', resolveSnapshot Sample.invited (fun _ => 0) .all 0 = .ok s ∧
    resolveSnapshot Sample.invited (fun _ => 0) .all 5 = .ok s' ∧
    s'.toSnapshotBody = s.toSnapshotBody := by
  have h : ∃ s, resolveSnapshot Sample.invited (fun _ => 0) .all 0 = .ok s ∧
      s.nextChangeAt = some 10 := ⟨_, rfl, rfl⟩
  obtain ⟨s, hs, hn⟩ := h
  obtain ⟨s', hs', heq⟩ := snapshot_unchanged Sample.invited (fun _ => 0) .all 0 5 s hs
    (by decide) (fun n hmem => by
      rw [hn] at hmem
      obtain rfl := Option.some.inj hmem
      decide) (fun hnone => by rw [hn] at hnone; exact nomatch hnone)
  exact ⟨s, s', hs, hs', heq⟩

/-- No change is announced, and in the year 10000 there is no snapshot. -/
theorem snapshot_past_last_timestamp :
    (∃ s, resolveSnapshot Sample.uninvited (fun _ => 0) .all 0 = .ok s ∧ s.nextChangeAt = none) ∧
      resolveSnapshot Sample.uninvited (fun _ => 0) .all 253402300800000 = .error .schema :=
  ⟨⟨_, rfl, rfl⟩, rfl⟩

end Markiro.Subscriptions
