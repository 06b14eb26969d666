import Markiro.Subscriptions.Assignments

/-!
# At most one subscription is in force

The invariant over whole runs is `Ordered`: a scheduled row starts at or after the end of the
current row, and there is none while the current row has no end. Each call keeps it, and with the
indexes of the table it leaves at most one row whose term contains an instant, at every instant
(`one_subscription_in_force`). Calls only append rows and change statuses (`Grown`), so the row of a
paid line is found again by every later application of the line.
-/

namespace Markiro.Subscriptions

open Results

/-! ## Runs -/

/-- A tenant without rows, or with the demo it was provisioned with. -/
def Start (t : Tables) : Prop :=
  t.addons = [] ∧ (t.subscriptions = [] ∨
    ∃ r, t.subscriptions = [r] ∧ r.status = .pendingActivation ∧ r.source = .demo)

section

variable (digest : Entity → Uuid → EventKind → Instant → Uuid)

inductive After (t : Tables) : Tables → Prop where
  | refl : After t t
  | step {t' : Tables} (h : After t t') (c : Catalog) (call : Call) :
    After t (serve digest c call t').2

/-- The tables a tenant can have. -/
def Reached (t : Tables) : Prop := ∃ start, Start start ∧ After digest start t

end

/-! ## Rows that stay -/

/-- What a call may change of a row: its status, and the term of a pending one. -/
structure Kept (r r' : Subscription) : Prop where
  frozen : { r' with toTerm := r.toTerm, status := r.status, updatedAt := r.updatedAt } = r
  term : r.status ≠ .pendingActivation → r'.toTerm = r.toTerm
  pending : r'.status = .pendingActivation → r.status = .pendingActivation

theorem Kept.refl (r : Subscription) : Kept r r := ⟨rfl, fun _ => rfl, id⟩

theorem Kept.trans {a b d : Subscription} (h : Kept a b) (h' : Kept b d) : Kept a d where
  frozen := by
    rw [← h.frozen]
    conv_rhs => rw [← h'.frozen]
  term hs := (h'.term fun hb => hs (h.pending hb)).trans (h.term hs)
  pending hs := h.pending (h'.pending hs)

theorem Kept.source {r r' : Subscription} (h : Kept r r') : r'.source = r.source := by
  conv_rhs => rw [← h.frozen]

theorem Kept.sourceOf {r r' : Subscription} (h : Kept r r') (origin : PaidLicenseOrigin) :
    origin.sourceOf r' = origin.sourceOf r := by
  conv_rhs => rw [← h.frozen]
  cases origin <;> rfl

theorem kept_status (r : Subscription) {status : SubscriptionStatus} (now : Instant)
    (hs : status ≠ .pendingActivation) : Kept r { r with status := status, updatedAt := now } :=
  ⟨rfl, fun _ => rfl, fun h => absurd h hs⟩

def soldRow (origin : PaidLicenseOrigin) (rows : List Subscription) : Option Subscription :=
  rows.find? (origin.sourceOf · = some origin.lineId)

variable {origin : PaidLicenseOrigin} {r : Subscription}

theorem mem_of_soldRow {rows : List Subscription}
    (h : soldRow origin rows = some r) : r ∈ rows ∧ origin.sourceOf r = some origin.lineId := by
  unfold soldRow at h
  have hfound := List.find?_some h
  exact ⟨List.mem_of_find?_eq_some h, of_decide_eq_true hfound⟩

def Grown (rows rows' : List Subscription) : Prop :=
  ∃ kept new, rows' = kept ++ new ∧ List.Forall₂ Kept rows kept ∧
    (new = [] ∨ ∃ row, new = [row] ∧ row.status ≠ .pendingActivation ∧
      ∀ origin : PaidLicenseOrigin, origin.sourceOf row = some origin.lineId →
        soldRow origin rows = none)

variable {rows rows' : List Subscription}

theorem Grown.of_kept (h : List.Forall₂ Kept rows rows') :
    Grown rows rows' := ⟨rows', [], (List.append_nil _).symm, h, .inl rfl⟩

theorem Grown.refl (rows : List Subscription) : Grown rows rows :=
  .of_kept (List.forall₂_same.2 fun r _ => .refl r)

theorem kept_map {rows : List Subscription} {f : Subscription → Subscription}
    (h : ∀ r ∈ rows, Kept r (f r)) : List.Forall₂ Kept rows (rows.map f) :=
  List.forall₂_map_right_iff.2 (List.forall₂_same.2 h)

theorem kept_trans {rows rows' rows'' : List Subscription} (h : List.Forall₂ Kept rows rows')
    (h' : List.Forall₂ Kept rows' rows'') : List.Forall₂ Kept rows rows'' :=
  forall₂_trans (fun _ _ _ hab hbd => hab.trans hbd) h h'

theorem kept_retireIn (rows : List Subscription) (now : Instant) (row : Option Subscription)
    {status : SubscriptionStatus} (hs : status ≠ .pendingActivation) :
    List.Forall₂ Kept rows (retireIn now row status rows) := by
  cases row with
  | none => exact List.forall₂_same.2 fun r _ => .refl r
  | some row =>
    refine kept_map fun r _ => ?_
    split
    · exact kept_status r now hs
    · exact .refl r

theorem kept_remaining (a : PlanAssignment) (now : Instant) (rows : List Subscription) :
    List.Forall₂ Kept rows (a.remaining now rows) := by
  have hsettled : List.Forall₂ Kept rows (retireIn now a.expiredCurrent .expired rows) :=
    kept_retireIn rows now a.expiredCurrent (by simp)
  unfold PlanAssignment.remaining
  split
  · exact kept_trans hsettled (kept_trans (kept_retireIn _ now a.scheduled (by simp))
      (kept_retireIn _ now a.current (by simp)))
  · exact hsettled

theorem soldRow_kept (origin : PaidLicenseOrigin) (h : List.Forall₂ Kept rows rows') :
    match soldRow origin rows with
    | none => soldRow origin rows' = none
    | some r => ∃ r', soldRow origin rows' = some r' ∧ Kept r r' := by
  induction h with
  | nil => rfl
  | @cons r r' rows rows' hr _ ih =>
    unfold soldRow at ih ⊢
    rw [List.find?_cons, List.find?_cons, hr.sourceOf origin]
    by_cases hp : origin.sourceOf r = some origin.lineId
    · simp only [hp, decide_true]
      exact ⟨r', rfl, hr⟩
    · simp only [hp, decide_false]
      exact ih

theorem soldRow_grown (h : Grown rows rows') (hr : soldRow origin rows = some r) :
    ∃ r', soldRow origin rows' = some r' ∧ Kept r r' := by
  obtain ⟨kept, new, rfl, hkept, -⟩ := h
  have hfound := soldRow_kept origin hkept
  rw [hr] at hfound
  obtain ⟨r', hr', hrr'⟩ := hfound
  refine ⟨r', ?_, hrr'⟩
  unfold soldRow at hr' ⊢
  rw [List.find?_append, hr']
  rfl

theorem mem_kept (h : List.Forall₂ Kept rows rows')
    {r' : Subscription} (hr' : r' ∈ rows') : ∃ r ∈ rows, Kept r r' := by
  induction h with
  | nil => cases hr'
  | cons hr _ ih =>
    obtain rfl | hr' := List.mem_cons.1 hr'
    · exact ⟨_, List.mem_cons_self, hr⟩
    · obtain ⟨r, hmem, hkept⟩ := ih hr'
      exact ⟨r, List.mem_cons_of_mem _ hmem, hkept⟩

/-! ## Each call keeps the rows -/

theorem kept_of_settled {u : Instant}
    (h : rows.map (·.settled u) = rows'.map (·.settled u)) : List.Forall₂ Kept rows rows' := by
  have hpair : List.Forall₂ (fun r r' : Subscription => r.settled u = r'.settled u) rows rows' := by
    rw [← List.forall₂_eq_eq_eq (α := Subscription), List.forall₂_map_left_iff,
      List.forall₂_map_right_iff] at h
    exact h
  refine hpair.imp fun r r' hrr' => ?_
  have hterm : r'.toTerm = r.toTerm := (congrArg Subscription.toTerm hrr').symm
  refine ⟨?_, fun _ => hterm, fun hp => ?_⟩
  · rcases r with ⟨term, id, plan, status, period, source, offer, invoice, created, updated⟩
    rcases r' with ⟨term', id', plan', status', period', source', offer', invoice', created',
      updated'⟩
    simp only [Subscription.settled, Subscription.mk.injEq] at hrr' ⊢
    grind
  · rw [← pending_settled u, hrr', pending_settled u]
    exact hp

variable {ctx : AssignmentContext} {input : AssignPlan} {newId : Uuid} {now : Instant}

theorem sourceOf_row {a : PlanAssignment}
    (h : origin.sourceOf (a.row input ctx now newId) = some origin.lineId) :
    ∃ terms origin', ctx = .paid terms origin' ∧ soldRow origin = soldRow origin' := by
  cases ctx with
  | manual version => cases origin <;> cases h
  | paid terms origin' =>
    refine ⟨terms, origin', rfl, ?_⟩
    cases origin with
    | invoice id payment =>
      cases origin' with
      | invoice id' payment' =>
        obtain rfl : id' = id := Option.some.inj h
        rfl
      | offer id' payment' => cases h
    | offer id payment =>
      cases origin' with
      | invoice id' payment' => cases h
      | offer id' payment' =>
        obtain rfl : id' = id := Option.some.inj h
        rfl

section

variable {c : Catalog} {input : AssignPlan} {ctx : AssignmentContext} {now : Instant} {newId : Uuid}
  {t t' : Tables} {created : Subscription}

theorem status_of_assignPlan
    (h : assignPlanInTransaction c input ctx now newId t = .ok (created, t')) :
    created.status = .active ∨ created.status = .scheduled := by
  obtain ⟨a, ha, rfl, -⟩ := assignPlan_rows h
  obtain ⟨-, -, -, -, hplace⟩ := planAssignment_ok ha
  obtain hactive | ⟨hscheduled, -⟩ := placePlan_ok hplace
  · exact .inl hactive
  · exact .inr hscheduled

theorem grown_assignPlan (h : assignPlanInTransaction c input ctx now newId t = .ok (created, t'))
    (hnew : ∀ terms origin, ctx = .paid terms origin → soldRow origin t.subscriptions = none) :
    Grown t.subscriptions t'.subscriptions := by
  have hstatus := status_of_assignPlan h
  obtain ⟨a, ha, rfl, hrows⟩ := assignPlan_rows h
  refine ⟨a.remaining now t.subscriptions, [a.row input ctx now newId], hrows,
    kept_remaining a now t.subscriptions, .inr ⟨_, rfl, ?_, fun origin horigin => ?_⟩⟩
  · rcases hstatus with hs | hs <;> rw [hs] <;> simp
  · obtain ⟨terms, origin', hctx, hsold⟩ := sourceOf_row horigin
    rw [hsold]
    exact hnew terms origin' hctx

end

variable {t t' : Tables} {c : Catalog} {line : PaidLine}

theorem applyPaidLicense_plan {operationAt : Instant} {reason : String} {row : License}
    (hkind : line.kind = .plan)
    (h : applyPaidLicense c line origin operationAt reason newId t = .ok (row, t')) :
    ∃ terms, licenseTerms line = .ok terms ∧
      ((∃ previous, soldRow origin t.subscriptions = some previous ∧ row = .plan previous ∧ t' = t) ∨
        soldRow origin t.subscriptions = none ∧ ∃ created, row = .plan created ∧
          assignPlanInTransaction c (paidInput line terms reason) (.paid terms origin) operationAt
            newId t = .ok (created, t')) := by
  unfold applyPaidLicense at h
  obtain ⟨terms, hterms, h⟩ := bind_eq_ok.1 h
  refine ⟨terms, hterms, ?_⟩
  simp only [hkind, applyPaidPlan] at h
  cases hfind : t.subscriptions.find? (origin.sourceOf · = some origin.lineId) with
  | some previous =>
    simp only [hfind] at h
    obtain ⟨rfl, rfl⟩ := pair_eq_ok.1 h
    exact .inl ⟨previous, hfind, rfl, rfl⟩
  | none =>
    simp only [hfind] at h
    obtain ⟨⟨created, written⟩, hassign, h⟩ := bind_eq_ok.1 h
    obtain ⟨rfl, rfl⟩ := pair_eq_ok.1 h
    exact .inr ⟨hfind, created, rfl, hassign⟩

/-- A paid add-on's application leaves the subscriptions. -/
theorem applyPaidLicense_addon {operationAt : Instant} {reason : String} {row : License}
    (hkind : line.kind = .addon)
    (h : applyPaidLicense c line origin operationAt reason newId t = .ok (row, t')) :
    t'.subscriptions = t.subscriptions := by
  unfold applyPaidLicense at h
  obtain ⟨terms, -, h⟩ := bind_eq_ok.1 h
  simp only [hkind, applyPaidAddon] at h
  split at h
  · obtain ⟨-, rfl⟩ := pair_eq_ok.1 h
    rfl
  · split at h
    · cases h
    · obtain ⟨⟨created, written⟩, hassign, h⟩ := bind_eq_ok.1 h
      obtain ⟨_, -, h⟩ := bind_eq_ok.1 h
      obtain ⟨-, rfl⟩ := pair_eq_ok.1 h
      exact (assignAddon_rows hassign).2.1

theorem activatePendingDemo_ok {activatedAt : Instant} {row : Option Subscription}
    (h : activatePendingDemo c activatedAt t = .ok (row, t')) :
    t'.subscriptions = t.subscriptions ∨ ∃ pending ∈ t.subscriptions, ∃ days,
      pending.status = .pendingActivation ∧
      t'.subscriptions =
        Table.update (isRow pending) (·.activated activatedAt days) t.subscriptions := by
  unfold activatePendingDemo at h
  split at h
  · obtain ⟨-, rfl⟩ := pair_eq_ok.1 h
    exact .inl rfl
  · rename_i pending hfind
    split at h
    · cases h
    · rename_i days hdays
      obtain ⟨_, -, h⟩ := bind_eq_ok.1 h
      obtain ⟨written, hw, h⟩ := bind_eq_ok.1 h
      obtain ⟨-, rfl⟩ := pair_eq_ok.1 h
      obtain ⟨_, rfl⟩ := storeSubscriptions_ok.1 hw
      have hp := List.find?_some hfind
      rw [subscriptions_recordEvent]
      exact .inr ⟨pending, List.mem_of_find?_eq_some hfind, days,
        of_decide_eq_true (Bool.and_eq_true_iff.1 hp).1, rfl⟩

section

variable (digest : Entity → Uuid → EventKind → Instant → Uuid)

theorem serve_cases (c : Catalog) (call : Call) (t : Tables) :
    (∃ e, serve digest c call t = (.error e, t)) ∨
      ∃ reply t', call.body digest c t = .ok (reply, t') ∧
        serve digest c call t = (.ok reply, t') := by
  unfold serve
  cases call.body digest c t with
  | error e => exact .inl ⟨e, rfl⟩
  | ok out => exact .inr ⟨out.1, out.2, rfl, rfl⟩

theorem body_cases {c : Catalog} {call : Call} {t t' : Tables} {reply : Reply}
    (h : call.body digest c t = .ok (reply, t')) :
    t'.subscriptions = t.subscriptions ∨
      (∃ pending ∈ t.subscriptions, ∃ activatedAt days, pending.status = .pendingActivation ∧
        t'.subscriptions =
          Table.update (isRow pending) (·.activated activatedAt days) t.subscriptions) ∨
      (∃ input ctx now newId created,
        assignPlanInTransaction c input ctx now newId t = .ok (created, t') ∧
        ∀ terms origin, ctx = .paid terms origin → soldRow origin t.subscriptions = none) ∨
      ∃ res u now, runStatusJob digest now u t = .ok (res, t') := by
  cases call with
  | activatePendingDemo activatedAt =>
    obtain ⟨⟨row, written⟩, hdemo, h⟩ := bind_eq_ok.1 h
    obtain ⟨-, rfl⟩ := pair_eq_ok.1 h
    obtain hsame | ⟨pending, hpending, days, hstatus, hrows⟩ := activatePendingDemo_ok hdemo
    · exact .inl hsame
    · exact .inr (.inl ⟨pending, hpending, activatedAt, days, hstatus, hrows⟩)
  | assignPlan admin input version now newId =>
    obtain ⟨_, -, h⟩ := bind_eq_ok.1 h
    obtain ⟨⟨row, written⟩, hassign, h⟩ := bind_eq_ok.1 h
    obtain ⟨-, rfl⟩ := pair_eq_ok.1 h
    exact .inr (.inr (.inl ⟨input, _, now, newId, row, hassign, fun _ _ hctx => by cases hctx⟩))
  | assignAddon admin input version now newId =>
    obtain ⟨_, -, h⟩ := bind_eq_ok.1 h
    obtain ⟨⟨row, written⟩, hassign, h⟩ := bind_eq_ok.1 h
    obtain ⟨-, rfl⟩ := pair_eq_ok.1 h
    exact .inl (assignAddon_rows hassign).2.1
  | applyPaidLicense line origin operationAt reason newId =>
    obtain ⟨⟨row, written⟩, hpaid, h⟩ := bind_eq_ok.1 h
    obtain ⟨-, rfl⟩ := pair_eq_ok.1 h
    cases hkind : line.kind with
    | addon => exact .inl (applyPaidLicense_addon hkind hpaid)
    | plan =>
      obtain ⟨terms, -, ⟨previous, -, -, rfl⟩ | ⟨hnone, created, -, hassign⟩⟩ :=
        applyPaidLicense_plan hkind hpaid
      · exact .inl rfl
      · refine .inr (.inr (.inl ⟨_, _, operationAt, newId, created, hassign, ?_⟩))
        intro terms' origin' hctx
        obtain ⟨-, rfl⟩ := AssignmentContext.paid.inj hctx
        exact hnone
  | runStatusJob instant now =>
    obtain ⟨⟨res, written⟩, hrun, h⟩ := bind_eq_ok.1 h
    obtain ⟨-, rfl⟩ := pair_eq_ok.1 h
    exact .inr (.inr (.inr ⟨res, instant, now, hrun⟩))

/-- **A call keeps the rows and appends at most one.** -/
theorem grown_serve (c : Catalog) (call : Call) (t : Tables) :
    Grown t.subscriptions (serve digest c call t).2.subscriptions := by
  obtain ⟨e, he⟩ | ⟨reply, t', hbody, hserve⟩ := serve_cases digest c call t
  · rw [he]
    exact .refl _
  · rw [hserve]
    obtain hsame | ⟨pending, hpending, activatedAt, days, hstatus, hrows⟩ |
      ⟨input, ctx, now, newId, created, hassign, hnew⟩ | ⟨res, u, now, hrun⟩ :=
      body_cases digest hbody
    · show Grown t.subscriptions t'.subscriptions
      rw [hsame]
      exact .refl _
    · show Grown t.subscriptions t'.subscriptions
      rw [hrows]
      refine .of_kept (kept_map fun r hr => ?_)
      split
      · rename_i hp
        obtain rfl := (isRow_iff hpending hr).1 hp
        exact ⟨rfl, fun h => absurd hstatus h, fun h => by cases h⟩
      · exact .refl r
    · exact grown_assignPlan hassign hnew
    · exact .of_kept (kept_of_settled ((runStatusJob_settles hrun).1 u le_rfl).1)

end

/-! ## The order of the timeline -/

def Ordered (rows : List Subscription) : Prop :=
  ∀ r ∈ rows, r.status.isCurrent = true → ∀ s ∈ rows, s.status = .scheduled →
    ∃ e b, r.endsAt = some e ∧ s.startsAt = some b ∧ e ≤ b

theorem current_remaining {rows : List Subscription} {a : PlanAssignment}
    (hrows : SubscriptionConstraints rows) (ha : planAssignment c input ctx now rows = .ok a)
    (hr : r ∈ a.remaining now rows) (hcur : r.status.isCurrent = true) :
    a.status ≠ .active ∧ a.current = some r := by
  obtain ⟨hexpired, hcurrent, -, -, -⟩ := planAssignment_ok ha
  have hne : r.status ≠ .expired ∧ r.status ≠ .cancelled ∧ r.status ≠ .superseded := by
    refine ⟨fun h => ?_, fun h => ?_, fun h => ?_⟩ <;> rw [h] at hcur <;> cases hcur
  have hfound : ∀ hmem : r ∈ rows, a.expiredCurrent ≠ some r → a.current = some r := by
    intro hmem hnot
    have htimeline := current_of_mem hrows hmem hcur
    rw [htimeline] at hexpired hcurrent
    by_cases hended : isEndedSubscription (some r) now = true
    · rw [if_pos hended] at hexpired
      exact absurd hexpired hnot
    · rw [if_neg hended] at hcurrent
      exact hcurrent
  unfold PlanAssignment.remaining at hr
  by_cases hactive : a.status = .active
  · simp only [hactive, if_true] at hr
    obtain ⟨hr, hnotcurrent⟩ := of_mem_retireIn hr hne.2.2
    obtain ⟨hr, -⟩ := of_mem_retireIn hr hne.2.1
    obtain ⟨hr, hnotexpired⟩ := of_mem_retireIn hr hne.1
    exact absurd (hfound hr hnotexpired) hnotcurrent
  · simp only [hactive, if_false] at hr
    obtain ⟨hr, hnotexpired⟩ := of_mem_retireIn hr hne.1
    exact ⟨hactive, hfound hr hnotexpired⟩

theorem scheduled_remaining {rows : List Subscription} {a : PlanAssignment}
    (hrows : SubscriptionConstraints rows) (ha : planAssignment c input ctx now rows = .ok a)
    (hr : r ∈ a.remaining now rows) : r.status ≠ .scheduled := by
  intro hs
  obtain ⟨-, -, hscheduled, -, hplace⟩ := planAssignment_ok ha
  have hne : r.status ≠ .expired ∧ r.status ≠ .cancelled ∧ r.status ≠ .superseded := by
    rw [hs]
    simp
  unfold PlanAssignment.remaining at hr
  by_cases hactive : a.status = .active
  · simp only [hactive, if_true] at hr
    obtain ⟨hr, -⟩ := of_mem_retireIn hr hne.2.2
    obtain ⟨hr, hnot⟩ := of_mem_retireIn hr hne.2.1
    obtain ⟨hr, -⟩ := of_mem_retireIn hr hne.1
    exact hnot (hscheduled.trans (scheduled_of_mem hrows hr hs))
  · simp only [hactive, if_false] at hr
    obtain ⟨hr, -⟩ := of_mem_retireIn hr hne.1
    obtain h | ⟨-, hnone, -⟩ := placePlan_ok hplace
    · exact hactive h
    · rw [hscheduled, scheduled_of_mem hrows hr hs] at hnone
      cases hnone

theorem Ordered.assignPlan {created : Subscription}
    (h : assignPlanInTransaction c input ctx now newId t = .ok (created, t')) :
    Ordered t'.subscriptions := by
  obtain ⟨a, ha, rfl, hrows⟩ := assignPlan_rows h
  obtain ⟨-, -, -, -, hplace⟩ := planAssignment_ok ha
  intro r hr hcur s hs hsch
  rw [hrows, List.mem_append, List.mem_singleton] at hr hs
  have hsnew : s = a.row input ctx now newId :=
    hs.resolve_left fun hs => scheduled_remaining t.subscriptionsKept ha hs hsch
  subst hsnew
  have hstatus : a.status = .scheduled := hsch
  obtain hactive | ⟨-, -, hends⟩ := placePlan_ok hplace
  · rw [hactive] at hstatus
    cases hstatus
  · obtain hr | rfl := hr
    · obtain ⟨-, hcurrent⟩ := current_remaining t.subscriptionsKept ha hr hcur
      obtain ⟨e, he, hle⟩ := hends r hcurrent
      exact ⟨e, a.startsAt, he, rfl, hle⟩
    · have hcur : a.status.isCurrent = true := hcur
      rw [hstatus] at hcur
      cases hcur

variable {digest : Entity → Uuid → EventKind → Instant → Uuid}

/-- The job keeps the order: what it leaves current was current, or was scheduled with nothing
scheduled behind it. -/
theorem Ordered.runStatusJob
    {now u : Instant} {res : MaterializeResult} (ht : Ordered t.subscriptions)
    (h : Subscriptions.runStatusJob digest now u t = .ok (res, t')) :
    Ordered t'.subscriptions := by
  intro r' hr' hcur s' hs' hsch
  obtain ⟨r, hr, hrterm, hrstatus⟩ := runStatusJob_origin h hr'
  obtain ⟨s, hs, hsterm, hsstatus⟩ := runStatusJob_origin h hs'
  have hssch : s.status = .scheduled := scheduled_of_settled (hsstatus.trans hsch)
  have hrcur : r.status.isCurrent = true := by
    rw [← hrstatus] at hcur
    obtain hrcur | ⟨hrsch, -⟩ := current_of_settled hcur
    · exact hrcur
    · obtain rfl := Table.eq_of_countP_le_one t.subscriptionsKept.oneScheduled hr hs
        (decide_eq_true hrsch) (decide_eq_true hssch)
      rw [hsstatus, hsch] at hcur
      cases hcur
  obtain ⟨e, b, he, hb, hle⟩ := ht r hr hrcur s hs hssch
  exact ⟨e, b, by rw [← hrterm]; exact he, by rw [← hsterm]; exact hb, hle⟩

theorem Ordered.serve {t : Tables} (ht : Ordered t.subscriptions)
    (digest : Entity → Uuid → EventKind → Instant → Uuid) (c : Catalog) (call : Call) :
    Ordered (Subscriptions.serve digest c call t).2.subscriptions := by
  obtain ⟨e, he⟩ | ⟨reply, t', hbody, hserve⟩ := serve_cases digest c call t
  · rw [he]
    exact ht
  · rw [hserve]
    obtain hsame | ⟨pending, hpending, activatedAt, days, hstatus, hrows⟩ |
      ⟨input, ctx, now, newId, created, hassign, hnew⟩ | ⟨res, u, now, hrun⟩ :=
      body_cases digest hbody
    · show Ordered t'.subscriptions
      rw [hsame]
      exact ht
    · -- a pending row has no end, so nothing is scheduled behind it
      intro r hr hcur s hs hsch
      obtain rfl | ⟨hs, -⟩ := of_mem_updated hpending hrows hs
      · cases hsch
      · obtain ⟨e, b, he, -⟩ := ht pending hpending (by rw [hstatus]; rfl) s hs hsch
        have hdates := t.subscriptionsKept.pendingDates pending hpending hstatus
        have hend : pending.endsAt = none := congrArg Term.endsAt hdates
        rw [hend] at he
        cases he
    · exact Ordered.assignPlan hassign
    · exact ht.runStatusJob hrun

/-! ## Every reachable table -/

/-- What holds of the subscriptions in every reachable table. -/
structure Sound (rows : List Subscription) : Prop where
  ordered : Ordered rows
  pendingDemo : ∀ r ∈ rows, r.status = .pendingActivation → r.source = .demo
  soldOnce : ∀ origin : PaidLicenseOrigin,
    rows.countP (origin.sourceOf · = some origin.lineId) ≤ 1

theorem soldRow_none {rows : List Subscription} :
    soldRow origin rows = none ↔ rows.countP (origin.sourceOf · = some origin.lineId) = 0 := by
  unfold soldRow
  rw [List.find?_eq_none, List.countP_eq_zero]

theorem countP_kept (h : List.Forall₂ Kept rows rows') :
    rows'.countP (origin.sourceOf · = some origin.lineId) =
      rows.countP (origin.sourceOf · = some origin.lineId) := by
  induction h with
  | nil => rfl
  | cons hr _ ih => rw [List.countP_cons, List.countP_cons, ih, hr.sourceOf origin]

theorem Sound.serve {t : Tables} (h : Sound t.subscriptions)
    (digest : Entity → Uuid → EventKind → Instant → Uuid) (c : Catalog) (call : Call) :
    Sound (Subscriptions.serve digest c call t).2.subscriptions := by
  obtain ⟨kept, new, hrows, hkept, hnew⟩ := grown_serve digest c call t
  refine ⟨h.ordered.serve digest c call, fun r hr hp => ?_, fun origin => ?_⟩
  · rw [hrows, List.mem_append] at hr
    obtain hr | hr := hr
    · obtain ⟨r0, hr0, hk⟩ := mem_kept hkept hr
      rw [hk.source]
      exact h.pendingDemo r0 hr0 (hk.pending hp)
    · obtain rfl | ⟨row, rfl, hstatus, -⟩ := hnew
      · cases hr
      · rw [List.mem_singleton.1 hr] at hp
        exact absurd hp hstatus
  · rw [hrows, List.countP_append, countP_kept hkept]
    obtain rfl | ⟨row, rfl, -, hsold⟩ := hnew
    · simpa using h.soldOnce origin
    · by_cases hrow : origin.sourceOf row = some origin.lineId
      · rw [soldRow_none.1 (hsold origin hrow)]
        simp [hrow]
      · simpa [hrow] using h.soldOnce origin

theorem Start.sound {t : Tables} (h : Start t) : Sound t.subscriptions := by
  obtain ⟨-, hnil | ⟨r, hsingle, hstatus, hsource⟩⟩ := h
  · rw [hnil]
    exact ⟨fun r hr => (List.not_mem_nil hr).elim, fun r hr => (List.not_mem_nil hr).elim,
      fun origin => Nat.zero_le 1⟩
  · rw [hsingle]
    refine ⟨fun r1 _ _ s hs hsch => ?_, fun r1 hr1 _ => ?_, fun origin => List.countP_le_length⟩
    · rw [List.mem_singleton.1 hs, hstatus] at hsch
      cases hsch
    · rw [List.mem_singleton.1 hr1]
      exact hsource

theorem After.sound
    (h : After digest t t') (ht : Sound t.subscriptions) : Sound t'.subscriptions := by
  induction h with
  | refl => exact ht
  | step _ c call ih => exact ih.serve digest c call

theorem Reached.sound {t : Tables} (h : Reached digest t) : Sound t.subscriptions := by
  obtain ⟨start, hstart, hafter⟩ := h
  exact hafter.sound hstart.sound

theorem Ordered.effective {rows : List Subscription} (h : Ordered rows)
    (hrows : SubscriptionConstraints rows) (t : Instant) :
    (rows.filter (isEffectiveAt · t)).length ≤ 1 := by
  rw [← List.countP_eq_length_filter]
  by_cases hsch : ∃ s ∈ rows, isEffectiveAt s t = true ∧ s.status = .scheduled
  · -- a scheduled row in force: the current row has ended
    obtain ⟨s, hs, hseff, hsch⟩ := hsch
    refine le_trans (List.countP_mono_left fun r hr heff => ?_) hrows.oneScheduled
    by_contra hnot
    have hcur : r.status.isCurrent = true := by
      unfold isEffectiveAt inCandidateStatus at heff
      revert heff hnot
      cases r.status <;> grind [SubscriptionStatus.isCurrent]
    obtain ⟨e, b, he, hb, hle⟩ := h r hr hcur s hs hsch
    simp only [isEffectiveAt, termContains, he, hb, Option.all_some, Bool.and_eq_true,
      decide_eq_true_eq] at heff hseff
    have hend := heff.2.2
    have hbegin := hseff.2.1
    exact absurd (hle.trans hbegin) (not_le.2 hend)
  · refine le_trans (List.countP_mono_left fun r hr heff => ?_) hrows.oneCurrent
    have hne : r.status ≠ .scheduled := fun hs => hsch ⟨r, hr, heff, hs⟩
    unfold isEffectiveAt inCandidateStatus at heff
    revert heff hne
    cases r.status <;> grind [SubscriptionStatus.isCurrent]

theorem effectiveSubscription_ok (hperm : rows.Perm rows')
    {t : Instant} (h : (rows.filter (isEffectiveAt · t)).length ≤ 1) :
    ∃ selected, effectiveSubscription rows' t = .ok selected := by
  rw [(hperm.filter _).length_eq] at h
  unfold effectiveSubscription
  match hf : rows'.filter (isEffectiveAt · t) with
  | [] => exact ⟨none, rfl⟩
  | [r] => exact ⟨some r, rfl⟩
  | _ :: _ :: _ => simp [hf] at h

/-- A plan to follow the current one, without dates of its own. -/
def Call.afterCurrentBilling : Call → Prop
  | .assignPlan _ input _ _ _ => input.activationPolicy = .afterCurrent
  | .applyPaidLicense line _ _ _ _ => line.kind = .plan ∧
    ∃ period, line.commercialTerms = some (.license (.billing period .afterCurrent))
  | _ => False

/-- The same line under another payment. -/
def PaidLicenseOrigin.paidBy (payment : Uuid) : PaidLicenseOrigin → PaidLicenseOrigin
  | .invoice id _ => .invoice id payment
  | .offer id _ => .offer id payment

theorem soldRow_paidBy (origin : PaidLicenseOrigin) (payment : Uuid) :
    soldRow (origin.paidBy payment) = soldRow origin := by
  cases origin <;> rfl

theorem startsAt_of_assignPlan {created : Subscription}
    (hpol : input.activationPolicy = .afterCurrent) (hexp : ctx.explicitTerms = none)
    (h : assignPlanInTransaction c input ctx now newId t = .ok (created, t')) :
    ∃ current ∈ t.subscriptions, current.status.isCurrent = true ∧ current.endsAt.isSome = true ∧
      created.startsAt = current.endsAt := by
  obtain ⟨a, ha, rfl, -⟩ := assignPlan_rows h
  obtain ⟨-, hcurrent, -, hsome, hplace⟩ := planAssignment_ok ha
  obtain ⟨current, hcur⟩ := Option.isSome_iff_exists.1 (hsome hpol)
  rw [hcur] at hplace hcurrent
  have hends := placePlan_afterCurrent hpol hexp hplace
  have htimeline : (findTimelineSubscriptions t.subscriptions).current = some current := by
    split at hcurrent
    · cases hcurrent
    · exact hcurrent.symm
  obtain ⟨hmem, hstatus⟩ := mem_of_current htimeline
  exact ⟨current, hmem, hstatus, by rw [hends]; rfl, hends.symm⟩

theorem soldRow_of_apply {operationAt : Instant} {reason : String} {row : Subscription}
    (ht : Sound t.subscriptions) (hkind : line.kind = .plan)
    (h : applyPaidLicense c line origin operationAt reason newId t = .ok (.plan row, t')) :
    soldRow origin t'.subscriptions = some row ∧ row.status ≠ .pendingActivation := by
  obtain ⟨terms, -, ⟨previous, hfound, hrow, rfl⟩ | ⟨hnone, created, hrow, hassign⟩⟩ :=
    applyPaidLicense_plan hkind h
  · obtain rfl := License.plan.inj hrow
    refine ⟨hfound, fun hp => ?_⟩
    obtain ⟨hmem, hline⟩ := mem_of_soldRow hfound
    have hsource := ht.pendingDemo row hmem hp
    have hagree := t'.subscriptionsKept.commercialSource row hmem
    rw [hsource] at hagree
    cases origin <;> simp_all [sourcesAgree, PaidLicenseOrigin.sourceOf]
  · obtain rfl := License.plan.inj hrow
    refine ⟨?_, ?_⟩
    · obtain ⟨a, ha, hcreated, hrows⟩ := assignPlan_rows hassign
      have hkept := soldRow_kept origin (kept_remaining a operationAt t.subscriptions)
      rw [hnone] at hkept
      unfold soldRow at hkept ⊢
      have hsource : origin.sourceOf row = some origin.lineId := by
        rw [hcreated]
        cases origin <;> rfl
      rw [hrows, List.find?_append, hkept, List.find?_cons]
      simp [hsource]
    · rcases status_of_assignPlan hassign with hs | hs <;> rw [hs] <;> simp

theorem After.soldRow (h : After digest t t') {row : Subscription}
    (hrow : Subscriptions.soldRow origin t.subscriptions = some row) :
    ∃ row', Subscriptions.soldRow origin t'.subscriptions = some row' ∧ Kept row row' := by
  induction h with
  | refl => exact ⟨row, hrow, .refl row⟩
  | @step t1 _ c call ih =>
    obtain ⟨row1, hrow1, hkept1⟩ := ih
    obtain ⟨row2, hrow2, hkept2⟩ := soldRow_grown (grown_serve digest c call t1) hrow1
    exact ⟨row2, hrow2, hkept1.trans hkept2⟩

theorem serve_sold (digest : Entity → Uuid → EventKind → Instant → Uuid) (c : Catalog)
    (operationAt : Instant) (reason : String)
    (newId : Uuid) {row : Subscription} {t : Tables} {terms : PaidLicenseTerms}
    (hterms : licenseTerms line = .ok terms) (hkind : line.kind = .plan)
    (hrow : soldRow origin t.subscriptions = some row) :
    serve digest c (.applyPaidLicense line origin operationAt reason newId) t =
      (.ok (.license (.plan row)), t) := by
  have happly : applyPaidLicense c line origin operationAt reason newId t = .ok (.plan row, t) := by
    unfold applyPaidLicense applyPaidPlan
    unfold soldRow at hrow
    rw [hterms, ok_bind, hkind, hrow]
  have hbody : (Call.applyPaidLicense line origin operationAt reason newId).body digest c t =
      .ok (.license (.plan row), t) := bind_eq_ok.2 ⟨_, happly, rfl⟩
  unfold serve
  rw [hbody]

/-- **At most one subscription is in force.** In every table a tenant can reach by the demo's
activation, assignments, paid lines and runs of the status job, at any instants: at every instant at
most one row is in force, so the reader never refuses for two; a plan assigned after the current one
with a billing period starts exactly when that one ends; a paid line applied again, in any later
table, returns the line's one row, which has the term it was sold with, and changes nothing; and a
call that throws leaves the rows as they were. -/
theorem one_subscription_in_force (digest : Entity → Uuid → EventKind → Instant → Uuid)
    (t : {t : Tables // Reached digest t}) :
    (∀ instant : Instant,
      (t.1.subscriptions.filter (isEffectiveAt · instant)).length ≤ 1 ∧
      ∃ selected, effectiveSubscription
        (t.1.subscriptions.insertionSort Subscription.createdBefore) instant = .ok selected) ∧
    (∀ c call row t', serve digest c call t.1 = (.ok (.license (.plan row)), t') →
      call.afterCurrentBilling → row ∉ t.1.subscriptions →
      ∃ current ∈ t.1.subscriptions, current.status.isCurrent = true ∧
        current.endsAt.isSome = true ∧ row.startsAt = current.endsAt) ∧
    (∀ c line origin operationAt reason newId row t', line.kind = .plan →
      serve digest c (.applyPaidLicense line origin operationAt reason newId) t.1 =
        (.ok (.license (.plan row)), t') →
      ∀ t'', After digest t' t'' → ∀ c' payment operationAt' reason' newId',
        ∃ row' ∈ t''.subscriptions,
          serve digest c' (.applyPaidLicense line (origin.paidBy payment) operationAt' reason'
            newId') t'' = (.ok (.license (.plan row')), t'') ∧
          { row' with status := row.status, updatedAt := row.updatedAt } = row ∧
          ∀ x ∈ t''.subscriptions, origin.sourceOf x = some origin.lineId → x = row') ∧
    ∀ c call e t', serve digest c call t.1 = (.error e, t') → t' = t.1 := by
  obtain ⟨t, hreached⟩ := t
  have hsound := hreached.sound
  refine ⟨fun instant => ?_, ?_, ?_, ?_⟩
  · have heffective := hsound.ordered.effective t.subscriptionsKept instant
    exact ⟨heffective, effectiveSubscription_ok (List.perm_insertionSort _ _).symm heffective⟩
  · intro c call row t' h hcall hnew
    obtain ⟨e, he⟩ | ⟨reply, t1, hbody, hserve⟩ := serve_cases digest c call t
    · rw [he] at h
      cases h
    · rw [hserve] at h
      obtain ⟨hreply, rfl⟩ := Prod.mk.inj h
      obtain rfl := Except.ok.inj hreply
      cases call with
      | assignPlan admin input version now newId =>
        obtain ⟨_, -, hbody⟩ := bind_eq_ok.1 hbody
        obtain ⟨⟨created, written⟩, hassign, hbody⟩ := bind_eq_ok.1 hbody
        obtain ⟨hrow, rfl⟩ := pair_eq_ok.1 hbody
        obtain rfl := License.plan.inj (Reply.license.inj hrow)
        exact startsAt_of_assignPlan hcall rfl hassign
      | applyPaidLicense line origin operationAt reason newId =>
        obtain ⟨hkind, period, hterms⟩ := hcall
        obtain ⟨⟨license, written⟩, hpaid, hbody⟩ := bind_eq_ok.1 hbody
        obtain ⟨hrow, rfl⟩ := pair_eq_ok.1 hbody
        obtain ⟨terms, hlicense, ⟨previous, hfound, hprevious, rfl⟩ |
          ⟨-, created, hcreated, hassign⟩⟩ := applyPaidLicense_plan hkind hpaid
        · rw [hprevious] at hrow
          obtain rfl := License.plan.inj (Reply.license.inj hrow)
          exact absurd (mem_of_soldRow hfound).1 hnew
        · rw [hcreated] at hrow
          obtain rfl := License.plan.inj (Reply.license.inj hrow)
          simp only [licenseTerms, hterms] at hlicense
          split at hlicense
          · cases hlicense
          · obtain rfl := Except.ok.inj hlicense
            exact startsAt_of_assignPlan rfl rfl hassign
      | activatePendingDemo => cases hcall
      | assignAddon => cases hcall
      | runStatusJob => cases hcall
  · intro c line origin operationAt reason newId row t' hkind h t'' hafter c' payment operationAt'
      reason' newId'
    obtain ⟨e, he⟩ | ⟨reply, t1, hbody, hserve⟩ :=
      serve_cases digest c (.applyPaidLicense line origin operationAt reason newId) t
    · rw [he] at h
      cases h
    · rw [hserve] at h
      obtain ⟨hreply, rfl⟩ := Prod.mk.inj h
      obtain rfl := Except.ok.inj hreply
      obtain ⟨⟨license, written⟩, hpaid, hbody⟩ := bind_eq_ok.1 hbody
      obtain ⟨hrow, rfl⟩ := pair_eq_ok.1 hbody
      obtain rfl := Reply.license.inj hrow
      obtain ⟨hsold, hstatus⟩ := soldRow_of_apply hsound hkind hpaid
      obtain ⟨terms, hterms, -⟩ := applyPaidLicense_plan hkind hpaid
      obtain ⟨row', hrow', hkept⟩ := hafter.soldRow hsold
      refine ⟨row', (mem_of_soldRow hrow').1,
        serve_sold digest c' operationAt' reason' newId' hterms hkind ?_, ?_, fun x hx hsource => ?_⟩
      · rw [soldRow_paidBy]
        exact hrow'
      · conv_rhs => rw [← hkept.frozen, ← hkept.term hstatus]
      · have hsound' := hsound.serve digest c
          (.applyPaidLicense line origin operationAt reason newId)
        rw [hserve] at hsound'
        have hsound'' := hafter.sound hsound'
        exact Table.eq_of_countP_le_one (hsound''.soldOnce origin) hx (mem_of_soldRow hrow').1
          (decide_eq_true hsource) (decide_eq_true (mem_of_soldRow hrow').2)
  · intro c call e t' h
    obtain ⟨e', he⟩ | ⟨reply, t1, -, hserve⟩ := serve_cases digest c call t
    · rw [he] at h
      exact (Prod.mk.inj h).2.symm
    · rw [hserve] at h
      cases h

end Markiro.Subscriptions
