import Markiro.Subscriptions.LazyStatuses

/-!
# What an assignment writes

The rows after each call, read off its success: an assignment of a plan retires the rows it replaces
and appends one (`assignPlan_rows`), an add-on leaves the subscriptions, the demo's activation
changes the pending row.
-/

namespace Markiro.Subscriptions

open Results

/-! ## The timeline of rows within their constraints -/

variable {rows : List Subscription}

theorem mem_of_current {r : Subscription} (h : (findTimelineSubscriptions rows).current = some r) :
    r ∈ rows ∧ r.status.isCurrent = true :=
  List.mem_filter.1 ((List.mem_insertionSort _).1 (List.mem_of_mem_head? h))

theorem mem_of_scheduled {r : Subscription}
    (h : (findTimelineSubscriptions rows).scheduled = some r) :
    r ∈ rows ∧ r.status = .scheduled := by
  have hfound := List.find?_some (show rows.find? (·.status = .scheduled) = some r from h)
  exact ⟨List.mem_of_find?_eq_some h, of_decide_eq_true hfound⟩

section

variable {rows : List Subscription} (h : SubscriptionConstraints rows) {r : Subscription}

include h

theorem current_of_mem (hr : r ∈ rows) (hcur : r.status.isCurrent = true) :
    (findTimelineSubscriptions rows).current = some r := by
  have hfilter : r ∈ rows.filter (·.status.isCurrent) := List.mem_filter.2 ⟨hr, hcur⟩
  cases hfound : (findTimelineSubscriptions rows).current with
  | none =>
    have hsorted := (List.mem_insertionSort fun a b : Subscription => b.updatedAt ≤ a.updatedAt).2
      hfilter
    rw [List.head?_eq_none_iff.1 hfound] at hsorted
    cases hsorted
  | some x =>
    obtain ⟨hx, hxcur⟩ := mem_of_current hfound
    rw [Table.eq_of_countP_le_one h.oneCurrent hx hr hxcur hcur]

theorem scheduled_of_mem (hr : r ∈ rows) (hs : r.status = .scheduled) :
    (findTimelineSubscriptions rows).scheduled = some r := by
  cases hfind : (findTimelineSubscriptions rows).scheduled with
  | none => exact absurd (decide_eq_true hs) (List.find?_eq_none.1 hfind r hr)
  | some x =>
    obtain ⟨hx, hxs⟩ := mem_of_scheduled hfind
    rw [Table.eq_of_countP_le_one h.oneScheduled hx hr (decide_eq_true hxs) (decide_eq_true hs)]

end

/-! ## The decision -/

theorem require_ok {p : Prop} [Decidable p] {e : Refusal} : require p e = .ok () ↔ p := by
  unfold require
  by_cases hp : p <;> simp [hp]

variable {ctx : AssignmentContext}

/-- What a decided assignment rests on. -/
theorem planAssignment_ok {c : Catalog} {input : AssignPlan} {now : Instant} {a : PlanAssignment}
    (h : planAssignment c input ctx now rows = .ok a) :
    let timeline := findTimelineSubscriptions rows
    let ended := isEndedSubscription timeline.current now
    a.expiredCurrent = (if ended then timeline.current else none) ∧
      a.current = (if ended then none else timeline.current) ∧
      a.scheduled = timeline.scheduled ∧
      (input.activationPolicy = .afterCurrent → a.current.isSome = true) ∧
      placePlan c input ctx now a.current a.scheduled = .ok (a.status, a.startsAt) := by
  unfold planAssignment at h
  obtain ⟨_, -, h⟩ := bind_eq_ok.1 h
  obtain ⟨_, -, h⟩ := bind_eq_ok.1 h
  obtain ⟨candidate, -, h⟩ := bind_eq_ok.1 h
  obtain ⟨_, -, h⟩ := bind_eq_ok.1 h
  obtain ⟨_, -, h⟩ := bind_eq_ok.1 h
  obtain ⟨_, hcur, h⟩ := bind_eq_ok.1 h
  obtain ⟨⟨status, startsAt⟩, hplace, h⟩ := bind_eq_ok.1 h
  obtain ⟨period, -, h⟩ := bind_eq_ok.1 h
  obtain ⟨_, -, h⟩ := bind_eq_ok.1 h
  obtain ⟨_, -, h⟩ := bind_eq_ok.1 h
  obtain rfl := pure_eq_ok.1 h
  exact ⟨rfl, rfl, rfl, require_ok.1 hcur, hplace⟩

variable {status : SubscriptionStatus}

theorem scheduleAt_ok {startsAt b : Instant} {current scheduled : Option Subscription}
    (h : scheduleAt startsAt current scheduled = .ok (status, b)) :
    status = .scheduled ∧ scheduled = none ∧
      ∀ r ∈ current, ∃ e, r.endsAt = some e ∧ e ≤ b := by
  unfold scheduleAt at h
  split at h
  · cases h
  · rename_i hs
    split at h
    · cases h
    · rename_i hover
      obtain ⟨rfl, rfl⟩ := pair_eq_ok.1 h
      refine ⟨rfl, by simpa using hs, ?_⟩
      rintro r rfl
      cases he : r.endsAt with
      | none => simp [he] at hover
      | some e => exact ⟨e, rfl, by simpa [he] using hover⟩

theorem placePlan_ok {c : Catalog} {input : AssignPlan} {now b : Instant}
    {current scheduled : Option Subscription}
    (h : placePlan c input ctx now current scheduled = .ok (status, b)) :
    status = .active ∨ status = .scheduled ∧ scheduled = none ∧
      ∀ r ∈ current, ∃ e, r.endsAt = some e ∧ e ≤ b := by
  unfold placePlan at h
  cases hexp : ctx.explicitTerms with
  | some terms =>
    simp only [hexp] at h
    obtain ⟨period, -, h⟩ := bind_eq_ok.1 h
    cases hpol : input.activationPolicy with
    | afterCurrent =>
      simp only [hpol] at h
      split at h
      · cases h
      · exact .inr (scheduleAt_ok h)
    | immediate =>
      simp only [hpol] at h
      split at h
      · exact .inr (scheduleAt_ok h)
      · exact .inl (pair_eq_ok.1 h).1.symm
  | none =>
    simp only [hexp] at h
    split at h
    · split at h
      · cases h
      · rename_i hs
        split at h
        · cases h
        · rename_i e he
          obtain ⟨rfl, rfl⟩ := pair_eq_ok.1 h
          refine .inr ⟨rfl, by simpa using hs, ?_⟩
          rintro r hr
          obtain rfl := Option.some.inj hr
          exact ⟨e, he, le_rfl⟩
    · exact .inl (pair_eq_ok.1 h).1.symm

theorem placePlan_afterCurrent {c : Catalog} {input : AssignPlan}
    {now b : Instant} {current : Subscription} {scheduled : Option Subscription}
    (hpol : input.activationPolicy = .afterCurrent)
    (hexp : ctx.explicitTerms = none)
    (h : placePlan c input ctx now (some current) scheduled = .ok (status, b)) :
    current.endsAt = some b := by
  unfold placePlan at h
  simp only [hexp, hpol] at h
  split at h
  · cases h
  · split at h
    · cases h
    · rename_i e he
      obtain ⟨-, rfl⟩ := pair_eq_ok.1 h
      exact he

/-! ## The writes -/

def retireIn (now : Instant) (row : Option Subscription) (status : SubscriptionStatus)
    (rows : List Subscription) : List Subscription :=
  match row with
  | none => rows
  | some row =>
    Table.update (isRow row) (fun r => { r with status := status, updatedAt := now }) rows

/-- The rows an assignment leaves before it appends its own. -/
def PlanAssignment.remaining (a : PlanAssignment) (now : Instant) (rows : List Subscription) :
    List Subscription :=
  let settled := retireIn now a.expiredCurrent .expired rows
  if a.status = .active then
    retireIn now a.current .superseded (retireIn now a.scheduled .cancelled settled)
  else settled

theorem of_mem_retireIn {now : Instant} {row : Option Subscription} {r : Subscription}
    (hr : r ∈ retireIn now row status rows)
    (hstatus : r.status ≠ status) : r ∈ rows ∧ row ≠ some r := by
  cases row with
  | none => exact ⟨hr, by simp⟩
  | some row =>
    obtain ⟨x, hx, rfl⟩ := Table.mem_update.1 hr
    by_cases hp : isRow row x = true
    · rw [if_pos hp] at hstatus
      exact absurd rfl hstatus
    · rw [if_neg hp]
      refine ⟨hx, fun h => hp ?_⟩
      obtain rfl := Option.some.inj h
      simp [isRow, LawfulDated.sameStatus_refl]

theorem subscriptions_foldl_recordEvent {α : Type} (f : α → Event) (l : List α) (t : Tables) :
    (l.foldl (fun t a => t.recordEvent (f a)) t).subscriptions = t.subscriptions := by
  induction l generalizing t with
  | nil => rfl
  | cons a l ih => rw [List.foldl_cons, ih, subscriptions_recordEvent]

theorem addons_foldl_recordEvent {α : Type} (f : α → Event) (l : List α) (t : Tables) :
    (l.foldl (fun t a => t.recordEvent (f a)) t).addons = t.addons := by
  induction l generalizing t with
  | nil => rfl
  | cons a l ih => rw [List.foldl_cons, ih, addons_recordEvent]

section

variable {ctx : AssignmentContext} {reason : String} {now : Instant} {t t' : Tables}

theorem retireSubscriptionAddons_ok {id : Uuid}
    (h : retireSubscriptionAddons ctx reason now id t = .ok t') :
    t'.subscriptions = t.subscriptions ∧ t'.addons = t.addons.map (·.retired id now) := by
  unfold retireSubscriptionAddons at h
  obtain ⟨written, hw, h⟩ := bind_eq_ok.1 h
  obtain rfl := pure_eq_ok.1 h
  obtain ⟨_, rfl⟩ := storeAddons_ok.1 hw
  exact ⟨subscriptions_foldl_recordEvent _ _ _, addons_foldl_recordEvent _ _ _⟩

theorem retireSubscription_ok {row : Subscription} {status : SubscriptionStatus} {kind : EventKind}
    {e : Instant} (h : retireSubscription ctx reason now row status kind e t = .ok t') :
    t'.subscriptions = retireIn now (some row) status t.subscriptions ∧
      t'.addons = t.addons.map (·.retired row.id now) := by
  unfold retireSubscription at h
  obtain ⟨written, hw, h⟩ := bind_eq_ok.1 h
  obtain ⟨_, -, h⟩ := bind_eq_ok.1 h
  obtain ⟨retired, hretired, h⟩ := bind_eq_ok.1 h
  obtain rfl := pure_eq_ok.1 h
  obtain ⟨_, rfl⟩ := storeSubscriptions_ok.1 hw
  obtain ⟨hsubs, haddons⟩ := retireSubscriptionAddons_ok hretired
  rw [subscriptions_recordEvent, addons_recordEvent, hsubs, haddons]
  exact ⟨rfl, rfl⟩

theorem retireSome_ok {row : Option Subscription} {status : SubscriptionStatus} {kind : EventKind}
    {e : Subscription → Instant} (h : retireSome ctx reason now row status kind e t = .ok t') :
    t'.subscriptions = retireIn now row status t.subscriptions := by
  cases row with
  | none =>
    obtain rfl := Except.ok.inj h
    rfl
  | some row => exact (retireSubscription_ok h).1

theorem write_ok {a : PlanAssignment} {input : AssignPlan} {newId : Uuid} {created : Subscription}
    (h : a.write input ctx now newId t = .ok (created, t')) :
    created = a.row input ctx now newId ∧
      t'.subscriptions = a.remaining now t.subscriptions ++ [created] := by
  unfold PlanAssignment.write at h
  obtain ⟨settled, hsettled, h⟩ := bind_eq_ok.1 h
  obtain ⟨cleared, hcleared, h⟩ := bind_eq_ok.1 h
  obtain ⟨written, hwritten, h⟩ := bind_eq_ok.1 h
  obtain ⟨rfl, rfl⟩ := pair_eq_ok.1 h
  obtain ⟨_, rfl⟩ := storeSubscriptions_ok.1 hwritten
  refine ⟨rfl, ?_⟩
  have hrows : cleared.subscriptions = a.remaining now t.subscriptions := by
    unfold PlanAssignment.clear at hcleared
    unfold PlanAssignment.remaining
    by_cases ha : a.status = .active
    · simp only [ha, if_true] at hcleared ⊢
      obtain ⟨scheduled, hscheduled, hcleared⟩ := bind_eq_ok.1 hcleared
      rw [retireSome_ok hcleared, retireSome_ok hscheduled, retireSome_ok hsettled]
    · simp only [ha, if_false] at hcleared ⊢
      obtain rfl := pure_eq_ok.1 hcleared
      exact retireSome_ok hsettled
  rw [subscriptions_recordEvent]
  show cleared.subscriptions ++ [_] = _
  rw [hrows]

/-- **What a plan's assignment leaves**: the rows it did not replace, and the new one. -/
theorem assignPlan_rows {c : Catalog} {input : AssignPlan} {newId : Uuid} {created : Subscription}
    (h : assignPlanInTransaction c input ctx now newId t = .ok (created, t')) :
    ∃ a, planAssignment c input ctx now t.subscriptions = .ok a ∧
      created = a.row input ctx now newId ∧
      t'.subscriptions = a.remaining now t.subscriptions ++ [created] := by
  unfold assignPlanInTransaction at h
  obtain ⟨a, ha, h⟩ := bind_eq_ok.1 h
  exact ⟨a, ha, write_ok h⟩

theorem assignAddon_rows {c : Catalog} {input : AssignAddon} {newId : Uuid} {created : Addon}
    (h : assignAddonInTransaction c input ctx now newId t = .ok (created, t')) :
    addonAssignment c input ctx now newId t.subscriptions = .ok created ∧
      t'.subscriptions = t.subscriptions ∧ t'.addons = t.addons ++ [created] := by
  unfold assignAddonInTransaction at h
  obtain ⟨a, ha, h⟩ := bind_eq_ok.1 h
  obtain ⟨_, -, h⟩ := bind_eq_ok.1 h
  obtain ⟨written, hw, h⟩ := bind_eq_ok.1 h
  obtain ⟨rfl, rfl⟩ := pair_eq_ok.1 h
  obtain ⟨_, rfl⟩ := storeAddons_ok.1 hw
  rw [subscriptions_recordEvent, addons_recordEvent]
  exact ⟨ha, rfl, rfl⟩

end

end Markiro.Subscriptions
