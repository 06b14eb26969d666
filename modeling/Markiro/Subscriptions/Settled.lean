import Markiro.Subscriptions.Entitlements

/-!
# Rows with the status their term implies

`settled t` gives a row the status the status job would leave it at the instant `t`. Reading the
entitlements at `t` gives the same answer from the settled rows as from the rows themselves
(`resolveRows_settled`), so two tables that settle to the same rows are read alike.
-/

namespace Markiro.Subscriptions

/-! ## Settled rows -/

def SubscriptionStatus.settled (status : SubscriptionStatus) (term : Term) (t : Instant) :
    SubscriptionStatus :=
  match status with
  | .trial => if termEnded term t then .expired else .trial
  | .active => if termEnded term t then .expired else .active
  | .scheduled =>
    if termStarted term t then if termEnded term t then .expired else .active else .scheduled
  | other => other

def AddonStatus.settled (status : AddonStatus) (term : Term) (t : Instant) : AddonStatus :=
  match status with
  | .active => if termEnded term t then .expired else .active
  | .scheduled =>
    if termStarted term t then if termEnded term t then .expired else .active else .scheduled
  | other => other

/-- The row as the job would leave it, without the time of its last change. -/
def Subscription.settled (t : Instant) (r : Subscription) : Subscription :=
  { r with status := r.status.settled r.toTerm t, updatedAt := 0 }

def Addon.settled (t : Instant) (a : Addon) : Addon :=
  { a with status := a.status.settled a.toTerm t }

section

variable (t : Instant)

theorem isEffectiveAt_settled (r : Subscription) :
    isEffectiveAt (r.settled t) t = isEffectiveAt r t := by
  rcases r with ⟨⟨s, e⟩, id, plan, status, period, source, offer, invoice, created, updated⟩
  cases status <;> cases s <;> cases e <;>
    grind [isEffectiveAt, Subscription.settled, SubscriptionStatus.settled, inCandidateStatus,
      termContains, termEnded, termStarted]

theorem pending_settled (r : Subscription) :
    (r.settled t).status = .pendingActivation ↔ r.status = .pendingActivation := by
  unfold Subscription.settled SubscriptionStatus.settled
  cases r.status <;> grind

variable {status : SubscriptionStatus}

theorem scheduled_of_settled {term : Term} {t : Instant}
    (h : status.settled term t = .scheduled) : status = .scheduled := by
  revert h
  unfold SubscriptionStatus.settled
  cases status <;> grind

theorem current_of_settled {term : Term} {t : Instant}
    (h : (status.settled term t).isCurrent = true) :
    status.isCurrent = true ∨ status = .scheduled ∧ termStarted term t = true := by
  revert h
  unfold SubscriptionStatus.settled
  cases status <;> grind [SubscriptionStatus.isCurrent]

theorem not_ended_of_settled {term : Term} {t : Instant}
    (h : (status.settled term t).isCurrent = true) (hs : status ≠ .pendingActivation) :
    termEnded term t = false := by
  revert h hs
  unfold SubscriptionStatus.settled
  cases status <;> grind [SubscriptionStatus.isCurrent]

theorem endedAt_settled (r : Subscription) : endedAt t (r.settled t) = endedAt t r := by
  unfold endedAt Subscription.settled SubscriptionStatus.settled
  cases r.status <;> grind

theorem report_settled (r : Subscription) (status : ReportedStatus) :
    (r.settled t).report status = r.report status := rfl

theorem trial_settled {r : Subscription} (h : isEffectiveAt r t = true) :
    (r.settled t).status = .trial ↔ r.status = .trial := by
  rcases r with ⟨⟨s, e⟩, id, plan, status, period, source, offer, invoice, created, updated⟩
  cases status <;> cases s <;> cases e <;>
    grind [isEffectiveAt, Subscription.settled, SubscriptionStatus.settled, inCandidateStatus,
      termContains, termEnded, termStarted]

theorem countsAt_settled (a : Addon) (subscriptionId : Uuid) :
    (a.settled t).countsAt subscriptionId t = a.countsAt subscriptionId t := by
  rcases a with ⟨⟨s, e⟩, id, sub, version, quantity, status, period, source, offer, invoice⟩
  cases status <;> cases s <;> cases e <;>
    grind [Addon.countsAt, Addon.settled, AddonStatus.settled, termContains, termEnded,
      termStarted]

theorem contributorOf_settled (c : Catalog) (a : Addon) :
    contributorOf c (a.settled t) = contributorOf c a := by
  rcases a with ⟨⟨s, e⟩, id, sub, version, quantity, status, period, source, offer, invoice⟩
  have hcond : ((Addon.settled t ⟨⟨s, e⟩, id, sub, version, quantity, status, period, source,
      offer, invoice⟩).status = .scheduled ∧ s = none) ↔ status = .scheduled ∧ s = none := by
    cases status <;> cases s <;> grind [Addon.settled, AddonStatus.settled, termStarted]
  unfold contributorOf
  by_cases hs : status = .scheduled ∧ s = none
  · rw [if_pos hs]
    exact if_pos (hcond.2 hs)
  · rw [if_neg hs]
    exact if_neg fun h => hs (hcond.1 h)

end

/-! ## Reading settled rows -/

theorem sort_map {α : Type} {r : α → α → Prop} [DecidableRel r] (f : α → α) {l : List α}
    (h : ∀ a b, r a b ↔ r (f a) (f b)) :
    (l.map f).insertionSort r = (l.insertionSort r).map f :=
  (List.map_insertionSort r r f l fun a _ b _ => h a b).symm

theorem isEffectiveAt_of_effective {rows : List Subscription} {t : Instant} {r : Subscription}
    (h : effectiveSubscription rows t = .ok (some r)) : isEffectiveAt r t = true := by
  unfold effectiveSubscription at h
  split at h
  · cases h
  · next row hrow =>
    obtain rfl : row = r := by simpa using h
    have hmem := List.mem_singleton_self row
    rw [← hrow] at hmem
    exact (List.mem_filter.1 hmem).2
  · cases h

section

variable (c : Catalog) (t : Instant) (rows : List Subscription) (addons : List Addon)

theorem effectiveSubscription_settled : effectiveSubscription (rows.map (·.settled t)) t =
      (effectiveSubscription rows t).map (Option.map (·.settled t)) := by
  have hfilter : (rows.map (·.settled t)).filter (isEffectiveAt · t) =
      (rows.filter (isEffectiveAt · t)).map (·.settled t) := by
    rw [List.filter_map]
    congr 2
    funext r
    exact isEffectiveAt_settled t r
  unfold effectiveSubscription
  rw [hfilter]
  rcases rows.filter (isEffectiveAt · t) with _ | ⟨r, _ | ⟨r', rest⟩⟩ <;> rfl

theorem contributorsFor_settled (subscriptionId : Uuid) :
    contributorsFor c (addons.map (·.settled t)) subscriptionId t =
      contributorsFor c addons subscriptionId t := by
  have hfilter : (addons.map (·.settled t)).filter (·.countsAt subscriptionId t) =
      (addons.filter (·.countsAt subscriptionId t)).map (·.settled t) := by
    rw [List.filter_map]
    congr 2
    funext a
    exact countsAt_settled t a subscriptionId
  unfold contributorsFor
  rw [hfilter, sort_map (Addon.settled t) fun a b => Iff.rfl, List.mapM_map]
  congr 1
  funext a
  exact contributorOf_settled t c a

theorem managedEntitlements_settled {selected : Subscription}
    (h : isEffectiveAt selected t = true) :
    managedEntitlements c (addons.map (·.settled t)) (selected.settled t) t =
      managedEntitlements c addons selected t := by
  unfold managedEntitlements
  rw [show (selected.settled t).id = selected.id from rfl,
    show (selected.settled t).planVersionId = selected.planVersionId from rfl,
    contributorsFor_settled]
  simp only [trial_settled t h, report_settled]

theorem lastEnded_settled :
    lastEnded (rows.map (·.settled t)) t = (lastEnded rows t).map (·.settled t) := by
  have hfilter : (rows.map (·.settled t)).filter (endedAt t) =
      (rows.filter (endedAt t)).map (·.settled t) := by
    rw [List.filter_map]
    congr 2
    funext r
    exact endedAt_settled t r
  unfold lastEnded
  rw [hfilter, sort_map (Subscription.settled t) fun a b => Iff.rfl, List.head?_map]

theorem lapsedEntitlements_settled :
    lapsedEntitlements c (rows.map (·.settled t)) t = lapsedEntitlements c rows t := by
  have hfilter : (rows.map (·.settled t)).filter (·.status = .pendingActivation) =
      (rows.filter (·.status = .pendingActivation)).map (·.settled t) := by
    rw [List.filter_map]
    congr 2
    funext r
    exact decide_eq_decide.2 (pending_settled t r)
  unfold lapsedEntitlements
  rw [hfilter, lastEnded_settled]
  generalize rows.filter (·.status = .pendingActivation) = pending
  rcases pending with _ | ⟨r, _ | ⟨r', rest⟩⟩
  · cases lastEnded rows t <;> rfl
  · rfl
  · rfl

/-- **The answer is read off the settled rows.** -/
theorem resolveRows_settled : resolveRows c (rows.map (·.settled t)) (addons.map (·.settled t)) t =
      resolveRows c rows addons t := by
  unfold resolveRows
  by_cases hnil : rows = []
  · simp [hnil]
  · rw [if_neg hnil, if_neg (by simpa using hnil), effectiveSubscription_settled]
    cases heff : effectiveSubscription rows t with
    | error e => rfl
    | ok selected =>
      cases selected with
      | none => exact lapsedEntitlements_settled c t rows
      | some selected =>
        exact managedEntitlements_settled c t addons (isEffectiveAt_of_effective heff)

end

def SettleAlike (t : Instant) (a b : Tables) : Prop :=
  a.subscriptions.map (·.settled t) = b.subscriptions.map (·.settled t) ∧
    a.addons.map (·.settled t) = b.addons.map (·.settled t)

theorem SettleAlike.refl (t : Instant) (a : Tables) : SettleAlike t a a := ⟨rfl, rfl⟩

theorem SettleAlike.trans {t : Instant} {a b d : Tables} (h : SettleAlike t a b)
    (h' : SettleAlike t b d) : SettleAlike t a d := ⟨h.1.trans h'.1, h.2.trans h'.2⟩

variable {t u : Instant}

theorem termEnded_mono {term : Term} (htu : t ≤ u)
    (h : termEnded term t = true) : termEnded term u = true := by
  unfold termEnded at h ⊢
  cases he : term.endsAt with
  | none => simp [he] at h
  | some e =>
    simp only [he, Option.any_some, decide_eq_true_eq] at h ⊢
    exact h.trans htu

theorem termStarted_mono {term : Term} (htu : t ≤ u)
    (h : termStarted term t = true) : termStarted term u = true := by
  unfold termStarted at h ⊢
  cases hs : term.startsAt with
  | none => simp [hs] at h
  | some s =>
    simp only [hs, Option.any_some, decide_eq_true_eq] at h ⊢
    exact h.trans htu

theorem Subscription.settled_settled (htu : t ≤ u) (r : Subscription) :
    (r.settled t).settled u = r.settled u := by
  have he : termEnded r.toTerm t = true → termEnded r.toTerm u = true := termEnded_mono htu
  have hs : termStarted r.toTerm t = true → termStarted r.toTerm u = true :=
    termStarted_mono htu
  unfold Subscription.settled SubscriptionStatus.settled
  cases r.status <;> grind

theorem Addon.settled_settled (htu : t ≤ u) (a : Addon) :
    (a.settled t).settled u = a.settled u := by
  have he : termEnded a.toTerm t = true → termEnded a.toTerm u = true := termEnded_mono htu
  have hs : termStarted a.toTerm t = true → termStarted a.toTerm u = true :=
    termStarted_mono htu
  unfold Addon.settled AddonStatus.settled
  cases a.status <;> grind

theorem SettleAlike.mono (htu : t ≤ u) {a b : Tables} (h : SettleAlike t a b) :
    SettleAlike u a b := by
  constructor
  · have hmap := congrArg (List.map (Subscription.settled u)) h.1
    simpa only [List.map_map, Function.comp_def, Subscription.settled_settled htu] using hmap
  · have hmap := congrArg (List.map (Addon.settled u)) h.2
    simpa only [List.map_map, Function.comp_def, Addon.settled_settled htu] using hmap

theorem SettleAlike.resolve (htu : t ≤ u) {a b : Tables} (h : SettleAlike t a b)
    (c : Catalog) : resolve c a u = resolve c b u := by
  obtain ⟨hsubs, haddons⟩ := h.mono htu
  have hsort : (a.subscriptions.insertionSort Subscription.createdBefore).map (·.settled u) =
      (b.subscriptions.insertionSort Subscription.createdBefore).map (·.settled u) := by
    rw [← sort_map (r := Subscription.createdBefore) (Subscription.settled u) fun _ _ => Iff.rfl,
      ← sort_map (r := Subscription.createdBefore) (Subscription.settled u) fun _ _ => Iff.rfl,
      hsubs]
  unfold Subscriptions.resolve
  rw [← resolveRows_settled c u, ← resolveRows_settled c u
    (b.subscriptions.insertionSort Subscription.createdBefore), hsort, haddons]

end Markiro.Subscriptions
