import Markiro.Subscriptions.OneInForce

/-!
# When the status job's timing decides an assignment

An assignment at an instant treats a current row past its end as expired, whatever its status, but
looks a successor up by its status alone. So the job's timing is invisible to assignments exactly
while it has no subscription to change (`job_timing_invisible_iff`): add-ons that are due make no
difference (`Near` is kept by every step of an assignment), while a subscription that is due is seen
by a paid add-on, which finds a target or finds none.
-/

namespace Markiro.Subscriptions

open Results

/-! ## What the claim compares -/

def Call.assignsAt (t : Instant) : Call → Prop
  | .assignPlan _ _ _ now _ => now = t
  | .assignAddon _ _ _ now _ => now = t
  | .applyPaidLicense _ _ operationAt _ _ => operationAt = t
  | _ => False

def License.term : License → Term
  | .plan row => row.toTerm
  | .addon row => row.toTerm

def License.status : License → SubscriptionStatus ⊕ AddonStatus
  | .plan row => .inl row.status
  | .addon row => .inr row.status

def License.isIn (tables : Tables) : License → Prop
  | .plan row => row ∈ tables.subscriptions
  | .addon row => row ∈ tables.addons

/-- Two answers to one assignment: the same refusal, or a new row of the same term and status. -/
def SameAnswer (tables : Tables) : Except Refusal Reply → Except Refusal Reply → Prop
  | .error e, .error e' => e = e'
  | .ok (.license row), .ok (.license row') =>
    row.isIn tables ∨ row'.term = row.term ∧ row'.status = row.status
  | _, _ => False

section

variable (digest : Entity → Uuid → EventKind → Instant → Uuid)

/-- At `t` every assignment has the same outcome with the job having run at `t` as without: the same
answer, and entitlements that read the same from then on. -/
def JobInvisible (c : Catalog) (tables : Tables) (t : Instant) : Prop :=
  ∀ (call : Call) (now : Instant), call.assignsAt t →
    let without := serve digest c call tables
    let settled := serve digest c call (serve digest c (.runStatusJob t now) tables).2
    SameAnswer tables without.1 settled.1 ∧
      ∀ (c' : Catalog) (u : Instant), t ≤ u → resolve c' without.2 u = resolve c' settled.2 u

/-- The job would change a subscription: a row in force has ended, or a scheduled one has started. -/
def SubscriptionDue (t : Instant) (tables : Tables) : Prop :=
  ∃ r ∈ tables.subscriptions, isDue t r = true

end

/-! ## Add-ons that are due do not matter -/

/-- The same subscriptions, and add-ons that settle alike. -/
def Near (t : Instant) (a b : Tables) : Prop :=
  a.subscriptions = b.subscriptions ∧ a.addons.map (·.settled t) = b.addons.map (·.settled t)

theorem Near.settleAlike {t : Instant} {a b : Tables} (h : Near t a b) : SettleAlike t a b :=
  ⟨by rw [h.1], h.2⟩

section

variable {t : Instant} {a b : Tables}

theorem Near.recordEvent (h : Near t a b) (e e' : Event) :
    Near t (a.recordEvent e) (b.recordEvent e') := by
  unfold Near
  rw [subscriptions_recordEvent, subscriptions_recordEvent, addons_recordEvent, addons_recordEvent]
  exact h

theorem Near.storeSubscriptions (h : Near t a b) (rows : List Subscription) :
    Matched (Near t) (a.storeSubscriptions rows) (b.storeSubscriptions rows) := by
  unfold Tables.storeSubscriptions
  by_cases hrows : SubscriptionConstraints rows
  · rw [dif_pos hrows, dif_pos hrows]
    exact .ok ⟨rfl, h.2⟩
  · rw [dif_neg hrows, dif_neg hrows]
    exact .error _

/-- The constraints on add-ons are those on their settled rows. -/
theorem constraints_settled (t : Instant) (rows : List Addon) :
    AddonConstraints (rows.map (·.settled t)) ↔ AddonConstraints rows := by
  constructor
  · intro h
    refine ⟨?_, ?_, fun a ha => ?_, fun a ha => ?_, fun a ha => ?_⟩
    · have hids := h.ids
      unfold Table.Unique at hids
      rw [List.map_map] at hids
      exact hids
    · have hlines := h.invoiceLines
      unfold Table.UniqueSome at hlines
      rw [List.filterMap_map] at hlines
      exact hlines
    · exact h.timeOrder (a.settled t) (List.mem_map_of_mem ha)
    · exact h.quantityPositive (a.settled t) (List.mem_map_of_mem ha)
    · exact h.commercialSource (a.settled t) (List.mem_map_of_mem ha)
  · exact constraints_addon fun a => a.status.settled a.toTerm t

theorem Near.storeAddons (h : Near t a b) {rows rows' : List Addon}
    (hrows : rows.map (·.settled t) = rows'.map (·.settled t)) :
    Matched (Near t) (a.storeAddons rows) (b.storeAddons rows') := by
  unfold Tables.storeAddons
  have hiff : AddonConstraints rows ↔ AddonConstraints rows' := by
    rw [← constraints_settled t rows, hrows, constraints_settled]
  by_cases hr : AddonConstraints rows
  · rw [dif_pos hr, dif_pos (hiff.1 hr)]
    exact .ok ⟨h.1, hrows⟩
  · rw [dif_neg hr, dif_neg fun h' => hr (hiff.2 h')]
    exact .error _

theorem settled_retired (id : Uuid) (a : Addon) :
    (a.retired id t).settled t = ((a.settled t).retired id t).settled t := by
  have hterm : (a.settled t).toTerm = a.toTerm := rfl
  have hsub : (a.settled t).subscriptionId = a.subscriptionId := rfl
  unfold Addon.retired
  rw [hterm, hsub]
  by_cases hid : a.subscriptionId = id
  · unfold Addon.settled AddonStatus.settled
    cases hs : a.status <;> grind
  · simp only [hid, false_and, if_false]
    exact (Addon.settled_settled le_rfl a).symm

theorem namedFor_settled (id : Uuid) (a : Addon) :
    (a.settled t).namedFor id t = a.namedFor id t := by
  rcases a with ⟨⟨s, e⟩, i, sub, version, quantity, status, period, source, offer, invoice⟩
  cases status <;> cases e <;>
    grind [Addon.namedFor, Addon.settled, AddonStatus.settled, termEnded, termStarted]

theorem map_settled_congr {rows rows' : List Addon} {f : Addon → Addon}
    (hf : ∀ x : Addon, (f x).settled t = (f (x.settled t)).settled t)
    (h : rows.map (·.settled t) = rows'.map (·.settled t)) :
    (rows.map f).map (·.settled t) = (rows'.map f).map (·.settled t) := by
  have hcomp : ∀ l : List Addon, (l.map f).map (·.settled t) =
      (l.map (·.settled t)).map fun x => (f x).settled t := by
    intro l
    rw [List.map_map, List.map_map]
    exact List.map_congr_left fun x _ => hf x
  rw [hcomp, hcomp, h]

/-! ## An assignment on near tables -/

section

variable {c : Catalog} {ctx : AssignmentContext} {reason : String}

theorem Near.retireSubscriptionAddons (h : Near t a b) (id : Uuid) :
    Matched (Near t) (Subscriptions.retireSubscriptionAddons ctx reason t id a)
      (Subscriptions.retireSubscriptionAddons ctx reason t id b) := by
  unfold Subscriptions.retireSubscriptionAddons
  refine (h.storeAddons (map_settled_congr (settled_retired id) h.2)).bind fun a' b' h' => .ok ?_
  unfold Near
  rw [subscriptions_foldl_recordEvent, subscriptions_foldl_recordEvent, addons_foldl_recordEvent,
    addons_foldl_recordEvent]
  exact h'

theorem Near.retireSubscription (h : Near t a b) (row : Subscription) (status : SubscriptionStatus)
    (kind : EventKind) (e : Instant) :
    Matched (Near t) (Subscriptions.retireSubscription ctx reason t row status kind e a)
      (Subscriptions.retireSubscription ctx reason t row status kind e b) := by
  unfold Subscriptions.retireSubscription
  rw [h.1]
  refine (h.storeSubscriptions _).bind fun a1 b1 h1 => ?_
  refine .bind_same _ fun _ _ => ?_
  exact (h1.retireSubscriptionAddons row.id).bind fun a2 b2 h2 => .ok (h2.recordEvent _ _)

theorem Near.retireSome (h : Near t a b) (row : Option Subscription) (status : SubscriptionStatus)
    (kind : EventKind) (e : Subscription → Instant) :
    Matched (Near t) (Subscriptions.retireSome ctx reason t row status kind e a)
      (Subscriptions.retireSome ctx reason t row status kind e b) := by
  cases row with
  | none => exact .ok h
  | some row => exact h.retireSubscription row status kind (e row)

def NearWith {α : Type} (t : Instant) (x y : α × Tables) : Prop := x.1 = y.1 ∧ Near t x.2 y.2

theorem Near.assignPlan (h : Near t a b) (input : AssignPlan) (newId : Uuid) :
    Matched (NearWith t) (assignPlanInTransaction c input ctx t newId a)
      (assignPlanInTransaction c input ctx t newId b) := by
  unfold assignPlanInTransaction
  rw [h.1]
  refine .bind_same _ fun p _ => ?_
  unfold PlanAssignment.write
  refine (h.retireSome _ _ _ _).bind fun a1 b1 h1 => ?_
  have hclear : Matched (Near t) (p.clear input ctx t a1) (p.clear input ctx t b1) := by
    unfold PlanAssignment.clear
    split
    · exact (h1.retireSome _ _ _ _).bind fun a2 b2 h2 => h2.retireSome _ _ _ _
    · exact .ok h1
  refine hclear.bind fun a2 b2 h2 => ?_
  dsimp only
  rw [h2.1]
  exact (h2.storeSubscriptions _).bind fun a3 b3 h3 => .ok ⟨rfl, h3.recordEvent _ _⟩

theorem Near.assignAddon (h : Near t a b) (input : AssignAddon) (newId : Uuid) :
    Matched (NearWith t) (assignAddonInTransaction c input ctx t newId a)
      (assignAddonInTransaction c input ctx t newId b) := by
  unfold assignAddonInTransaction
  rw [h.1]
  refine .bind_same _ fun created _ => ?_
  have hcount : ∀ rows : List Addon, rows.countP (·.namedFor created.subscriptionId t) =
      (rows.map (·.settled t)).countP (·.namedFor created.subscriptionId t) := by
    intro rows
    rw [List.countP_map]
    refine List.countP_congr fun x _ => ?_
    rw [Function.comp_apply, namedFor_settled]
  have hcapacity : assertStandaloneAssignmentCapacity c a.addons created.subscriptionId t =
      assertStandaloneAssignmentCapacity c b.addons created.subscriptionId t := by
    unfold assertStandaloneAssignmentCapacity
    rw [hcount a.addons, hcount b.addons, h.2]
  rw [hcapacity]
  refine .bind_same _ fun _ _ => ?_
  have happend : (a.addons ++ [created]).map (·.settled t) =
      (b.addons ++ [created]).map (·.settled t) := by
    rw [List.map_append, List.map_append, h.2]
  exact (h.storeAddons happend).bind fun a1 b1 h1 => .ok ⟨rfl, h1.recordEvent _ _⟩

theorem Near.applyPaidPlan (h : Near t a b) (line : PaidLine) (terms : PaidLicenseTerms)
    (origin : PaidLicenseOrigin) (newId : Uuid) :
    Matched (NearWith t) (Subscriptions.applyPaidPlan c line terms origin t reason newId a)
      (Subscriptions.applyPaidPlan c line terms origin t reason newId b) := by
  unfold Subscriptions.applyPaidPlan
  rw [← h.1]
  cases a.subscriptions.find? (origin.sourceOf · = some origin.lineId) with
  | some previous => exact .ok ⟨rfl, h⟩
  | none =>
    refine (h.assignPlan _ newId).bind fun x y hxy => ?_
    obtain ⟨x1, a1⟩ := x
    obtain ⟨y1, b1⟩ := y
    obtain ⟨rfl, h1⟩ := hxy
    exact .ok ⟨rfl, h1⟩

theorem Near.find_addon (h : Near t a b) (origin : PaidLicenseOrigin) :
    (a.addons.find? (origin.addonSourceOf · = some origin.lineId)).map (·.settled t) =
      (b.addons.find? (origin.addonSourceOf · = some origin.lineId)).map (·.settled t) := by
  have hmap : ∀ rows : List Addon,
      (rows.map (·.settled t)).find? (origin.addonSourceOf · = some origin.lineId) =
        (rows.find? (origin.addonSourceOf · = some origin.lineId)).map (·.settled t) := by
    intro rows
    rw [List.find?_map]
    congr 2
  rw [← hmap, ← hmap, h.2]

/-- A new add-on starts at once, or when the scheduled subscription does. -/
theorem addonAssignment_start {input : AssignAddon} {newId : Uuid} {rows : List Subscription}
    {created : Addon} (h : addonAssignment c input ctx t newId rows = .ok created) :
    ∃ target s, (findTimelineSubscriptions rows).target input.activationPolicy = some target ∧
      addonStart input target t = .ok s ∧ created.startsAt = some s := by
  unfold addonAssignment at h
  obtain ⟨_, -, h⟩ := bind_eq_ok.1 h
  obtain ⟨candidate, -, h⟩ := bind_eq_ok.1 h
  obtain ⟨_, -, h⟩ := bind_eq_ok.1 h
  obtain ⟨_, -, h⟩ := bind_eq_ok.1 h
  cases htarget : (findTimelineSubscriptions rows).target input.activationPolicy with
  | none =>
    simp only [htarget] at h
    cases h
  | some target =>
    simp only [htarget] at h
    obtain ⟨_, -, h⟩ := bind_eq_ok.1 h
    obtain ⟨_, -, h⟩ := bind_eq_ok.1 h
    obtain ⟨s, hs, h⟩ := bind_eq_ok.1 h
    obtain ⟨_, -, h⟩ := bind_eq_ok.1 h
    obtain ⟨period, -, h⟩ := bind_eq_ok.1 h
    obtain ⟨_, -, h⟩ := bind_eq_ok.1 h
    obtain ⟨_, -, h⟩ := bind_eq_ok.1 h
    obtain ⟨_, -, h⟩ := bind_eq_ok.1 h
    obtain rfl := pure_eq_ok.1 h
    exact ⟨target, s, rfl, hs, rfl⟩

/-- While no subscription is due, a paid add-on starts at the instant it is applied or later. -/
theorem le_addonStart {line : PaidLine} {terms : PaidLicenseTerms} {id newId : Uuid} {q : ℤ}
    {rows : List Subscription} {created : Addon} (hdue : ∀ r ∈ rows, isDue t r = false)
    (h : addonAssignment c ⟨paidInput line terms reason, id, q⟩ ctx t newId rows = .ok created) :
    t ≤ created.startsAt.getD t := by
  obtain ⟨target, s, htarget, hs, hcreated⟩ := addonAssignment_start h
  rw [hcreated, Option.getD_some]
  unfold addonStart at hs
  dsimp only at hs htarget
  cases hpol : (paidInput line terms reason).activationPolicy with
  | immediate =>
    simp only [hpol] at hs
    exact (Except.ok.inj hs).le
  | afterCurrent =>
    simp only [hpol] at hs htarget
    obtain ⟨hmem, hsch⟩ := mem_of_scheduled htarget
    have hnot := hdue target hmem
    rw [due_of_scheduled (by show target.status.stage = _; rw [hsch]; rfl)] at hnot
    cases hstart : target.startsAt with
    | none =>
      simp only [hstart] at hs
      cases hs
    | some b =>
      simp only [hstart] at hs
      obtain rfl := Except.ok.inj hs
      have hlt : termStarted target.toTerm t = decide (b ≤ t) := by simp [termStarted, hstart]
      rw [show Dated.term target = target.toTerm from rfl, hlt, decide_eq_false_iff_not,
        not_le] at hnot
      exact hnot.le

def SameRow (t : Instant) (a : Tables) (x y : License × Tables) : Prop :=
  (x.1.isIn a ∧ x.1.id = y.1.id ∨ x.1 = y.1) ∧ Near t x.2 y.2

theorem Near.applyPaidAddon (h : Near t a b) (hdue : ∀ r ∈ a.subscriptions, isDue t r = false)
    (line : PaidLine) (terms : PaidLicenseTerms) (origin : PaidLicenseOrigin) (newId : Uuid) :
    Matched (SameRow t a) (Subscriptions.applyPaidAddon c line terms origin t reason newId a)
      (Subscriptions.applyPaidAddon c line terms origin t reason newId b) := by
  have hfind := h.find_addon origin
  unfold Subscriptions.applyPaidAddon
  cases hfa : a.addons.find? (origin.addonSourceOf · = some origin.lineId) with
  | some x =>
    rw [hfa] at hfind
    obtain ⟨y, hfb, hy⟩ := Option.map_eq_some_iff.1 hfind.symm
    rw [hfb]
    refine .ok ⟨.inl ⟨List.mem_of_find?_eq_some hfa, ?_⟩, h⟩
    exact (congrArg Addon.id hy).symm
  | none =>
    rw [hfa] at hfind
    rw [Option.map_eq_none_iff.1 hfind.symm]
    dsimp only
    rw [← h.1]
    cases (findTimelineSubscriptions a.subscriptions).target
        (paidInput line terms reason).activationPolicy with
    | none => exact .error _
    | some target =>
      dsimp only
      refine (h.assignAddon ⟨paidInput line terms reason, target.id, line.quantity⟩ newId).bind_of
        fun x y hx hxy => ?_
      obtain ⟨created, a1⟩ := x
      obtain ⟨created', b1⟩ := y
      obtain ⟨rfl, h1⟩ := hxy
      have hstart := le_addonStart hdue (assignAddon_rows hx).1
      dsimp only
      rw [h1.settleAlike.resolve hstart c]
      exact .bind_same _ fun _ _ => .ok ⟨.inr rfl, h1⟩

theorem Near.applyPaidLicense (h : Near t a b) (hdue : ∀ r ∈ a.subscriptions, isDue t r = false)
    (line : PaidLine) (origin : PaidLicenseOrigin) (newId : Uuid) :
    Matched (SameRow t a) (Subscriptions.applyPaidLicense c line origin t reason newId a)
      (Subscriptions.applyPaidLicense c line origin t reason newId b) := by
  unfold Subscriptions.applyPaidLicense
  refine .bind_same _ fun terms _ => ?_
  cases line.kind with
  | addon => exact h.applyPaidAddon hdue line terms origin newId
  | plan => exact (h.applyPaidPlan line terms origin newId).imp fun x y hxy => ⟨.inr hxy.1, hxy.2⟩

end

end

section

variable (digest : Entity → Uuid → EventKind → Instant → Uuid) {t : Instant} {a b : Tables}

/-- Two replies with rows: one that was there, or the same one. -/
def SameReply (t : Instant) (a : Tables) (x y : Reply × Tables) : Prop :=
  ∃ row row', x.1 = .license row ∧ y.1 = .license row' ∧ (row.isIn a ∨ row = row') ∧
    Near t x.2 y.2

theorem serve_matched {c : Catalog} {call : Call} (h : Near t a b)
    (hm : Matched (SameReply t a) (call.body digest c a) (call.body digest c b)) :
    SameAnswer a (serve digest c call a).1 (serve digest c call b).1 ∧
      Near t (serve digest c call a).2 (serve digest c call b).2 := by
  unfold serve
  generalize call.body digest c a = x at hm ⊢
  generalize call.body digest c b = y at hm ⊢
  cases hm with
  | error e => exact ⟨rfl, h⟩
  | @ok x y hxy =>
    obtain ⟨reply, a1⟩ := x
    obtain ⟨reply', b1⟩ := y
    obtain ⟨row, row', hrow, hrow', hsame, hnear⟩ := hxy
    dsimp only at hrow hrow'
    subst hrow hrow'
    refine ⟨?_, hnear⟩
    rcases hsame with hin | rfl
    · exact .inl hin
    · exact .inr ⟨rfl, rfl⟩

/-- **Near tables answer an assignment alike**, while no subscription is due. -/
theorem Near.serve (h : Near t a b) (hdue : ∀ r ∈ a.subscriptions, isDue t r = false)
    (c : Catalog) {call : Call} (hcall : call.assignsAt t) :
    SameAnswer a (Subscriptions.serve digest c call a).1
        (Subscriptions.serve digest c call b).1 ∧
      Near t (Subscriptions.serve digest c call a).2 (Subscriptions.serve digest c call b).2 := by
  cases call with
  | activatePendingDemo => cases hcall
  | runStatusJob => cases hcall
  | assignPlan admin input version now newId =>
    obtain rfl : now = t := hcall
    refine serve_matched digest h (.bind_same _ fun _ _ => ?_)
    exact (h.assignPlan input newId).bind fun x y hxy =>
      .ok ⟨.plan x.1, .plan y.1, rfl, rfl, .inr (by rw [hxy.1]), hxy.2⟩
  | assignAddon admin input version now newId =>
    obtain rfl : now = t := hcall
    refine serve_matched digest h (.bind_same _ fun _ _ => ?_)
    exact (h.assignAddon input newId).bind fun x y hxy =>
      .ok ⟨.addon x.1, .addon y.1, rfl, rfl, .inr (by rw [hxy.1]), hxy.2⟩
  | applyPaidLicense line origin operationAt reason newId =>
    obtain rfl : operationAt = t := hcall
    refine serve_matched digest h ?_
    exact (h.applyPaidLicense hdue line origin newId).bind fun x y hxy =>
      .ok ⟨x.1, y.1, rfl, rfl, hxy.1.imp (·.1) id, hxy.2⟩

/-- While no subscription is due the job writes add-ons only. -/
theorem near_runStatusJob {now : Instant} {res : MaterializeResult}
    (hdue : ∀ r ∈ a.subscriptions, isDue t r = false)
    (h : runStatusJob digest now t a = .ok (res, b)) : Near t a b := by
  obtain ⟨res1, t1, res2, t2, h1, h2, h3⟩ := runStatusJob_ok.1 h
  have hnil : dueRows Subscription t a = [] := by
    refine List.eq_nil_iff_forall_not_mem.2 fun r hr => ?_
    obtain ⟨hmem, hr⟩ := mem_dueRows.1 hr
    rw [hdue r hmem] at hr
    cases hr
  rw [hnil] at h1 h2
  obtain ⟨-, rfl⟩ := pair_eq_ok.1 h1
  obtain ⟨-, rfl⟩ := pair_eq_ok.1 h2
  refine ⟨?_, ((runStatusJob_settles h).1 t le_rfl).2⟩
  refine (pass_keeps (P := fun x => x.subscriptions = a.subscriptions) ?_ ?_ h3 rfl).symm
  · intro x rs x' hx hP
    obtain ⟨_, rfl⟩ := storeAddons_ok.1 hx
    exact hP
  · intro x e hP
    rw [subscriptions_recordEvent, hP]

theorem jobInvisible_of_not_due (c : Catalog) (h : ¬ SubscriptionDue t a) :
    JobInvisible digest c a t := by
  have hdue : ∀ r ∈ a.subscriptions, isDue t r = false :=
    fun r hr => Bool.eq_false_iff.2 fun hd => h ⟨r, hr, hd⟩
  intro call now hcall without settled
  have hnear : Near t a (Subscriptions.serve digest c (.runStatusJob t now) a).2 := by
    obtain ⟨res, t', hrun, hserve⟩ | ⟨-, hserve⟩ := serve_runStatusJob digest c t now a
    · rw [hserve]
      exact near_runStatusJob digest hdue hrun
    · rw [hserve]
      exact ⟨rfl, rfl⟩
  obtain ⟨hanswer, hafter⟩ := hnear.serve digest hdue c hcall
  exact ⟨hanswer, fun c' u hu => hafter.settleAlike.resolve hu c'⟩

end

/-! ## A subscription that is due -/

section

variable (c : Catalog)

theorem planEntitlements_ne (id : Uuid) :
    planEntitlements c id ≠ .error .subscriptionTargetMissing := by
  unfold planEntitlements
  split
  · exact nofun
  · split
    · exact nofun
    · split <;> exact nofun

theorem addEffect_ne (x : EntitlementContributor) (e : AddonEffect) :
    addEffect x e ≠ .error .subscriptionTargetMissing := by
  unfold addEffect
  split
  · split
    · exact nofun
    · dsimp only
      split <;> exact nofun
  · split <;> exact nofun
  · split <;> exact nofun

theorem contributorOf_ne (addon : Addon) :
    contributorOf c addon ≠ .error .subscriptionTargetMissing := by
  unfold contributorOf
  split
  · exact nofun
  · split
    · exact nofun
    · split
      · exact foldlM_ne_error addEffect_ne _ _
      · exact nofun

theorem addQuota_ne (x : EntitlementContributor) (quotas : QuotaKey → Option ℤ) (key : QuotaKey) :
    addQuota x quotas key ≠ .error .subscriptionTargetMissing := by
  unfold addQuota
  split
  · split <;> exact nofun
  · exact nofun

theorem managedEntitlements_ne (addons : List Addon) (selected : Subscription) (t : Instant) :
    managedEntitlements c addons selected t ≠ .error .subscriptionTargetMissing := by
  refine bind_ne_error (planEntitlements_ne c _) fun plan => ?_
  refine bind_ne_error (mapM_ne_error (contributorOf_ne c) _) fun contributors => ?_
  exact bind_ne_error (foldlM_ne_error (fun quotas x =>
    foldlM_ne_error (addQuota_ne x) _ _) _ _) fun quotas => nofun

/-- The reader throws only that the entitlements are invalid. -/
theorem resolve_ne (tables : Tables) (t : Instant) :
    resolve c tables t ≠ .error .subscriptionTargetMissing := by
  unfold resolve resolveRows
  split
  · exact nofun
  · refine bind_ne_error ?_ fun selected => ?_
    · unfold effectiveSubscription
      split <;> exact nofun
    · cases selected with
      | some selected => exact managedEntitlements_ne c _ selected t
      | none =>
        show lapsedEntitlements c _ t ≠ _
        unfold lapsedEntitlements
        split
        · exact nofun
        · exact bind_ne_error (planEntitlements_ne c _) fun _ => nofun
        · split
          · exact nofun
          · exact bind_ne_error (planEntitlements_ne c _) fun _ => nofun

theorem require_ne {p : Prop} [Decidable p] {e : Refusal} (he : e ≠ .subscriptionTargetMissing) :
    require p e ≠ .error .subscriptionTargetMissing := by
  unfold require
  split
  · exact nofun
  · exact fun h => he (Except.error.inj h)

theorem orOutOfRange_ne (p : Option CommercialPeriod) :
    orOutOfRange p ≠ .error .subscriptionTargetMissing := by
  cases p <;> exact nofun

theorem period_ne (ctx : AssignmentContext) (startsAt : Instant) :
    ctx.period c.calendar startsAt none ≠ .error .subscriptionTargetMissing := by
  cases ctx with
  | manual version => exact nofun
  | paid terms origin =>
    have hperiod : paidPeriod c.calendar terms startsAt none ≠ .error .subscriptionTargetMissing := by
      cases terms with
      | billing period rule => exact orOutOfRange_ne _
      | explicit termStart termEnd rule => exact orOutOfRange_ne _
    show (paidPeriod c.calendar terms startsAt none).map some ≠ _
    cases hp : paidPeriod c.calendar terms startsAt none with
    | error e => exact fun h => hperiod (by rw [hp]; exact congrArg _ (Except.error.inj h))
    | ok p => exact nofun

theorem requireCandidate_ne (kind : CatalogKind) (id : Uuid) (ctx : AssignmentContext) :
    requireCandidate c kind id ctx ≠ .error .subscriptionTargetMissing := by
  refine bind_ne_error (require_ne (by simp)) fun _ => ?_
  refine bind_ne_error (require_ne (by simp)) fun _ => ?_
  unfold requirePublishedVersion
  split
  · exact nofun
  · split <;> exact nofun

theorem addonAssignment_ne (input : AssignAddon) (ctx : AssignmentContext) (now : Instant)
    (newId : Uuid) (rows : List Subscription) :
    addonAssignment c input ctx now newId rows ≠ .error .subscriptionTargetMissing := by
  refine bind_ne_error (require_ne (by simp)) fun _ => ?_
  refine bind_ne_error (requireCandidate_ne c _ _ _) fun candidate => ?_
  refine bind_ne_error ?_ fun _ => ?_
  · cases ctx with
    | manual version => exact require_ne (by simp)
    | paid terms origin => exact nofun
  refine bind_ne_error (require_ne (by simp)) fun _ => ?_
  split
  · exact nofun
  · refine bind_ne_error (require_ne (by simp)) fun _ => ?_
    refine bind_ne_error (require_ne (by simp)) fun _ => ?_
    refine bind_ne_error ?_ fun startsAt => ?_
    · unfold addonStart
      split
      · exact nofun
      · split <;> exact nofun
    refine bind_ne_error (require_ne (by simp)) fun _ => ?_
    refine bind_ne_error (period_ne c ctx startsAt) fun period => ?_
    refine bind_ne_error (require_ne (by simp)) fun _ => ?_
    refine bind_ne_error (require_ne (by simp)) fun _ => ?_
    exact bind_ne_error (require_ne (by simp)) fun _ => nofun

theorem assignAddon_ne (input : AssignAddon) (ctx : AssignmentContext) (now : Instant)
    (newId : Uuid) (t : Tables) :
    assignAddonInTransaction c input ctx now newId t ≠ .error .subscriptionTargetMissing := by
  refine bind_ne_error (addonAssignment_ne c input ctx now newId _) fun created => ?_
  refine bind_ne_error (require_ne (by simp)) fun _ => bind_ne_error ?_ fun written h => by cases h
  unfold Tables.storeAddons
  split <;> intro h <;> cases h

end

/-- A paid add-on with a monthly period. -/
def paidAddon (rule : ActivationRule) : PaidLine :=
  ⟨.addon, 0, 1, some (.license (.billing .month rule))⟩

def ActivationRule.policy : ActivationRule → ActivationPolicy
  | .afterCurrent => .afterCurrent
  | .onApplication => .immediate

section

variable (digest : Entity → Uuid → EventKind → Instant → Uuid) (c : Catalog)
  (rule : ActivationRule) {t : Instant} {tables : Tables} {lineId : Uuid}
  (hnew : ∀ a ∈ tables.addons, a.sourceInvoiceLineId ≠ some lineId)

include hnew

theorem find_new : tables.addons.find?
    ((PaidLicenseOrigin.invoice lineId 0).addonSourceOf · =
      some (PaidLicenseOrigin.invoice lineId 0).lineId) = none :=
  List.find?_eq_none.2 fun a ha h => hnew a ha (of_decide_eq_true h)

/-- The subscription that the add-on is to go with decides. -/
theorem paidAddon_body (o : Option Subscription)
    (h : (findTimelineSubscriptions tables.subscriptions).target rule.policy = o) :
    (Call.applyPaidLicense (paidAddon rule) (.invoice lineId 0) t "" 0).body digest c tables =
        .error .subscriptionTargetMissing ↔ o = none := by
  change (applyPaidAddon c (paidAddon rule) (.billing .month rule) (.invoice lineId 0) t "" 0
    tables >>= _) = _ ↔ _
  unfold applyPaidAddon
  rw [find_new hnew]
  dsimp only
  rw [show (paidInput (paidAddon rule) (.billing .month rule) "").activationPolicy = rule.policy
    by cases rule <;> rfl, h]
  cases o with
  | none => exact ⟨fun _ => rfl, fun _ => rfl⟩
  | some target =>
    refine ⟨fun hbody => absurd hbody (bind_ne_error ?_ fun _ => nofun), nofun⟩
    refine bind_ne_error (assignAddon_ne c _ _ _ _ _) fun x => ?_
    exact bind_ne_error (resolve_ne c _ _) fun _ => nofun

theorem serve_target : (serve digest c (.applyPaidLicense (paidAddon rule) (.invoice lineId 0) t ""
    0) tables).1 = .error .subscriptionTargetMissing ↔
      (findTimelineSubscriptions tables.subscriptions).target rule.policy = none := by
  refine Iff.trans ?_ (paidAddon_body (t := t) digest c rule hnew _ rfl)
  unfold serve
  generalize (Call.applyPaidLicense (paidAddon rule) (.invoice lineId 0) t "" 0).body digest c
    tables = x
  cases x with
  | error e => exact ⟨fun h => congrArg _ (Except.error.inj h), fun h => by rw [h]⟩
  | ok out => exact ⟨nofun, nofun⟩

end

theorem exists_new_line (addons : List Addon) :
    ∃ lineId, ∀ a ∈ addons, a.sourceInvoiceLineId ≠ some lineId := by
  refine ⟨(addons.filterMap (·.sourceInvoiceLineId)).sum + 1, fun a ha h => ?_⟩
  have hmem : (addons.filterMap (·.sourceInvoiceLineId)).sum + 1 ∈
      addons.filterMap (·.sourceInvoiceLineId) := List.mem_filterMap.2 ⟨a, ha, h⟩
  have hle := List.single_le_sum (fun _ _ => Nat.zero_le _) _ hmem
  omega

theorem SettleAlike.new_line {t : Instant} {a b : Tables} (h : SettleAlike t a b) {lineId : Uuid}
    (hnew : ∀ x ∈ a.addons, x.sourceInvoiceLineId ≠ some lineId) :
    ∀ x ∈ b.addons, x.sourceInvoiceLineId ≠ some lineId := by
  intro x hx
  have hmem : x.settled t ∈ a.addons.map (·.settled t) := by
    rw [h.2]
    exact List.mem_map_of_mem hx
  obtain ⟨y, hy, hyx⟩ := List.mem_map.1 hmem
  have hsame : (y.settled t).sourceInvoiceLineId = (x.settled t).sourceInvoiceLineId := by rw [hyx]
  intro hx
  exact hnew y hy (hsame.trans hx)

theorem Ordered.clear {t : Instant} {tables : Tables} (h : Ordered tables.subscriptions) :
    Clear t tables := by
  intro s hs hsch hdue r hr hcur
  obtain ⟨e, b, he, hb, hle⟩ := h r hr hcur s hs hsch
  rw [due_of_scheduled (by show s.status.stage = _; rw [hsch]; rfl)] at hdue
  have hbt : b ≤ t := by
    have hstarted : termStarted s.toTerm t = true := hdue
    simpa [termStarted, hb] using hstarted
  have hended : termEnded r.toTerm t = true := by simpa [termEnded, he] using hle.trans hbt
  have hstage : r.status.stage = .running := by
    cases hs : r.status <;> rw [hs] at hcur <;> try first | rfl | cases hcur
    have hdates := tables.subscriptionsKept.pendingDates r hr hs
    have hend : r.endsAt = none := congrArg Term.endsAt hdates
    rw [hend] at he
    cases he
  rw [due_of_running hstage]
  exact hended

/-- **The job's timing decides an assignment exactly when it has a subscription to change.** For
every reachable table and every instant: each assignment at the instant has the same outcome whether
the job has run at it or not, if and only if no subscription is due then. -/
theorem job_timing_invisible_iff (digest : Entity → Uuid → EventKind → Instant → Uuid)
    (tables : {tables : Tables // Reached digest tables}) (c : Catalog) (t : Instant) :
    JobInvisible digest c tables.1 t ↔ ¬ SubscriptionDue t tables.1 := by
  obtain ⟨tables, hreached⟩ := tables
  refine ⟨fun hinvisible hdue => ?_, jobInvisible_of_not_due digest c⟩
  have hordered := hreached.sound.ordered
  obtain ⟨res, settled, hrun⟩ := runStatusJob_of_clear digest t (hordered.clear (t := t))
  have hserve : (serve digest c (.runStatusJob t t) tables).2 = settled := by
    obtain ⟨res', t', hrun', hserve⟩ | ⟨⟨e, he⟩, -⟩ := serve_runStatusJob digest c t t tables
    · rw [hrun] at hrun'
      rw [hserve, (pair_eq_ok.1 hrun').2]
    · rw [hrun] at he
      cases he
  obtain ⟨lineId, hnew⟩ := exists_new_line tables.addons
  have hnew' := ((runStatusJob_settles hrun).1 t le_rfl).new_line hnew
  -- a paid add-on that has a target before the job's run and none after it
  have hrefute : ∀ (rule : ActivationRule) (target : Subscription),
      (findTimelineSubscriptions tables.subscriptions).target rule.policy = some target →
      (findTimelineSubscriptions settled.subscriptions).target rule.policy = none → False := by
    intro rule target hbefore hafter
    have hanswer := (hinvisible (.applyPaidLicense (paidAddon rule) (.invoice lineId 0) t "" 0) t
      rfl).1
    rw [hserve, (serve_target digest c rule hnew').2 hafter] at hanswer
    have hne : (serve digest c (.applyPaidLicense (paidAddon rule) (.invoice lineId 0) t "" 0)
        tables).1 ≠ .error .subscriptionTargetMissing := fun h =>
      nomatch hbefore.symm.trans ((serve_target digest c rule hnew).1 h)
    generalize (serve digest c (.applyPaidLicense (paidAddon rule) (.invoice lineId 0) t "" 0)
      tables).1 = x at hanswer hne
    cases x with
    | error e => exact hne (congrArg _ hanswer)
    | ok reply => cases reply <;> exact hanswer
  by_cases hsch : ∃ s ∈ tables.subscriptions, s.status = .scheduled ∧ isDue t s = true
  · -- the successor is scheduled before the run and in force, or past, after it
    obtain ⟨s, hs, hsch, hsdue⟩ := hsch
    refine hrefute .afterCurrent s (scheduled_of_mem tables.subscriptionsKept hs hsch) ?_
    cases hfound : (findTimelineSubscriptions settled.subscriptions).scheduled with
    | none => exact hfound
    | some s' =>
      obtain ⟨hmem, hs'⟩ := mem_of_scheduled hfound
      obtain ⟨r, hr, hterm, hstatus⟩ := runStatusJob_origin hrun hmem
      have hrsch := scheduled_of_settled (hstatus.trans hs')
      obtain rfl := Table.eq_of_countP_le_one tables.subscriptionsKept.oneScheduled hr hs
        (decide_eq_true hrsch) (decide_eq_true hsch)
      rw [due_of_scheduled (by show r.status.stage = _; rw [hsch]; rfl)] at hsdue
      have hstarted : termStarted r.toTerm t = true := hsdue
      rw [hrsch, SubscriptionStatus.settled, if_pos hstarted, hs'] at hstatus
      split at hstatus <;> cases hstatus
  · -- a row in force before the run has ended, and nothing takes its place
    obtain ⟨r, hr, hrdue⟩ := hdue
    have hstage : r.status.stage = .running := by
      cases hs : r.status.stage with
      | running => rfl
      | scheduled =>
        refine (hsch ⟨r, hr, ?_, hrdue⟩).elim
        cases hstatus : r.status <;> rw [hstatus] at hs <;> first | rfl | cases hs
      | done =>
        unfold isDue at hrdue
        rw [show Dated.stage r = .done from hs] at hrdue
        cases hrdue
    have hcur : r.status.isCurrent = true := by
      cases hstatus : r.status <;> rw [hstatus] at hstage <;> first | rfl | cases hstage
    rw [due_of_running hstage] at hrdue
    have hended : termEnded r.toTerm t = true := hrdue
    refine hrefute .onApplication r (current_of_mem tables.subscriptionsKept hr hcur) ?_
    cases hfound : (findTimelineSubscriptions settled.subscriptions).current with
    | none => exact hfound
    | some r' =>
      obtain ⟨hmem, hcur'⟩ := mem_of_current hfound
      obtain ⟨x, hx, hterm, hstatus⟩ := runStatusJob_origin hrun hmem
      rw [← hstatus] at hcur'
      have hxcur : x.status.isCurrent = true := by
        obtain hxcur | ⟨hxsch, hstarted⟩ := current_of_settled hcur'
        · exact hxcur
        · refine (hsch ⟨x, hx, hxsch, ?_⟩).elim
          rw [due_of_scheduled (by show x.status.stage = _; rw [hxsch]; rfl)]
          exact hstarted
      obtain rfl := Table.eq_of_countP_le_one tables.subscriptionsKept.oneCurrent hx hr hxcur hcur
      rw [not_ended_of_settled hcur' (fun hp => by rw [hp] at hstage; cases hstage)] at hended
      cases hended

/-! ## A renewal at the rollover -/

namespace Sample

def digest : Entity → Uuid → EventKind → Instant → Uuid := fun _ id _ _ => id

def catalog : Catalog where
  tenant := some .enabled
  versions _ := some {
    kind := .plan, status := .published, recurring := true, hasServiceTerms := false
    hasLifecyclePolicy := false, offlineAvailable := false
    plan := some ⟨fun _ => none, fun _ => true, fun _ => none, none⟩, effects := [] }
  invoiceLines _ := none
  offerLines _ := none
  calendar := ⟨fun _ _ _ => none, fun _ _ => none, fun _ _ => none⟩

def noRows : Tables :=
  ⟨[], [], [], by decide, by decide⟩

def assign (policy : ActivationPolicy) (endsAt now : Instant) (newId : Uuid) : Call :=
  .assignPlan true ⟨1, policy, none, some endsAt, ""⟩ .v4 now newId

/-- A plan to 10 and its successor to 20. -/
def renewed : Tables :=
  (serve digest catalog (assign .afterCurrent 20 1 2)
    (serve digest catalog (assign .immediate 10 0 1) noRows).2).2

theorem reached : Reached digest renewed :=
  ⟨noRows, ⟨rfl, .inl rfl⟩, .step (.step .refl catalog _) catalog _⟩

end Sample

open Sample

/-- At the rollover a plan to follow the successor is refused until the job has run. -/
theorem rollover_refused_before_job : Reached digest renewed ∧
    ¬ JobInvisible digest catalog renewed 10 := by
  refine ⟨reached, fun h => ?_⟩
  have hanswer := (h (assign .afterCurrent 30 10 3) 10 rfl).1
  have hbefore : (serve digest catalog (assign .afterCurrent 30 10 3)
      renewed).1 = .error .subscriptionTimelineChanged := by decide
  rw [hbefore] at hanswer
  have hafter : ∃ row, (serve digest catalog (assign .afterCurrent 30 10 3)
      (serve digest catalog (.runStatusJob 10 10) renewed).2).1 =
      .ok (.license row) := ⟨_, rfl⟩
  obtain ⟨row, hrow⟩ := hafter
  rw [hrow] at hanswer
  exact hanswer

end Markiro.Subscriptions
