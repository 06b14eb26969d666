import Markiro.Subscriptions.Entitlements
import Markiro.Subscriptions.StatusJob

/-!
# Assigning plans and add-ons

`subscription-lifecycle.service.ts`: the activation of a pending demo, the assignment of plans and
add-ons by a platform administrator, and the application of a paid line. Each call runs in one
transaction under the tenant's timeline lock. An assignment is decided from the rows it has read
(`planAssignment`, `addonAssignment`) and written after that.
-/

namespace Markiro.Subscriptions

/-! ## Inputs -/

inductive ActivationPolicy where
  | immediate | afterCurrent
  deriving DecidableEq

structure AssignPlan where
  catalogVersionId : Uuid
  activationPolicy : ActivationPolicy
  effectiveAt : Option Instant
  endsAt : Option Instant
  reason : String
  deriving DecidableEq

structure AssignAddon extends AssignPlan where
  expectedSubscriptionId : Uuid
  quantity : ℤ
  deriving DecidableEq

inductive PaidLicenseOrigin where
  | invoice (invoiceLineId paymentId : Uuid)
  | offer (offerLineId paymentId : Uuid)
  deriving DecidableEq

/-- The version of the commercial contract a client speaks. -/
inductive CommercialVersion where
  | v1 | v2 | v3 | v4
  deriving DecidableEq

/-- Who assigns: an administrator whose client speaks a version, or a paid line. -/
inductive AssignmentContext where
  | manual (commercialVersion : CommercialVersion)
  | paid (terms : PaidLicenseTerms) (origin : PaidLicenseOrigin)
  deriving DecidableEq

def PaidLicenseOrigin.lineId : PaidLicenseOrigin → Uuid
  | .invoice id _ => id
  | .offer id _ => id

def PaidLicenseOrigin.invoiceLineId? : PaidLicenseOrigin → Option Uuid
  | .invoice id _ => some id
  | .offer _ _ => none

def PaidLicenseOrigin.offerLineId? : PaidLicenseOrigin → Option Uuid
  | .invoice _ _ => none
  | .offer id _ => some id

def AssignmentContext.subscriptionSource : AssignmentContext → Source
  | .manual _ => .manual
  | .paid _ (.invoice _ _) => .paidInvoiceLine
  | .paid _ (.offer _ _) => .paidOfferLine

def AssignmentContext.eventSource : AssignmentContext → EventSource
  | .manual _ => .platformManual
  | .paid _ (.invoice _ _) => .paidInvoiceLine
  | .paid _ (.offer _ _) => .paidOfferLine

def AssignmentContext.isPaid : AssignmentContext → Bool
  | .manual _ => false
  | .paid _ _ => true

def AssignmentContext.invoiceLineId? : AssignmentContext → Option Uuid
  | .manual _ => none
  | .paid _ origin => origin.invoiceLineId?

def AssignmentContext.offerLineId? : AssignmentContext → Option Uuid
  | .manual _ => none
  | .paid _ origin => origin.offerLineId?

/-! ## Checks -/

def dayMs : ℤ := 24 * 60 * 60 * 1000

def maxManualTermMs : ℤ := 10 * 366 * dayMs

def maxEffectiveClockSkewMs : ℤ := 5 * 60 * 1000

def require (p : Prop) [Decidable p] (refusal : Refusal) : Except Refusal Unit :=
  if p then .ok () else .error refusal

def validateEffectiveAt (effectiveAt : Option Instant) (now : Instant) : Except Refusal Unit :=
  require (∀ e ∈ effectiveAt, e ≤ now + maxEffectiveClockSkewMs ∧ now - dayMs ≤ e)
    .effectiveAtOutOfRange

def validateTerm (startsAt : Instant) (endsAt : Option Instant) : Except Refusal Unit :=
  require (∀ e ∈ endsAt, 0 < e - startsAt ∧ e - startsAt ≤ maxManualTermMs)
    .subscriptionTermOutOfRange

def validateActiveEnd (endsAt : Option Instant) (now : Instant) : Except Refusal Unit :=
  require (∀ e ∈ endsAt, now < e) .subscriptionTermAlreadyEnded

def resolveImmediateStart (effectiveAt : Option Instant) (now : Instant) : Instant :=
  (effectiveAt.filter (· < now)).getD now

/-- A tenant without a cabinet takes only what is available offline. -/
def assertCatalogAllowedForTenant (c : Catalog) (kind : CatalogKind) (versionId : Uuid) :
    Except Refusal Unit :=
  require (c.tenant ≠ some .none ∨
      (c.versions versionId).any fun v => v.offlineAvailable && v.kind = kind)
    .catalogKindNotAllowedForOfflineTenant

def requireTenant (c : Catalog) : Except Refusal Unit := require c.tenant.isSome .tenantNotFound

def requirePublishedVersion (c : Catalog) (versionId : Uuid) (kind : CatalogKind)
    (allowRetired : Bool) : Except Refusal CatalogVersion :=
  match c.versions versionId with
  | none => .error .publishedCatalogVersionRequired
  | some v =>
    if v.kind = kind ∧ (v.status = .published ∨ allowRetired ∧ v.status = .retired) then .ok v
    else .error .publishedCatalogVersionRequired

/-- A recurring service, or a version with service terms: only the fourth version shows it. -/
def CatalogVersion.needsV4 (v : CatalogVersion) : Bool :=
  v.kind = .service && v.recurring || v.hasServiceTerms

def laterFeatureKeys : List LaterFeatureKey :=
  [.chzIntegration, .inventory, .commerceMl, .handheld, .customLogo]

/-- Fields of a plan that a client before the third version cannot show. -/
def PlanEntitlements.needsUpdate (p : PlanEntitlements) (version : CommercialVersion) : Bool :=
  laterFeatureKeys.any (fun k => (p.later k).isSome) ||
    version = .v1 && quotaKeys.any (fun k => p.quotas k = some 0)

def AddonEffect.needsUpdate (e : AddonEffect) : Bool :=
  match e.entitlementKey with
  | .later _ => true
  | _ => false

def CatalogVersion.shownTo (v : CatalogVersion) : CommercialVersion → Bool
  | .v4 => true
  | .v3 => !v.needsV4
  | version =>
    !v.needsV4 && !v.hasLifecyclePolicy &&
      match v.kind with
      | .plan => !v.plan.any (·.needsUpdate version)
      | .addon => !v.effects.any (·.needsUpdate)
      | .service => true

/-- Only an administrator's new choice is checked; saved documents are not. -/
def assertCatalogCommercialCompatibility (v : CatalogVersion) (ctx : AssignmentContext) :
    Except Refusal Unit :=
  match ctx with
  | .manual version => require (v.shownTo version) .clientUpdateRequired
  | .paid _ _ => .ok ()

def orOutOfRange (p : Option CommercialPeriod) : Except Refusal CommercialPeriod :=
  match p with
  | none => .error .commercialPeriodOutOfRange
  | some p => .ok p

/-- The period a paid line buys: its own dates, the next cycle of the period it continues, or the
first of a new one. -/
def paidPeriod (c : Calendar) (terms : PaidLicenseTerms) (startsAt : Instant)
    (previous : Option CommercialPeriod) : Except Refusal CommercialPeriod :=
  match terms with
  | .explicit termStart termEnd _ =>
    orOutOfRange (c.resolveExplicitCommercialPeriod termStart termEnd)
  | .billing period _ =>
    match previous.filter fun p =>
        c.accepts p && p.billingPeriod = .billing period && p.endsAt = startsAt with
    | some retained =>
      orOutOfRange (c.resolveCommercialPeriod retained.anchorAt period (retained.cycle + 1))
    | none => orOutOfRange (c.resolveCommercialPeriod startsAt period 0)

def AssignmentContext.period (ctx : AssignmentContext) (c : Calendar) (startsAt : Instant)
    (previous : Option CommercialPeriod) : Except Refusal (Option CommercialPeriod) :=
  match ctx with
  | .manual _ => .ok none
  | .paid terms _ => (paidPeriod c terms startsAt previous).map some

/-! ## The timeline -/

structure Timeline where
  current : Option Subscription
  scheduled : Option Subscription

def findTimelineSubscriptions (rows : List Subscription) : Timeline where
  current := ((rows.filter (·.status.isCurrent)).insertionSort fun a b =>
    b.updatedAt ≤ a.updatedAt).head?
  scheduled := rows.find? (·.status = .scheduled)

def isEndedSubscription (row : Option Subscription) (now : Instant) : Bool :=
  row.any fun r => termEnded r.toTerm now

/-- The row stands for the sold line. -/
def PaidLicenseOrigin.sourceOf (origin : PaidLicenseOrigin) (row : Subscription) : Option Uuid :=
  match origin with
  | .invoice _ _ => row.sourceInvoiceLineId
  | .offer _ _ => row.sourceOfferLineId

def PaidLicenseOrigin.addonSourceOf (origin : PaidLicenseOrigin) (row : Addon) : Option Uuid :=
  match origin with
  | .invoice _ _ => row.sourceInvoiceLineId
  | .offer _ _ => row.sourceOfferLineId

def Catalog.documentLines (c : Catalog) : PaidLicenseOrigin → Option (List DocumentLine)
  | .invoice id _ => c.invoiceLines id
  | .offer id _ => c.offerLines id

/-- Two plans of one document are applied in their order, the second after the first. -/
def assertPaidPlanSequence (c : Catalog) (origin : PaidLicenseOrigin) (policy : ActivationPolicy)
    (current : Option Subscription) (rows : List Subscription) : Except Refusal Unit :=
  match c.documentLines origin with
  | none => .error .commercialPlanSequenceReviewRequired
  | some lines =>
    let plans := lines.filter (·.kind = .plan)
    let purchased := (rows.filter fun r => plans.any fun l => origin.sourceOf r = some l.id)
      |>.insertionSort (·.id ≤ ·.id)
    if isCommercialPlanSequenceValid lines = false then
      .error .commercialPlanSequenceReviewRequired
    else if plans.length < 2 then .ok ()
    else
      match policy with
      | .immediate =>
        require (∀ r ∈ purchased, origin.sourceOf r = some origin.lineId)
          .commercialPlanSequenceReviewRequired
      | .afterCurrent =>
        let predecessor := purchased.find? fun r =>
          (origin.sourceOf r).isSome && origin.sourceOf r = plans.head?.map (·.id)
        require (predecessor.any fun r =>
            current.map (·.id) = some r.id && r.status = .active)
          .commercialPlanSequenceReviewRequired

/-! ## Assigning a plan -/

/-- The dates of an explicit term, which are authoritative. -/
def AssignmentContext.explicitTerms : AssignmentContext → Option PaidLicenseTerms
  | .paid (.explicit s e rule) _ => some (.explicit s e rule)
  | _ => none

/-- A term that starts later is scheduled, after the current one and in the only place for it. -/
def scheduleAt (startsAt : Instant) (current scheduled : Option Subscription) :
    Except Refusal (SubscriptionStatus × Instant) :=
  if scheduled.isSome then .error .subscriptionScheduleExists
  else if current.any fun r => r.endsAt.all (startsAt < ·) then
    .error .subscriptionTermOverlapsCurrent
  else .ok (.scheduled, startsAt)

/-- The status and the start of a new plan. -/
def placePlan (c : Catalog) (input : AssignPlan) (ctx : AssignmentContext) (now : Instant)
    (current scheduled : Option Subscription) : Except Refusal (SubscriptionStatus × Instant) :=
  match ctx.explicitTerms with
  | some terms => do
    let period ← paidPeriod c.calendar terms now none
    match input.activationPolicy with
    | .afterCurrent =>
      if current = none then .error .subscriptionTimelineChanged
      else scheduleAt period.startsAt current scheduled
    | .immediate =>
      if now < period.startsAt then scheduleAt period.startsAt current scheduled
      else .ok (.active, period.startsAt)
  | none =>
    match input.activationPolicy, current with
    | .afterCurrent, some current =>
      if scheduled.isSome then .error .subscriptionScheduleExists
      else
        match current.endsAt with
        | none => .error .subscriptionCurrentEndRequired
        | some endsAt => .ok (.scheduled, endsAt)
    | _, _ => .ok (.active, resolveImmediateStart input.effectiveAt now)

/-- A decided assignment: the rows it replaces and the term of the new one. -/
structure PlanAssignment where
  expiredCurrent : Option Subscription
  current : Option Subscription
  scheduled : Option Subscription
  status : SubscriptionStatus
  startsAt : Instant
  endsAt : Option Instant
  commercialPeriod : Option CommercialPeriod

/-- The checks of an immediate plan that need no row. -/
def validateImmediate (input : AssignPlan) (now : Instant) : Except Refusal Unit :=
  match input.activationPolicy with
  | .afterCurrent => .ok ()
  | .immediate => do
    validateTerm (resolveImmediateStart input.effectiveAt now) input.endsAt
    validateActiveEnd input.endsAt now

/-- The checks against the tenant and the catalog. -/
def requireCandidate (c : Catalog) (kind : CatalogKind) (versionId : Uuid)
    (ctx : AssignmentContext) : Except Refusal CatalogVersion := do
  assertCatalogAllowedForTenant c kind versionId
  requireTenant c
  requirePublishedVersion c versionId kind ctx.isPaid

/-- The order of a document's plans, for a paid line. -/
def assertSequence (c : Catalog) (ctx : AssignmentContext) (policy : ActivationPolicy)
    (current : Option Subscription) (rows : List Subscription) : Except Refusal Unit :=
  match ctx with
  | .manual _ => .ok ()
  | .paid _ origin => assertPaidPlanSequence c origin policy current rows

/-- The decision. A current row whose end has come counts as expired, whatever its status says. -/
def planAssignment (c : Catalog) (input : AssignPlan) (ctx : AssignmentContext) (now : Instant)
    (rows : List Subscription) : Except Refusal PlanAssignment := do
  validateEffectiveAt input.effectiveAt now
  validateImmediate input now
  let candidate ← requireCandidate c .plan input.catalogVersionId ctx
  let timeline := findTimelineSubscriptions rows
  assertCatalogCommercialCompatibility candidate ctx
  let ended := isEndedSubscription timeline.current now
  let expiredCurrent := if ended then timeline.current else none
  let current := if ended then none else timeline.current
  assertSequence c ctx input.activationPolicy current rows
  require (input.activationPolicy = .afterCurrent → current.isSome) .subscriptionTimelineChanged
  let (status, startsAt) ← placePlan c input ctx now current timeline.scheduled
  let previous := if input.activationPolicy = .afterCurrent then
    current.bind (·.commercialPeriod) else none
  let period ← ctx.period c.calendar startsAt previous
  let endsAt := if ctx.isPaid then period.map (·.endsAt) else input.endsAt
  validateTerm startsAt endsAt
  require (status = .active → ∀ e ∈ endsAt, now < e) .subscriptionTermAlreadyEnded
  return ⟨expiredCurrent, current, timeline.scheduled, status, startsAt, endsAt, period⟩

def Addon.retired (subscriptionId : Uuid) (now : Instant) (a : Addon) : Addon :=
  if a.subscriptionId = subscriptionId ∧ (a.status = .active ∨ a.status = .scheduled) then
    { a with status := if termEnded a.toTerm now then .expired else .revoked }
  else a

def retirementEvent (ctx : AssignmentContext) (reason : String) (now : Instant) (a : Addon) :
    Event where
  id := none
  subscriptionId := a.subscriptionId
  eventKind := if termEnded a.toTerm now then .addonExpired else .addonRevoked
  effectiveAt := if termEnded a.toTerm now then a.endsAt.getD now else now
  source := ctx.eventSource
  reason := some reason

def retireSubscriptionAddons (ctx : AssignmentContext) (reason : String) (now : Instant)
    (subscriptionId : Uuid) (t : Tables) : Except Refusal Tables := do
  let live : List Addon := (t.addons.filter fun a =>
    a.subscriptionId = subscriptionId && (a.status = .active || a.status = .scheduled))
      |>.insertionSort (·.id ≤ ·.id)
  let written ← t.storeAddons (t.addons.map (·.retired subscriptionId now))
  return live.foldl (fun t a => t.recordEvent (retirementEvent ctx reason now a)) written

/-- A replaced row gets its last status, and its add-ons go with it. -/
def retireSubscription (ctx : AssignmentContext) (reason : String) (now : Instant)
    (row : Subscription) (status : SubscriptionStatus) (kind : EventKind) (effectiveAt : Instant)
    (t : Tables) : Except Refusal Tables := do
  let written ← t.storeSubscriptions
    (Table.update (isRow row) (fun r => { r with status := status, updatedAt := now })
      t.subscriptions)
  require (t.subscriptions.countP (isRow row) = 1) .subscriptionTimelineChanged
  let retired ← retireSubscriptionAddons ctx reason now row.id written
  return retired.recordEvent ⟨none, row.id, kind, effectiveAt, ctx.eventSource, some reason⟩

/-- The same for a row that may not be there. -/
def retireSome (ctx : AssignmentContext) (reason : String) (now : Instant)
    (row : Option Subscription) (status : SubscriptionStatus) (kind : EventKind)
    (effectiveAt : Subscription → Instant) (t : Tables) : Except Refusal Tables :=
  match row with
  | none => .ok t
  | some row => retireSubscription ctx reason now row status kind (effectiveAt row) t

def PlanAssignment.row (a : PlanAssignment) (input : AssignPlan) (ctx : AssignmentContext)
    (now : Instant) (newId : Uuid) : Subscription where
  startsAt := some a.startsAt
  endsAt := a.endsAt
  id := newId
  planVersionId := input.catalogVersionId
  status := a.status
  commercialPeriod := a.commercialPeriod
  source := ctx.subscriptionSource
  sourceOfferLineId := ctx.offerLineId?
  sourceInvoiceLineId := ctx.invoiceLineId?
  createdAt := now
  updatedAt := now

/-- The scheduled and the current row make way for a plan that is active at once. -/
def PlanAssignment.clear (a : PlanAssignment) (input : AssignPlan) (ctx : AssignmentContext)
    (now : Instant) (t : Tables) : Except Refusal Tables := do
  if a.status = .active then
    let cleared ← retireSome ctx input.reason now a.scheduled .cancelled .planScheduleCancelled
      (fun _ => now) t
    retireSome ctx input.reason now a.current .superseded .planSuperseded (fun _ => a.startsAt)
      cleared
  else return t

def PlanAssignment.write (a : PlanAssignment) (input : AssignPlan) (ctx : AssignmentContext)
    (now : Instant) (newId : Uuid) : Body Subscription := fun t => do
  let settled ← retireSome ctx input.reason now a.expiredCurrent .expired .planExpired
    (fun r => r.endsAt.getD now) t
  let cleared ← a.clear input ctx now settled
  let created := a.row input ctx now newId
  let written ← cleared.storeSubscriptions (cleared.subscriptions ++ [created])
  return (created, written.recordEvent ⟨none, newId,
    if a.status = .scheduled then .planScheduled else .planAssigned, a.startsAt, ctx.eventSource,
    some input.reason⟩)

def assignPlanInTransaction (c : Catalog) (input : AssignPlan) (ctx : AssignmentContext)
    (now : Instant) (newId : Uuid) : Body Subscription := fun t => do
  let assignment ← planAssignment c input ctx now t.subscriptions
  assignment.write input ctx now newId t

/-! ## Assigning an add-on -/

def effectsValid (effects : List AddonEffect) : Bool :=
  !effects.isEmpty && effects.all fun e =>
    match e.quotaIncrement with
    | some increment => 0 < increment
    | none => e.featureEnabled

def Timeline.target (timeline : Timeline) : ActivationPolicy → Option Subscription
  | .afterCurrent => timeline.scheduled
  | .immediate => timeline.current

/-- An immediate add-on needs a subscription in force. -/
def inForce (row : Subscription) (now : Instant) : Bool :=
  row.status != .pendingActivation && row.startsAt.any (· ≤ now) && row.endsAt.all (now < ·)

def addonStart (input : AssignAddon) (target : Subscription) (now : Instant) :
    Except Refusal Instant :=
  match input.activationPolicy with
  | .immediate => .ok (resolveImmediateStart input.effectiveAt now)
  | .afterCurrent =>
    match target.startsAt with
    | none => .error .subscriptionStartRequired
    | some startsAt => .ok startsAt

def addonAssignment (c : Catalog) (input : AssignAddon) (ctx : AssignmentContext) (now : Instant)
    (newId : Uuid) (rows : List Subscription) : Except Refusal Addon := do
  validateEffectiveAt input.effectiveAt now
  let candidate ← requireCandidate c .addon input.catalogVersionId ctx
  assertCatalogCommercialCompatibility candidate ctx
  require (effectsValid candidate.effects) .addonEntitlementsInvalid
  match (findTimelineSubscriptions rows).target input.activationPolicy with
  | none => .error .subscriptionAddonTimelineChanged
  | some target =>
    require (target.id = input.expectedSubscriptionId) .subscriptionAddonTimelineChanged
    require (input.activationPolicy = .immediate → inForce target now)
      .subscriptionCompatiblePlanRequired
    let startsAt ← addonStart input target now
    require (∀ s ∈ target.startsAt, s ≤ startsAt) .addonPrecedesSubscriptionTerm
    let period ← ctx.period c.calendar startsAt none
    let endsAt := if ctx.isPaid then period.map (·.endsAt) else input.endsAt <|> target.endsAt
    validateTerm startsAt endsAt
    require (input.activationPolicy = .immediate → ∀ e ∈ endsAt, now < e)
      .subscriptionTermAlreadyEnded
    require (ctx.isPaid ∨ ∀ te ∈ target.endsAt, ∀ e ∈ endsAt, e ≤ te)
      .addonExceedsSubscriptionTerm
    return {
      startsAt := some startsAt, endsAt := endsAt, id := newId, subscriptionId := target.id
      addonVersionId := input.catalogVersionId, quantity := input.quantity
      status := if input.activationPolicy = .afterCurrent then .scheduled else .active
      commercialPeriod := period, source := ctx.subscriptionSource
      sourceOfferLineId := ctx.offerLineId?, sourceInvoiceLineId := ctx.invoiceLineId? }

/-- An add-on that the license of a tenant without a cabinet may have to name. -/
def Addon.namedFor (subscriptionId : Uuid) (now : Instant) (a : Addon) : Bool :=
  a.subscriptionId = subscriptionId && (a.status = .active || a.status = .scheduled) &&
    a.endsAt.all (now < ·)

def standaloneAssignmentRefsMax : ℕ := 65

def assertStandaloneAssignmentCapacity (c : Catalog) (addons : List Addon) (subscriptionId : Uuid)
    (now : Instant) : Except Refusal Unit :=
  require (c.tenant ≠ some .none ∨
      addons.countP (·.namedFor subscriptionId now) < standaloneAssignmentRefsMax - 1)
    .standaloneAssignmentLimitReached

def assignAddonInTransaction (c : Catalog) (input : AssignAddon) (ctx : AssignmentContext)
    (now : Instant) (newId : Uuid) : Body Addon := fun t => do
  let created ← addonAssignment c input ctx now newId t.subscriptions
  assertStandaloneAssignmentCapacity c t.addons created.subscriptionId now
  let written ← t.storeAddons (t.addons ++ [created])
  return (created, written.recordEvent ⟨none, created.subscriptionId,
    if created.status = .scheduled then .addonScheduled else .addonActivated,
    created.startsAt.getD now, ctx.eventSource, some input.reason⟩)

/-! ## Paid lines -/

inductive LicenseKind where
  | plan | addon
  deriving DecidableEq

structure PaidLine where
  kind : LicenseKind
  catalogVersionId : Uuid
  quantity : ℤ
  commercialTerms : Option CommercialLineTerms
  deriving DecidableEq

/-- The row a call returns. -/
inductive License where
  | plan (row : Subscription)
  | addon (row : Addon)
  deriving DecidableEq

def License.id : License → Uuid
  | .plan row => row.id
  | .addon row => row.id

/-- The terms of a line that may be applied. -/
def licenseTerms (line : PaidLine) : Except Refusal PaidLicenseTerms :=
  match line.commercialTerms with
  | some (.license terms) =>
    if line.kind = .plan ∧ line.quantity ≠ 1 then .error .commercialPlanQuantityInvalid
    else .ok terms
  | _ => .error .commercialTermsReviewRequired

/-- A line's plan or add-on as it would be assigned. -/
def paidInput (line : PaidLine) (terms : PaidLicenseTerms) (reason : String) : AssignPlan where
  catalogVersionId := line.catalogVersionId
  activationPolicy := match terms.activationRule with
    | .afterCurrent => .afterCurrent
    | .onApplication => .immediate
  effectiveAt := none
  endsAt := none
  reason := reason

def applyPaidPlan (c : Catalog) (line : PaidLine) (terms : PaidLicenseTerms)
    (origin : PaidLicenseOrigin) (operationAt : Instant) (reason : String) (newId : Uuid) :
    Body License := fun t =>
  match t.subscriptions.find? (origin.sourceOf · = some origin.lineId) with
  | some previous => .ok (.plan previous, t)
  | none => do
    let (created, written) ← assignPlanInTransaction c (paidInput line terms reason)
      (.paid terms origin) operationAt newId t
    return (.plan created, written)

/-- An add-on's rights are resolved before they are committed. -/
def applyPaidAddon (c : Catalog) (line : PaidLine) (terms : PaidLicenseTerms)
    (origin : PaidLicenseOrigin) (operationAt : Instant) (reason : String) (newId : Uuid) :
    Body License := fun t =>
  match t.addons.find? (origin.addonSourceOf · = some origin.lineId) with
  | some previous => .ok (.addon previous, t)
  | none =>
    let input := paidInput line terms reason
    match (findTimelineSubscriptions t.subscriptions).target input.activationPolicy with
    | none => .error .subscriptionTargetMissing
    | some target => do
      let (created, written) ← assignAddonInTransaction c ⟨input, target.id, line.quantity⟩
        (.paid terms origin) operationAt newId t
      let _ ← resolve c written (created.startsAt.getD operationAt)
      return (.addon created, written)

/-- Both payment routes enter here; a line that was applied returns its row. -/
def applyPaidLicense (c : Catalog) (line : PaidLine) (origin : PaidLicenseOrigin)
    (operationAt : Instant) (reason : String) (newId : Uuid) : Body License := fun t => do
  let terms ← licenseTerms line
  match line.kind with
  | .plan => applyPaidPlan c line terms origin operationAt reason newId t
  | .addon => applyPaidAddon c line terms origin operationAt reason newId t

/-! ## The demo -/

/-- The duration of a pending row's demo, where its version has entitlements. -/
def demoDurationDays (c : Catalog) (row : Subscription) : Option (Option ℤ) :=
  ((c.versions row.planVersionId).bind (·.plan)).map (·.demoDurationDays)

/-- The demo starts when the owner activates the tenant. -/
def Subscription.activated (row : Subscription) (activatedAt : Instant) (days : ℤ) :
    Subscription :=
  { row with
    status := .trial, startsAt := some activatedAt, endsAt := some (activatedAt + days * dayMs)
    updatedAt := activatedAt }

def activatePendingDemo (c : Catalog) (activatedAt : Instant) : Body (Option Subscription) :=
  fun t =>
    match t.subscriptions.find? fun r =>
        r.status = .pendingActivation && (demoDurationDays c r).isSome with
    | none => .ok (none, t)
    | some pending =>
      match (demoDurationDays c pending).join with
      | none => .error .pendingDemoDurationInvalid
      | some days => do
        require (0 < days) .pendingDemoDurationInvalid
        let written ← t.storeSubscriptions
          (Table.update (isRow pending) (·.activated activatedAt days) t.subscriptions)
        return (some (pending.activated activatedAt days), written.recordEvent
          ⟨none, pending.id, .demoActivated, activatedAt, .tenantOwnerActivation, none⟩)

/-! ## Calls -/

/-- A call with the instant it acts at and the id the database would draw for its row. -/
inductive Call where
  | activatePendingDemo (activatedAt : Instant)
  | assignPlan (isPlatformAdmin : Bool) (input : AssignPlan) (version : CommercialVersion)
      (now : Instant) (newId : Uuid)
  | assignAddon (isPlatformAdmin : Bool) (input : AssignAddon) (version : CommercialVersion)
      (now : Instant) (newId : Uuid)
  | applyPaidLicense (line : PaidLine) (origin : PaidLicenseOrigin) (operationAt : Instant)
      (reason : String) (newId : Uuid)
  | runStatusJob (instant now : Instant)

inductive Reply where
  | demo (activated : Option Subscription)
  | license (row : License)
  | job (result : MaterializeResult)
  deriving DecidableEq

def assertPlatformAdmin (isPlatformAdmin : Bool) : Except Refusal Unit :=
  require isPlatformAdmin .directSubscriptionAssignmentForbidden

section

variable (deterministicEventId : Entity → Uuid → EventKind → Instant → Uuid)

def Call.body (c : Catalog) : Call → Body Reply
  | .activatePendingDemo activatedAt => fun t => do
    let (row, written) ← Subscriptions.activatePendingDemo c activatedAt t
    return (.demo row, written)
  | .assignPlan admin input version now newId => fun t => do
    assertPlatformAdmin admin
    let (row, written) ← assignPlanInTransaction c input (.manual version) now newId t
    return (.license (.plan row), written)
  | .assignAddon admin input version now newId => fun t => do
    assertPlatformAdmin admin
    let (row, written) ← assignAddonInTransaction c input (.manual version) now newId t
    return (.license (.addon row), written)
  | .applyPaidLicense line origin operationAt reason newId => fun t => do
    let (row, written) ← Subscriptions.applyPaidLicense c line origin operationAt reason newId t
    return (.license row, written)
  | .runStatusJob instant now => fun t => do
    let (result, written) ← Subscriptions.runStatusJob deterministicEventId now instant t
    return (.job result, written)

/-- The transaction of a call: what it answers, and the rows after it. -/
def serve (c : Catalog) (call : Call) (t : Tables) : Except Refusal Reply × Tables :=
  match call.body deterministicEventId c t with
  | .ok (reply, written) => (.ok reply, written)
  | .error refusal => (.error refusal, t)

end

end Markiro.Subscriptions
