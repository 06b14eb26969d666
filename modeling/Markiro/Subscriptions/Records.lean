import Markiro.Lib.Table

/-!
# The subscriptions of a tenant

The rows that `subscription-lifecycle.service.ts`, `subscription-status.job.ts` and
`entitlements.service.ts` read and write for one tenant: `tenant_subscriptions`,
`subscription_addons` and `subscription_events`, each with the constraints the database puts on it,
and the catalog the rows name. Instants are milliseconds. A statement the constraints refuse throws,
and what throws inside a transaction leaves nothing behind, so a body of statements is a state
transformer over `Except`.
-/

namespace Markiro.Subscriptions

abbrev Instant := ℤ

/-- A uuid by its number, which orders as its text does. -/
abbrev Uuid := ℕ

/-! ## Terms -/

structure Term where
  startsAt : Option Instant
  endsAt : Option Instant
  deriving DecidableEq

def termContains (term : Term) (t : Instant) : Bool :=
  term.startsAt.all (· ≤ t) && term.endsAt.all (t < ·)

def termEnded (term : Term) (t : Instant) : Bool := term.endsAt.any (· ≤ t)

/-- A start is set and has been reached. -/
def termStarted (term : Term) (t : Instant) : Bool := term.startsAt.any (· ≤ t)

/-- `ends_at > starts_at` where both are set. -/
def Term.ordered (term : Term) : Prop := ∀ s ∈ term.startsAt, ∀ e ∈ term.endsAt, s < e

instance (term : Term) : Decidable term.ordered := by
  unfold Term.ordered
  infer_instance

inductive BillingPeriod where
  | month | year
  deriving DecidableEq

inductive PeriodKind where
  | billing (period : BillingPeriod)
  | custom
  deriving DecidableEq

structure CommercialPeriod where
  billingPeriod : PeriodKind
  anchorAt : Instant
  cycle : ℕ
  startsAt : Instant
  endsAt : Instant
  deriving DecidableEq

/-- The calendar of `commercial-terms.ts`; `none` where it throws. Nothing proved about the
lifecycle depends on which instants it answers. -/
structure Calendar where
  resolveCommercialPeriod : Instant → BillingPeriod → ℕ → Option CommercialPeriod
  resolveExplicitCommercialPeriod : (termStart termEnd : String) → Option CommercialPeriod
  explicitCommercialPeriodTerm : (startsAt endsAt : Instant) → Option (String × String)

/-- The boundaries a stored period should have, by its own anchor or its own dates. -/
def Calendar.expected (c : Calendar) (p : CommercialPeriod) : Option CommercialPeriod :=
  match p.billingPeriod with
  | .custom =>
    (c.explicitCommercialPeriodTerm p.startsAt p.endsAt).bind fun dates =>
      c.resolveExplicitCommercialPeriod dates.1 dates.2
  | .billing period => c.resolveCommercialPeriod p.anchorAt period p.cycle

def Calendar.accepts (c : Calendar) (p : CommercialPeriod) : Bool :=
  (c.expected p).any fun e =>
    !(p.billingPeriod == .custom && (p.cycle != 0 || p.anchorAt != p.startsAt)) &&
      p.startsAt == e.startsAt && p.endsAt == e.endsAt

/-! ## Sold lines -/

inductive ActivationRule where
  | onApplication | afterCurrent
  deriving DecidableEq

/-- The terms of a software license: a billing period (version 1) or civil dates (version 3). -/
inductive PaidLicenseTerms where
  | billing (billingPeriod : BillingPeriod) (activationRule : ActivationRule)
  | explicit (termStart termEnd : String) (activationRule : ActivationRule)
  deriving DecidableEq

def PaidLicenseTerms.activationRule : PaidLicenseTerms → ActivationRule
  | .billing _ rule => rule
  | .explicit _ _ rule => rule

/-- What `commercialLineTermsV4Schema` reads: a license, one service (version 1 without an
activation rule) or a recurring service (version 2). -/
inductive CommercialLineTerms where
  | license (terms : PaidLicenseTerms)
  | service
  | recurringService
  deriving DecidableEq

inductive LineKind where
  | plan | addon | service | custom
  deriving DecidableEq

inductive LineActivationPolicy where
  | immediately | afterCurrent | manual
  deriving DecidableEq

/-- A line of an invoice or an offer; terms that cannot be read are `none`. -/
structure DocumentLine where
  id : Uuid
  kind : LineKind
  commercialTerms : Option CommercialLineTerms
  activationPolicy : Option LineActivationPolicy
  deriving DecidableEq

def DocumentLine.rule (line : DocumentLine) : Option ActivationRule :=
  match line.commercialTerms with
  | some (.license terms) => some terms.activationRule
  | some .service => none
  | some .recurringService | none =>
    match line.activationPolicy with
    | some .afterCurrent => some .afterCurrent
    | some .manual => none
    | _ => some .onApplication

/-- At most one plan, or one at once and one after it. -/
def isCommercialPlanSequenceValid (lines : List DocumentLine) : Bool :=
  match lines.filter (·.kind = .plan) with
  | [] => true
  | [_] => true
  | [first, second] => first.rule = some .onApplication && second.rule = some .afterCurrent
  | _ => false

/-! ## The catalog -/

inductive CatalogKind where
  | plan | addon | service
  deriving DecidableEq

inductive VersionStatus where
  | draft | published | retired
  deriving DecidableEq

inductive QuotaKey where
  | lines | stations | kiosks | cabinetUsers
  deriving DecidableEq

inductive FeatureKey where
  | labelEditor | publicApi | pallets
  deriving DecidableEq

/-- The features that clients before the third version do not know. -/
inductive LaterFeatureKey where
  | chzIntegration | inventory | commerceMl | handheld | customLogo
  deriving DecidableEq

inductive EntitlementKey where
  | quota (key : QuotaKey)
  | feature (key : FeatureKey)
  | later (key : LaterFeatureKey)
  deriving DecidableEq

/-- A row of `plan_entitlements`; a quota of `none` is unlimited. -/
structure PlanEntitlements where
  quotas : QuotaKey → Option ℤ
  features : FeatureKey → Bool
  later : LaterFeatureKey → Option Bool
  demoDurationDays : Option ℤ

structure AddonEffect where
  entitlementKey : EntitlementKey
  quotaIncrement : Option ℤ
  featureEnabled : Bool
  deriving DecidableEq

/-- A row of `catalog_item_versions` with what belongs to it: the columns of its item, its
entitlements of either kind. -/
structure CatalogVersion where
  kind : CatalogKind
  status : VersionStatus
  recurring : Bool
  hasServiceTerms : Bool
  hasLifecyclePolicy : Bool
  offlineAvailable : Bool
  plan : Option PlanEntitlements
  effects : List AddonEffect

inductive CabinetAccess where
  | none | enabled
  deriving DecidableEq

/-- What a call reads outside the tenant's subscriptions: the tenant's own row, the catalog, the
sold documents (all the lines of the one a line belongs to) and the calendar. -/
structure Catalog where
  tenant : Option CabinetAccess
  versions : Uuid → Option CatalogVersion
  invoiceLines : Uuid → Option (List DocumentLine)
  offerLines : Uuid → Option (List DocumentLine)
  calendar : Calendar

/-! ## Rows -/

inductive SubscriptionStatus where
  | pendingActivation | scheduled | trial | active | expired | superseded | cancelled
  deriving DecidableEq

/-- The statuses of which a tenant has at most one row. -/
def SubscriptionStatus.isCurrent : SubscriptionStatus → Bool
  | .pendingActivation | .trial | .active => true
  | _ => false

inductive AddonStatus where
  | scheduled | active | expired | revoked
  deriving DecidableEq

inductive Source where
  | demo | manual | paidOfferLine | paidInvoiceLine
  deriving DecidableEq

/-- A row of `tenant_subscriptions`. -/
structure Subscription extends Term where
  id : Uuid
  planVersionId : Uuid
  status : SubscriptionStatus
  commercialPeriod : Option CommercialPeriod
  source : Source
  sourceOfferLineId : Option Uuid
  sourceInvoiceLineId : Option Uuid
  createdAt : Instant
  updatedAt : Instant
  deriving DecidableEq

structure Addon extends Term where
  id : Uuid
  subscriptionId : Uuid
  addonVersionId : Uuid
  quantity : ℤ
  status : AddonStatus
  commercialPeriod : Option CommercialPeriod
  source : Source
  sourceOfferLineId : Option Uuid
  sourceInvoiceLineId : Option Uuid
  deriving DecidableEq

inductive EventKind where
  | demoActivated
  | planAssigned | planScheduled | planActivated | planExpired | planSuperseded
  | planScheduleCancelled
  | addonScheduled | addonActivated | addonExpired | addonRevoked
  deriving DecidableEq

inductive EventSource where
  | tenantOwnerActivation | platformManual | paidInvoiceLine | paidOfferLine | subscriptionStatusJob
  deriving DecidableEq

/-- A row of `subscription_events`; the database draws an id where the writer names none. -/
structure Event where
  id : Option Uuid
  subscriptionId : Uuid
  eventKind : EventKind
  effectiveAt : Instant
  source : EventSource
  reason : Option String
  deriving DecidableEq

/-! ## Tables -/

/-- A source column names a sold line exactly when the row came from one. -/
def sourcesAgree (source : Source) (offerLine invoiceLine : Option Uuid) : Prop :=
  (source = .paidOfferLine ↔ offerLine.isSome) ∧ (source = .paidInvoiceLine ↔ invoiceLine.isSome)

instance (source : Source) (offerLine invoiceLine : Option Uuid) :
    Decidable (sourcesAgree source offerLine invoiceLine) := by
  unfold sourcesAgree
  infer_instance

structure SubscriptionConstraints (rows : List Subscription) : Prop where
  ids : Table.Unique (·.id) rows
  oneCurrent : rows.countP (·.status.isCurrent) ≤ 1
  oneScheduled : rows.countP (·.status = .scheduled) ≤ 1
  invoiceLines : Table.UniqueSome (·.sourceInvoiceLineId) rows
  timeOrder : ∀ r ∈ rows, r.toTerm.ordered
  pendingDates : ∀ r ∈ rows, r.status = .pendingActivation → r.toTerm = ⟨none, none⟩
  commercialSource :
    ∀ r ∈ rows, sourcesAgree r.source r.sourceOfferLineId r.sourceInvoiceLineId

instance (rows : List Subscription) : Decidable (SubscriptionConstraints rows) :=
  decidable_of_iff
    ((rows.map Subscription.id).Nodup ∧ rows.countP (·.status.isCurrent) ≤ 1 ∧
      rows.countP (·.status = .scheduled) ≤ 1 ∧
      (rows.filterMap Subscription.sourceInvoiceLineId).Nodup ∧
      (∀ r ∈ rows, r.toTerm.ordered) ∧
      (∀ r ∈ rows, r.status = .pendingActivation → r.toTerm = ⟨none, none⟩) ∧
      ∀ r ∈ rows, sourcesAgree r.source r.sourceOfferLineId r.sourceInvoiceLineId)
    ⟨fun ⟨h1, h2, h3, h4, h5, h6, h7⟩ => ⟨h1, h2, h3, h4, h5, h6, h7⟩,
      fun ⟨h1, h2, h3, h4, h5, h6, h7⟩ => ⟨h1, h2, h3, h4, h5, h6, h7⟩⟩

structure AddonConstraints (rows : List Addon) : Prop where
  ids : Table.Unique (·.id) rows
  invoiceLines : Table.UniqueSome (·.sourceInvoiceLineId) rows
  timeOrder : ∀ r ∈ rows, r.toTerm.ordered
  quantityPositive : ∀ r ∈ rows, 0 < r.quantity
  commercialSource :
    ∀ r ∈ rows, sourcesAgree r.source r.sourceOfferLineId r.sourceInvoiceLineId

instance (rows : List Addon) : Decidable (AddonConstraints rows) :=
  decidable_of_iff
    ((rows.map Addon.id).Nodup ∧ (rows.filterMap Addon.sourceInvoiceLineId).Nodup ∧
      (∀ r ∈ rows, r.toTerm.ordered) ∧ (∀ r ∈ rows, 0 < r.quantity) ∧
      ∀ r ∈ rows, sourcesAgree r.source r.sourceOfferLineId r.sourceInvoiceLineId)
    ⟨fun ⟨h1, h2, h3, h4, h5⟩ => ⟨h1, h2, h3, h4, h5⟩,
      fun ⟨h1, h2, h3, h4, h5⟩ => ⟨h1, h2, h3, h4, h5⟩⟩

/-- The rows of one tenant, within the constraints. -/
structure Tables where
  subscriptions : List Subscription
  addons : List Addon
  events : List Event
  subscriptionsKept : SubscriptionConstraints subscriptions
  addonsKept : AddonConstraints addons

/-- The code of an exception. -/
inductive Refusal where
  | directSubscriptionAssignmentForbidden
  | effectiveAtOutOfRange
  | subscriptionTermOutOfRange
  | subscriptionTermAlreadyEnded
  | catalogKindNotAllowedForOfflineTenant
  | tenantNotFound
  | publishedCatalogVersionRequired
  | clientUpdateRequired
  | commercialTermsReviewRequired
  | commercialPlanQuantityInvalid
  | commercialPlanSequenceReviewRequired
  | commercialPeriodOutOfRange
  | subscriptionTimelineChanged
  | subscriptionScheduleExists
  | subscriptionTermOverlapsCurrent
  | subscriptionCurrentEndRequired
  | subscriptionTargetMissing
  | addonEntitlementsInvalid
  | subscriptionAddonTimelineChanged
  | subscriptionCompatiblePlanRequired
  | subscriptionStartRequired
  | addonPrecedesSubscriptionTerm
  | addonExceedsSubscriptionTerm
  | standaloneAssignmentLimitReached
  | subscriptionEntitlementsInvalid
  | pendingDemoDurationInvalid
  | constraintViolated
  deriving DecidableEq

/-- The statements of a transaction. -/
abbrev Body := StateT Tables (Except Refusal)

def Tables.storeSubscriptions (t : Tables) (rows : List Subscription) : Except Refusal Tables :=
  if h : SubscriptionConstraints rows then
    .ok { t with subscriptions := rows, subscriptionsKept := h }
  else .error .constraintViolated

def Tables.storeAddons (t : Tables) (rows : List Addon) : Except Refusal Tables :=
  if h : AddonConstraints rows then .ok { t with addons := rows, addonsKept := h }
  else .error .constraintViolated

/-- An event is inserted, unless its writer named an id that is there. -/
def Tables.recordEvent (t : Tables) (e : Event) : Tables :=
  if e.id.isSome ∧ e.id ∈ t.events.map (·.id) then t else { t with events := t.events ++ [e] }

end Markiro.Subscriptions
