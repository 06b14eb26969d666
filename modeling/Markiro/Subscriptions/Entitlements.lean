import Markiro.Subscriptions.Records

/-!
# Reading the entitlements of a tenant

`EntitlementsService.resolve` of `entitlements.service.ts`: which subscription is in force at an
instant, read from the terms, and what its plan and add-ons allow. The tenant's id, the same in
every answer, is left out of it.
-/

namespace Markiro.Subscriptions

/-! ## Answers -/

inductive Access where
  | managed | readOnly | unmanaged
  deriving DecidableEq

inductive ReportedStatus where
  | pendingActivation | trial | active | expired
  deriving DecidableEq

structure ReportedSubscription extends Term where
  id : Uuid
  planVersionId : Uuid
  status : ReportedStatus
  deriving DecidableEq

structure EffectiveEntitlements where
  access : Access
  subscription : Option ReportedSubscription
  quotas : QuotaKey → Option ℤ
  features : FeatureKey → Bool

/-! ## Plans and add-ons -/

/-- A version a right may rest on, also after it was retired. -/
def CatalogVersion.inUse (v : CatalogVersion) : Bool :=
  v.status = .published || v.status = .retired

def planEntitlements (c : Catalog) (versionId : Uuid) : Except Refusal PlanEntitlements :=
  match c.versions versionId with
  | none => .error .subscriptionEntitlementsInvalid
  | some v =>
    match v.plan with
    | none => .error .subscriptionEntitlementsInvalid
    | some plan =>
      if v.kind = .plan ∧ v.inUse then .ok plan else .error .subscriptionEntitlementsInvalid

structure EntitlementContributor where
  subscriptionAddonId : Uuid
  catalogVersionId : Uuid
  quantity : ℤ
  quotas : QuotaKey → Option ℤ
  features : List FeatureKey

def isSafeInteger (n : ℤ) : Bool := -(2 ^ 53 - 1) ≤ n && n ≤ 2 ^ 53 - 1

/-- One effect of an add-on's version, multiplied by the quantity where it is a quota. -/
def addEffect (contributor : EntitlementContributor) (effect : AddonEffect) :
    Except Refusal EntitlementContributor :=
  match effect.entitlementKey with
  | .quota key =>
    match effect.quotaIncrement with
    | none => .error .subscriptionEntitlementsInvalid
    | some increment =>
      let value := increment * contributor.quantity
      if isSafeInteger value ∧ 0 < value then
        .ok { contributor with quotas := Function.update contributor.quotas key (some value) }
      else .error .subscriptionEntitlementsInvalid
  | .feature key =>
    if effect.featureEnabled then
      .ok { contributor with features := contributor.features ++ [key] }
    else .error .subscriptionEntitlementsInvalid
  | .later _ =>
    if effect.featureEnabled then .ok contributor else .error .subscriptionEntitlementsInvalid

def contributorOf (c : Catalog) (addon : Addon) : Except Refusal EntitlementContributor :=
  if addon.status = .scheduled ∧ addon.startsAt = none then
    .error .subscriptionEntitlementsInvalid
  else
    match c.versions addon.addonVersionId with
    | none => .error .subscriptionEntitlementsInvalid
    | some v =>
      if v.kind = .addon ∧ v.inUse ∧ v.effects ≠ [] then
        v.effects.foldlM addEffect
          ⟨addon.id, addon.addonVersionId, addon.quantity, fun _ => none, []⟩
      else .error .subscriptionEntitlementsInvalid

/-- An add-on that may contribute to a subscription at an instant. -/
def Addon.countsAt (addon : Addon) (subscriptionId : Uuid) (t : Instant) : Bool :=
  addon.subscriptionId = subscriptionId && (addon.status = .active || addon.status = .scheduled) &&
    termContains addon.toTerm t

def contributorsFor (c : Catalog) (addons : List Addon) (subscriptionId : Uuid) (t : Instant) :
    Except Refusal (List EntitlementContributor) :=
  ((addons.filter (·.countsAt subscriptionId t)).insertionSort (·.id ≤ ·.id)).mapM
    (contributorOf c)

def quotaKeys : List QuotaKey := [.lines, .stations, .kiosks, .cabinetUsers]

/-- One quota raised by a contributor's increment; an unlimited one stays. -/
def addQuota (contributor : EntitlementContributor) (quotas : QuotaKey → Option ℤ)
    (key : QuotaKey) : Except Refusal (QuotaKey → Option ℤ) :=
  match contributor.quotas key, quotas key with
  | some increment, some base =>
    if isSafeInteger (base + increment) then
      .ok (Function.update quotas key (some (base + increment)))
    else .error .subscriptionEntitlementsInvalid
  | _, _ => .ok quotas

def addQuotas (base : QuotaKey → Option ℤ) (contributors : List EntitlementContributor) :
    Except Refusal (QuotaKey → Option ℤ) :=
  contributors.foldlM (fun quotas contributor => quotaKeys.foldlM (addQuota contributor) quotas)
    base

def addFeatures (base : FeatureKey → Bool) (contributors : List EntitlementContributor) :
    FeatureKey → Bool := fun key =>
  base key || contributors.any (·.features.contains key)

/-! ## The subscription in force -/

def inCandidateStatus : SubscriptionStatus → Bool
  | .trial | .active | .scheduled => true
  | _ => false

def isEffectiveAt (row : Subscription) (t : Instant) : Bool :=
  inCandidateStatus row.status && !(row.status = .scheduled && row.startsAt = none) &&
    termContains row.toTerm t

/-- The subscription in force, if any; two of them are refused. -/
def effectiveSubscription (rows : List Subscription) (t : Instant) :
    Except Refusal (Option Subscription) :=
  match rows.filter (isEffectiveAt · t) with
  | [] => .ok none
  | [row] => .ok (some row)
  | _ => .error .subscriptionEntitlementsInvalid

def Subscription.report (row : Subscription) (status : ReportedStatus) : ReportedSubscription :=
  ⟨row.toTerm, row.id, row.planVersionId, status⟩

def readOnlyEntitlements (subscription : Option ReportedSubscription) : EffectiveEntitlements :=
  ⟨.readOnly, subscription, fun _ => some 0, fun _ => false⟩

def unmanagedEntitlements : EffectiveEntitlements :=
  ⟨.unmanaged, none, fun _ => none, fun _ => true⟩

/-- The rights of the subscription in force. -/
def managedEntitlements (c : Catalog) (addons : List Addon) (selected : Subscription)
    (t : Instant) : Except Refusal EffectiveEntitlements := do
  let plan ← planEntitlements c selected.planVersionId
  let contributors ← contributorsFor c addons selected.id t
  let quotas ← addQuotas plan.quotas contributors
  return ⟨.managed,
    some (selected.report (if selected.status = .trial then .trial else .active)),
    quotas, addFeatures plan.features contributors⟩

/-- A row the tenant once had in force and whose term is over. -/
def endedAt (t : Instant) (row : Subscription) : Bool :=
  row.status != .cancelled && row.status != .superseded && termEnded row.toTerm t

def lastEnded (rows : List Subscription) (t : Instant) : Option Subscription :=
  ((rows.filter (endedAt t)).insertionSort fun l r => r.endsAt.getD 0 ≤ l.endsAt.getD 0).head?

/-- The answer where no subscription is in force. -/
def lapsedEntitlements (c : Catalog) (rows : List Subscription) (t : Instant) :
    Except Refusal EffectiveEntitlements :=
  match rows.filter (·.status = .pendingActivation) with
  | _ :: _ :: _ => .error .subscriptionEntitlementsInvalid
  | [pending] => do
    let _ ← planEntitlements c pending.planVersionId
    return readOnlyEntitlements (some (pending.report .pendingActivation))
  | [] =>
    match lastEnded rows t with
    | none => .ok (readOnlyEntitlements none)
    | some ended => do
      let _ ← planEntitlements c ended.planVersionId
      return readOnlyEntitlements (some (ended.report .expired))

/-- `order by created_at, id`. -/
def Subscription.createdBefore (a b : Subscription) : Prop :=
  a.createdAt < b.createdAt ∨ a.createdAt = b.createdAt ∧ a.id ≤ b.id

instance : DecidableRel Subscription.createdBefore := fun a b => by
  unfold Subscription.createdBefore
  infer_instance

/-- The answer for rows in their order. -/
def resolveRows (c : Catalog) (rows : List Subscription) (addons : List Addon) (t : Instant) :
    Except Refusal EffectiveEntitlements :=
  if rows = [] then .ok unmanagedEntitlements
  else do
    match ← effectiveSubscription rows t with
    | some selected => managedEntitlements c addons selected t
    | none => lapsedEntitlements c rows t

/-- What a tenant may do at an instant. -/
def resolve (c : Catalog) (tables : Tables) (t : Instant) :
    Except Refusal EffectiveEntitlements :=
  resolveRows c (tables.subscriptions.insertionSort Subscription.createdBefore) tables.addons t

end Markiro.Subscriptions
