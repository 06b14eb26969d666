import Markiro.Subscriptions.Entitlements

/-!
# Entitlement snapshots

`resolveSnapshotInTransaction` of `entitlements.service.ts` with a loaded timeline: the rights in
force at an instant are read, `readEntitlementFacts` lists the sources behind them with every
boundary at which something may change, and `projectEntitlements` folds the sources into the
candidate rights and answers a snapshot, which its schema accepts or throws.
-/

namespace Markiro.Subscriptions

/-! ## Effects and operations -/

inductive EntitlementFeatureKey where
  | current (key : FeatureKey)
  | later (key : LaterFeatureKey)
  deriving DecidableEq

def entitlementFeatureKeys : List EntitlementFeatureKey :=
  [.current .labelEditor, .current .publicApi, .current .pallets, .later .chzIntegration,
    .later .inventory, .later .commerceMl, .later .handheld, .later .customLogo]

/-- What a source other than a plan grants. -/
inductive EntitlementEffect where
  | quota (key : QuotaKey) (increment : ℤ)
  | feature (key : EntitlementFeatureKey)
  deriving DecidableEq

def EntitlementEffect.key : EntitlementEffect → EntitlementKey
  | .quota key _ => .quota key
  | .feature (.current key) => .feature key
  | .feature (.later key) => .later key

inductive OperationClass where
  | newWork | continuation | storedRead | evidenceIngest
  deriving DecidableEq

inductive EntitlementOperationId where
  | nativeShiftStart | nativeInventoryStart | nativePickupStart
  | nkLookup | nkProposal | nkApply | nkRefresh | nkWorker
  | chzExportCreate | chzExportPoll | chzExportReceipt
  | inventoryFileCreate | inventoryTaskCreate | inventoryTaskStart
  | commerceMlExchange | handheldWorkStart | labelEditorTemplateWrite
  | palletsShiftConfigure | palletsShiftConfigureStation | palletsShiftStart
  | publicCatalogRead | publicInventoryRead | publicInventoryCreate | publicInventoryImport
  | publicInventorySnapshot | publicInventoryStart | publicApiRequest
  deriving DecidableEq

namespace EntitlementOperationId

def features : EntitlementOperationId → List EntitlementFeatureKey
  | nativeShiftStart | nativePickupStart => []
  | nativeInventoryStart | inventoryFileCreate | inventoryTaskCreate | inventoryTaskStart =>
    [.later .inventory]
  | nkLookup | nkProposal | nkApply | nkRefresh | nkWorker => [.later .chzIntegration]
  | chzExportCreate | chzExportPoll | chzExportReceipt =>
    [.later .inventory, .later .chzIntegration]
  | commerceMlExchange => [.later .commerceMl]
  | handheldWorkStart => [.later .handheld]
  | labelEditorTemplateWrite => [.current .labelEditor]
  | palletsShiftConfigure | palletsShiftConfigureStation | palletsShiftStart =>
    [.current .pallets]
  | publicCatalogRead | publicApiRequest => [.current .publicApi]
  | publicInventoryRead | publicInventoryCreate | publicInventoryImport
  | publicInventorySnapshot | publicInventoryStart => [.current .publicApi, .later .inventory]

def operationClass : EntitlementOperationId → OperationClass
  | chzExportPoll => .continuation
  | chzExportReceipt => .storedRead
  | _ => .newWork

end EntitlementOperationId

/-! ## Failures and timestamps -/

inductive SnapshotError where
  | refused (r : Refusal)
  | schema
  deriving DecidableEq

/-- A computation that throws an exception of the service or one of a schema. -/
abbrev Reading := Except SnapshotError

def check (b : Bool) (e : SnapshotError) : Reading Unit := if b then .ok () else .error e

/-- The first and the last millisecond of the years 0 to 9999. -/
def firstTimestamp : Instant := -62167219200000

def lastTimestamp : Instant := 253402300799999

/-- `toISOString()` names the instant with four digits of the year, as a timestamp has to. -/
def isTimestamp (t : Instant) : Bool := firstTimestamp ≤ t && t ≤ lastTimestamp

def Term.readable (term : Term) : Bool :=
  term.startsAt.all isTimestamp && term.endsAt.all isTimestamp

def maxSafeInteger : ℤ := 2 ^ 53 - 1

/-! ## Sources -/

inductive PreparedKind where
  | temporary | compatibility
  deriving DecidableEq

structure SourceRow where
  id : Uuid
  versionId : Uuid
  subscriptionId : Uuid
  kind : PreparedKind
  effects : List EntitlementEffect
  operationIds : List EntitlementOperationId
  startsAt : Instant
  endsAt : Option Instant
  revokedAt : Option Instant

inductive SourceKind where
  | plan (quotas : QuotaKey → Option ℤ) (features : EntitlementFeatureKey → Option Bool)
  | addon
  | prepared (kind : PreparedKind)

structure EntitlementSource where
  id : Uuid
  versionId : Uuid
  kind : SourceKind
  effects : List EntitlementEffect
  operationIds : List EntitlementOperationId
  term : Term

def SourceKind.isPlan : SourceKind → Bool
  | .plan _ _ => true
  | _ => false

def SourceKind.isPrepared : SourceKind → Bool
  | .prepared _ => true
  | _ => false

def EntitlementEffect.upTo (bound : ℤ) : EntitlementEffect → Bool
  | .quota _ increment => 0 < increment && increment ≤ bound
  | .feature _ => true

def EntitlementEffect.isLater : EntitlementEffect → Bool
  | .feature (.later _) => true
  | _ => false

def effectsAccepted (bound : ℤ) (effects : List EntitlementEffect) : Bool :=
  (effects.map (·.key)).Nodup ∧ effects.all (·.upTo bound)

/-- `integer` columns and counters of this size. -/
def maxInteger : ℤ := 2147483647

/-- The effects, operations and dates a prepared source may have. -/
def preparedAccepted (kind : PreparedKind) (effects : List EntitlementEffect)
    (operationIds : List EntitlementOperationId) (startsAt endsAt : Option Instant) : Bool :=
  effects ≠ [] ∧ effectsAccepted maxInteger effects ∧ operationIds ≠ [] ∧ operationIds.Nodup ∧
    startsAt.isSome ∧ (kind = .temporary → endsAt.isSome) ∧
    (kind = .compatibility → effects.all (·.isLater))

def EntitlementSource.kindAccepted (s : EntitlementSource) : Bool :=
  match s.kind with
  | .plan quotas _ => s.effects = [] && decide s.operationIds.Nodup &&
      quotaKeys.all fun key => (quotas key).all fun n => 0 ≤ n && n ≤ maxSafeInteger
  | .addon => effectsAccepted maxSafeInteger s.effects && decide s.operationIds.Nodup
  | .prepared kind => preparedAccepted kind s.effects s.operationIds s.term.startsAt s.term.endsAt

def EntitlementSource.accepted (s : EntitlementSource) : Bool :=
  s.term.readable && decide s.term.ordered && s.kindAccepted

def parseSource (s : EntitlementSource) : Reading EntitlementSource :=
  if s.accepted then .ok s else .error .schema

/-- An operation of a compatibility source needs a feature that the source grants. -/
def operationGranted (effects : List EntitlementEffect) (op : EntitlementOperationId) : Bool :=
  op.features.any fun key => .feature key ∈ effects

/-- `platformSource`: every row of the tenant has to be readable, also a revoked one. -/
def platformSource (row : SourceRow) : Reading SourceRow :=
  if preparedAccepted row.kind row.effects row.operationIds (some row.startsAt) row.endsAt ∧
      (Term.mk (some row.startsAt) row.endsAt).readable ∧
      (Term.mk (some row.startsAt) row.endsAt).ordered ∧ row.revokedAt.all isTimestamp ∧
      (row.kind = .compatibility → row.operationIds.all (operationGranted row.effects)) then .ok row
  else .error .schema

def safeSource (row : SourceRow) : Reading EntitlementSource :=
  parseSource ⟨row.id, row.versionId, .prepared row.kind, row.effects, row.operationIds,
    ⟨some row.startsAt, row.endsAt⟩⟩

/-! ## The timeline -/

structure PolicyRow where
  id : Uuid
  approved : Bool

/-- What one transaction loads of a tenant, for all instants it asks about: its rows in order, the
catalog they name with the lifecycle policy of each version, and the ends of pending invitations. -/
structure EntitlementTimeline where
  subscriptions : List Subscription
  additions : List Addon
  rows : List SourceRow
  catalog : Catalog
  lifecyclePolicyId : Uuid → Option Uuid
  policies : List PolicyRow
  invitations : List Instant
  revision : ℕ
  usageRevision : ℕ

/-- The rights in force, read from the timeline. -/
def resolveTimeline (tl : EntitlementTimeline) (t : Instant) :
    Except Refusal EffectiveEntitlements :=
  resolveRows tl.catalog tl.subscriptions tl.additions t

/-- The seats that are taken at an instant: those of members and of invitations that are open. -/
def usageAt (tl : EntitlementTimeline) (baseUsage : QuotaKey → ℕ) (t : Instant) : QuotaKey → ℕ :=
  Function.update baseUsage .cabinetUsers
    (baseUsage .cabinetUsers + tl.invitations.countP (t < ·))

/-! ## The facts -/

/-- An addition that is not expired or revoked. -/
def Addon.isOpen (addon : Addon) : Bool := addon.status = .active || addon.status = .scheduled

def projectionEffect (quantity : ℤ) (effect : AddonEffect) : Reading EntitlementEffect :=
  match effect.quotaIncrement, effect.entitlementKey with
  | none, .feature key => do
    check effect.featureEnabled .schema
    return .feature (.current key)
  | none, .later key => do
    check effect.featureEnabled .schema
    return .feature (.later key)
  | some increment, .quota key => do
    check (0 < increment && increment ≤ maxInteger) .schema
    return .quota key (increment * quantity)
  | _, _ => .error .schema

def planFeatures (plan : PlanEntitlements) : EntitlementFeatureKey → Option Bool
  | .current key => some (plan.features key)
  | .later key => plan.later key

def planSource (tl : EntitlementTimeline) (s : ReportedSubscription) : Reading EntitlementSource :=
  match (tl.catalog.versions s.planVersionId).bind (·.plan) with
  | none => .error (.refused .subscriptionEntitlementsInvalid)
  | some plan =>
    parseSource ⟨s.id, s.planVersionId, .plan plan.quotas (planFeatures plan), [], [], s.toTerm⟩

def addonSource (tl : EntitlementTimeline) (addon : Addon) : Reading EntitlementSource :=
  match tl.catalog.versions addon.addonVersionId with
  | none => .error (.refused .subscriptionEntitlementsInvalid)
  | some v =>
    if v.kind = .addon ∧ v.inUse ∧ ¬(addon.status = .scheduled ∧ addon.startsAt = none) ∧
        v.effects ≠ [] then do
      let effects ← v.effects.mapM (projectionEffect addon.quantity)
      parseSource ⟨addon.id, addon.addonVersionId, .addon, effects, [], addon.toTerm⟩
    else .error (.refused .subscriptionEntitlementsInvalid)

def additionsOf (tl : EntitlementTimeline) (s : ReportedSubscription) : List Addon :=
  (tl.additions.filter (·.isOpen)).filter (·.subscriptionId = s.id)

def managedSources (tl : EntitlementTimeline) (current : EffectiveEntitlements) :
    Reading (List EntitlementSource) :=
  match current.access, current.subscription with
  | .managed, some s => do
    let plan ← planSource tl s
    let addons ← (additionsOf tl s).mapM (addonSource tl)
    return plan :: addons
  | _, _ => .ok []

def preparedRows (tl : EntitlementTimeline) (current : EffectiveEntitlements) : List SourceRow :=
  tl.rows.filter fun row =>
    current.subscription.any (fun s => row.subscriptionId = s.id) && row.revokedAt = none

/-- The versions whose lifecycle policies matter. -/
def versionIds (tl : EntitlementTimeline) (current : EffectiveEntitlements) : List Uuid :=
  match current.access, current.subscription with
  | .managed, some s => s.planVersionId :: (additionsOf tl s).map (·.addonVersionId)
  | _, some s => [s.planVersionId]
  | _, none => []

def hasApprovedPolicy (tl : EntitlementTimeline) (versionId : Uuid) : Bool :=
  (tl.lifecyclePolicyId versionId).any fun id => tl.policies.any fun p => p.id = id && p.approved

inductive ReadinessReason where
  | lifecyclePolicyRequired | mappingRequired | subscriptionReadOnly | subscriptionUnmanaged
  deriving DecidableEq

def lifecyclePolicyRequired (tl : EntitlementTimeline) (current : EffectiveEntitlements) : Bool :=
  let versions := (versionIds tl current).filter fun id => (tl.catalog.versions id).isSome
  versions.isEmpty || versions.any fun id => !hasApprovedPolicy tl id

structure EntitlementFacts where
  sources : List EntitlementSource
  boundaries : List (Option Instant)
  lifecyclePolicyRequired : Bool

def Term.bounds (term : Term) : List (Option Instant) := [term.startsAt, term.endsAt]

/-- The status ends no more by the clock. -/
def SubscriptionStatus.isClosed (s : SubscriptionStatus) : Bool :=
  s = .cancelled || s = .superseded

def boundaries (tl : EntitlementTimeline) : List (Option Instant) :=
  (tl.subscriptions.filter fun row => !row.status.isClosed).flatMap (·.toTerm.bounds) ++
    (tl.additions.filter (·.isOpen)).flatMap (·.toTerm.bounds) ++ tl.invitations.map some

def readEntitlementFacts (tl : EntitlementTimeline) (current : EffectiveEntitlements) :
    Reading EntitlementFacts := do
  let _ ← tl.rows.mapM platformSource
  let managed ← managedSources tl current
  let prepared ← (preparedRows tl current).mapM safeSource
  return ⟨managed ++ prepared, boundaries tl, lifecyclePolicyRequired tl current⟩

/-! ## The projection -/

inductive EnforcementMode where
  | managedOnly | all
  deriving DecidableEq

def sourceActiveAt (source : EntitlementSource) (t : Instant) : Bool := termContains source.term t

structure EntitlementQuota where
  limit : Option ℤ
  used : ℕ
  remaining : Option ℤ

def quotas (limits : QuotaKey → Option ℤ) (usage : QuotaKey → ℕ) (key : QuotaKey) :
    EntitlementQuota :=
  ⟨limits key, usage key, (limits key).map fun limit => max 0 (limit - usage key)⟩

/-- What the fold over the sources builds. -/
structure Candidate where
  limits : QuotaKey → Option ℤ
  features : EntitlementFeatureKey → Option Bool

def applyEffect (c : Candidate) : EntitlementEffect → Reading Candidate
  | .feature key => .ok { c with features := Function.update c.features key (some true) }
  | .quota key increment =>
    match c.limits key with
    | none => .ok c
    | some base =>
      if isSafeInteger (base + increment) then
        .ok { c with limits := Function.update c.limits key (some (base + increment)) }
      else .error (.refused .subscriptionEntitlementsInvalid)

def applySource (c : Candidate) (source : EntitlementSource) : Reading Candidate :=
  if source.kind.isPlan then .ok c else source.effects.foldlM applyEffect c

def baseCandidate (current : EffectiveEntitlements) (active : List EntitlementSource) :
    Candidate :=
  match (active.find? (·.kind.isPlan)).map EntitlementSource.kind with
  | some (.plan quotas features) => ⟨quotas, features⟩
  | _ => ⟨current.quotas, fun
    | .current key => some (current.features key)
    | .later _ => if current.access = .readOnly then some false else none⟩

def activeSources (current : EffectiveEntitlements) (sources : List EntitlementSource)
    (t : Instant) : List EntitlementSource :=
  if current.access = .managed then sources.filter (sourceActiveAt · t) else []

def projectCandidate (current : EffectiveEntitlements) (sources : List EntitlementSource)
    (t : Instant) : Reading Candidate :=
  (activeSources current sources t).foldlM applySource
    (baseCandidate current (activeSources current sources t))

/-- The boundaries of a projection, those of its sources with them. -/
def allBoundaries (facts : EntitlementFacts) : List Instant :=
  (facts.boundaries ++ facts.sources.flatMap (·.term.bounds)).filterMap id

def nextChange (facts : EntitlementFacts) (t : Instant) : Option Instant :=
  ((allBoundaries facts).filter (t < ·)).min?

/-- The reasons in the order of their texts. -/
def readinessReasons (current : EffectiveEntitlements) (facts : EntitlementFacts)
    (features : EntitlementFeatureKey → Option Bool) : List ReadinessReason :=
  (if facts.lifecyclePolicyRequired then [.lifecyclePolicyRequired] else []) ++
    (if entitlementFeatureKeys.any fun key => features key = none then [.mappingRequired]
      else []) ++
    (if current.access = .readOnly then [.subscriptionReadOnly] else []) ++
    if current.access = .unmanaged then [.subscriptionUnmanaged] else []

/-- What a snapshot says of the tenant, without its stamps. -/
structure SnapshotBody where
  revision : ℕ
  usageRevision : ℕ
  nextChangeAt : Option Instant
  access : Access
  writeAllowed : Bool
  subscription : Option ReportedSubscription
  currentQuotas : QuotaKey → EntitlementQuota
  currentFeatures : FeatureKey → Bool
  candidateQuotas : QuotaKey → EntitlementQuota
  candidateFeatures : EntitlementFeatureKey → Option Bool
  sources : List EntitlementSource
  readiness : List ReadinessReason

/-- A snapshot with its stamps; what was observed of connections is filled in later. -/
structure EntitlementSnapshotV1 extends SnapshotBody where
  asOf : Instant
  countedAt : Instant
  observedAt : Instant

def EntitlementQuota.accepted (q : EntitlementQuota) : Bool :=
  (q.limit.all fun n => 0 ≤ n && n ≤ maxSafeInteger) && decide ((q.used : ℤ) ≤ maxSafeInteger)

/-- The revision fits `bigint`. -/
def revisionAccepted (revision : ℕ) : Bool := revision ≤ 9223372036854775807

/-- What `entitlementSnapshotV1Schema` asks of the parts without stamps. -/
def SnapshotBody.accepted (s : SnapshotBody) : Bool :=
  revisionAccepted s.revision && revisionAccepted s.usageRevision &&
    s.nextChangeAt.all isTimestamp && (s.subscription.all fun r => r.toTerm.readable) &&
    (quotaKeys.all fun key => (s.currentQuotas key).accepted && (s.candidateQuotas key).accepted) &&
    s.sources.all (·.accepted)

def parseSnapshot (s : EntitlementSnapshotV1) : Reading EntitlementSnapshotV1 :=
  if s.accepted ∧ isTimestamp s.asOf ∧ isTimestamp s.countedAt ∧ isTimestamp s.observedAt then
    .ok s
  else .error .schema

/-- Writes are allowed to managed tenants, and to unmanaged ones where only managed are enforced. -/
def writeAllowed (access : Access) (mode : EnforcementMode) : Bool :=
  access = .managed || access = .unmanaged && mode = .managedOnly

def projectEntitlements (tl : EntitlementTimeline) (current : EffectiveEntitlements)
    (usage : QuotaKey → ℕ) (facts : EntitlementFacts) (mode : EnforcementMode) (t : Instant) :
    Reading EntitlementSnapshotV1 := do
  let candidate ← projectCandidate current facts.sources t
  parseSnapshot
    { revision := tl.revision, usageRevision := tl.usageRevision
      nextChangeAt := nextChange facts t
      access := current.access, writeAllowed := writeAllowed current.access mode
      subscription := current.subscription
      currentQuotas := quotas current.quotas usage, currentFeatures := current.features
      candidateQuotas := quotas candidate.limits usage
      candidateFeatures := candidate.features
      sources := facts.sources
      readiness := readinessReasons current facts candidate.features
      asOf := t, countedAt := t, observedAt := t }

def resolveSnapshot (tl : EntitlementTimeline) (baseUsage : QuotaKey → ℕ) (mode : EnforcementMode)
    (t : Instant) : Reading EntitlementSnapshotV1 := do
  let current ← (resolveTimeline tl t).mapError .refused
  let facts ← readEntitlementFacts tl current
  projectEntitlements tl current (usageAt tl baseUsage t) facts mode t

/-! ## Operations -/

inductive Outcome where
  | allow | deny | unknown
  deriving DecidableEq

inductive ReasonCode where
  | recoveryAccessPreserved | subscriptionUnmanaged | subscriptionReadOnly | mappingRequired
  | featureNotIncluded
  deriving DecidableEq

structure Evaluation where
  outcome : Outcome
  reasonCodes : List ReasonCode
  deriving DecidableEq

def EntitlementSource.grants (source : EntitlementSource) (key : EntitlementFeatureKey) : Bool :=
  match source.kind with
  | .plan _ features => features key = some true
  | _ => .feature key ∈ source.effects

def EntitlementSource.leavesOpen (source : EntitlementSource) (key : EntitlementFeatureKey) :
    Bool :=
  match source.kind with
  | .plan _ features => features key = none
  | _ => false

/-- What the sources of an operation say of a feature. -/
def featureValue (sources : List EntitlementSource) (key : EntitlementFeatureKey) : Option Bool :=
  if sources.any (·.grants key) then some true
  else if sources.any (·.leavesOpen key) then none
  else some false

def operationSources (s : EntitlementSnapshotV1) (op : EntitlementOperationId) :
    List EntitlementSource :=
  (s.sources.filter (sourceActiveAt · s.asOf)).filter fun source =>
    source.operationIds = [] || op ∈ source.operationIds

def evaluateEntitlementOperation (s : EntitlementSnapshotV1) (op : EntitlementOperationId) :
    Evaluation :=
  if op.operationClass = .continuation ∨ op.operationClass = .storedRead then
    ⟨.allow, [.recoveryAccessPreserved]⟩
  else if ¬s.writeAllowed then
    ⟨.deny, [if s.access = .unmanaged then .subscriptionUnmanaged else .subscriptionReadOnly]⟩
  else if s.access ≠ .managed then ⟨.unknown, [.mappingRequired]⟩
  else
    let values := op.features.map (featureValue (operationSources s op))
    if some false ∈ values then ⟨.deny, [.featureNotIncluded]⟩
    else if none ∈ values then ⟨.unknown, [.mappingRequired]⟩
    else ⟨.allow, []⟩

end Markiro.Subscriptions
