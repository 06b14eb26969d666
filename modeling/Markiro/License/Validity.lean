import Markiro.Subscriptions.Snapshots

/-!
# How long a license file is valid

`exportStandaloneRights`, `rightsReduce` and `licenseValidity` of `standalone-license-rights.ts`.
Rights are ordered with an unlimited quota on top, and `rightsReduce` tells where a step of the
timeline does not go up in that order. Only neighbouring intervals are compared; the order being
transitive, the rights of the file hold in all of them.
-/

namespace Markiro.License

open Subscriptions

/-! ## Exported rights -/

structure StandaloneLicenseRights where
  quotas : QuotaKey → Option ℤ
  features : EntitlementFeatureKey → Bool

/-- The rights of a file, and the features that the catalog never mapped. -/
def exportStandaloneRights (snapshot : EntitlementSnapshotV1) :
    StandaloneLicenseRights × List EntitlementFeatureKey :=
  (⟨fun key => (snapshot.candidateQuotas key).limit,
    fun key => snapshot.candidateFeatures key = some true⟩,
    entitlementFeatureKeys.filter fun key => snapshot.candidateFeatures key = none)

/-- A reduction: any quota lower (or newly limited), or any feature switched off. -/
def rightsReduce (before after : StandaloneLicenseRights) : Bool :=
  (quotaKeys.any fun key =>
    match after.quotas key, before.quotas key with
    | none, _ => false
    | some _, none => true
    | some will, some was => will < was) ||
  entitlementFeatureKeys.any fun key => before.features key && !after.features key

/-- A quota in the order of limits. -/
def bound (limit : Option ℤ) : WithTop ℤ := limit

/-- No quota of the one is below that of the other, and no feature of the other is off. -/
instance : Preorder StandaloneLicenseRights where
  le r s := (∀ key, bound (r.quotas key) ≤ bound (s.quotas key)) ∧
    ∀ key, r.features key ≤ s.features key
  le_refl _ := ⟨fun _ => le_rfl, fun _ => le_rfl⟩
  le_trans _ _ _ h h' := ⟨fun key => (h.1 key).trans (h'.1 key),
    fun key => (h.2 key).trans (h'.2 key)⟩

theorem rights_le_iff {before after : StandaloneLicenseRights} : before ≤ after ↔
    (∀ key, bound (before.quotas key) ≤ bound (after.quotas key)) ∧
      ∀ key, before.features key ≤ after.features key := Iff.rfl

theorem bound_le_iff {was will : Option ℤ} : bound was ≤ bound will ↔
    ∀ n ∈ will, ∃ m ∈ was, m ≤ n := by
  cases will with
  | none => exact ⟨fun _ => nofun, fun _ => le_top⟩
  | some n =>
    cases was with
    | none => exact ⟨fun h => absurd h (WithTop.not_top_le_coe n), fun h => nomatch h n rfl⟩
    | some m =>
      refine ⟨fun h k hk => ⟨m, rfl, ?_⟩, fun h => ?_⟩
      · obtain rfl := Option.some.inj hk
        exact WithTop.coe_le_coe.1 h
      · obtain ⟨k, hk, hle⟩ := h n rfl
        obtain rfl := Option.some.inj hk
        exact WithTop.coe_le_coe.2 hle

/-- A step reduces the rights exactly where it does not go up. -/
theorem rightsReduce_iff (before after : StandaloneLicenseRights) :
    rightsReduce before after = false ↔ before ≤ after := by
  unfold rightsReduce
  rw [Bool.or_eq_false_iff, List.any_eq_false, List.any_eq_false, rights_le_iff]
  refine and_congr ⟨fun h key => ?_, fun h key _ => ?_⟩ ⟨fun h key => ?_, fun h key _ => ?_⟩
  · have hkey := h key (by cases key <;> decide)
    rw [bound_le_iff]
    intro n hn
    rw [Option.mem_def.1 hn] at hkey
    cases hwas : before.quotas key with
    | none =>
      rw [hwas] at hkey
      exact absurd rfl hkey
    | some m =>
      rw [hwas] at hkey
      exact ⟨m, rfl, not_lt.1 fun hlt => hkey (decide_eq_true hlt)⟩
  · have hkey := bound_le_iff.1 (h key)
    cases hwill : after.quotas key with
    | none => exact Bool.false_ne_true
    | some n =>
      obtain ⟨m, hm, hle⟩ := hkey n hwill
      rw [Option.mem_def.1 hm]
      exact fun hlt => absurd (of_decide_eq_true hlt) (not_lt.2 hle)
  · have hkey := h key (by rcases key with key | key <;> cases key <;> decide)
    cases hwas : before.features key with
    | false => exact Bool.false_le _
    | true =>
      rw [hwas] at hkey
      cases hwill : after.features key with
      | true => exact le_refl _
      | false =>
        rw [hwill] at hkey
        exact absurd rfl hkey
  · have hkey := h key
    cases hwas : before.features key with
    | false => exact Bool.false_ne_true
    | true =>
      rw [hwas] at hkey
      rw [Bool.eq_true_of_true_le hkey]
      exact Bool.false_ne_true

/-! ## The walk along the timeline -/

def MAX_LICENSE_TERM_MS : ℤ := 365 * 86400000

def MAX_VALIDITY_STEPS : ℕ := 64

inductive ValidityReason where
  | subscriptionEnd | entitlementReduction | oneYearCap | offlineTerm | demoTerm
  deriving DecidableEq

structure LicenseValidity where
  validUntil : Instant
  reason : ValidityReason
  boundaryAt : Option Instant
  deriving DecidableEq

/-- The term before any reduction is looked for. -/
def validityLimit (issued : Instant) (first : EntitlementSnapshotV1) : LicenseValidity :=
  match first.subscription.bind (·.endsAt) with
  | some e =>
    if e < issued + MAX_LICENSE_TERM_MS then ⟨e, .subscriptionEnd, some e⟩
    else ⟨issued + MAX_LICENSE_TERM_MS, .oneYearCap, none⟩
  | none => ⟨issued + MAX_LICENSE_TERM_MS, .oneYearCap, none⟩

def cutAt (next : Instant) : LicenseValidity := ⟨next, .entitlementReduction, some next⟩

/-- The loop with the steps that are left, and the instants whose snapshots it reads. -/
def validitySteps (snapshotAt : Instant → EntitlementSnapshotV1) (limit : LicenseValidity) :
    ℕ → StandaloneLicenseRights → Option Instant → LicenseValidity × List Instant
  | _, _, none => (limit, [])
  | 0, _, some next => if next < limit.validUntil then (cutAt next, []) else (limit, [])
  | left + 1, previous, some next =>
    if next < limit.validUntil then
      let snapshot := snapshotAt next
      let rights := (exportStandaloneRights snapshot).1
      if rightsReduce previous rights then (cutAt next, [next])
      -- a boundary that does not move forward is no timeline to trust
      else if snapshot.nextChangeAt.any (· ≤ next) then (cutAt next, [next])
      else
        let rest := validitySteps snapshotAt limit left rights snapshot.nextChangeAt
        (rest.1, next :: rest.2)
    else (limit, [])

def licenseValidity (issued : Instant) (first : EntitlementSnapshotV1)
    (snapshotAt : Instant → EntitlementSnapshotV1) (maxSteps : Option ℕ) :
    LicenseValidity × List Instant :=
  validitySteps snapshotAt (validityLimit issued first) (maxSteps.getD MAX_VALIDITY_STEPS)
    (exportStandaloneRights first).1 first.nextChangeAt

/-! ## What the term promises -/

/-- What a tenant's snapshot is at every instant. -/
abbrev Timeline := Instant → EntitlementSnapshotV1

namespace Timeline

variable {tl : Timeline}

def rightsAt (tl : Timeline) (t : Instant) : StandaloneLicenseRights :=
  (exportStandaloneRights (tl t)).1

/-- From any instant the candidate rights stay up to its next change, which comes after it. -/
structure Steady (tl : Timeline) : Prop where
  later : ∀ t, ∀ n ∈ (tl t).nextChangeAt, t < n
  quotas : ∀ t u, t ≤ u → (∀ n ∈ (tl t).nextChangeAt, u < n) →
    ∀ key, ((tl u).candidateQuotas key).limit = ((tl t).candidateQuotas key).limit
  features : ∀ t u, t ≤ u → (∀ n ∈ (tl t).nextChangeAt, u < n) →
    (tl u).candidateFeatures = (tl t).candidateFeatures

theorem Steady.rightsAt (h : tl.Steady) {t u : Instant} (htu : t ≤ u)
    (hu : ∀ n ∈ (tl t).nextChangeAt, u < n) : tl.rightsAt u = tl.rightsAt t := by
  unfold Timeline.rightsAt exportStandaloneRights
  rw [funext (h.quotas t u htu hu), h.features t u htu hu]

/-- The boundaries from an instant on, itself as the first. -/
def boundary (tl : Timeline) (issued : Instant) : ℕ → Option Instant
  | 0 => some issued
  | k + 1 => (tl.boundary issued k).bind fun t => (tl t).nextChangeAt

/-- The rights at a boundary are below those of the whole interval before it. -/
def ReducesAt (tl : Timeline) (issued v : Instant) (k : ℕ) : Prop :=
  ∃ p, tl.boundary issued k = some p ∧ p < v ∧
    ∀ t, p ≤ t → t < v → rightsReduce (tl.rightsAt t) (tl.rightsAt v) = true

structure Walked (tl : Timeline) (issued : Instant) (limit : LicenseValidity) (maxSteps : ℕ)
    (p : Instant) (v : LicenseValidity) : Prop where
  after : p < limit.validUntil → p < v.validUntil
  within : v.validUntil ≤ limit.validUntil
  kept : ∀ t, p ≤ t → t < v.validUntil → tl.rightsAt p ≤ tl.rightsAt t
  ends : v = limit ∨ v = cutAt v.validUntil ∧ v.validUntil < limit.validUntil ∧
    ∃ k ≤ maxSteps, tl.boundary issued (k + 1) = some v.validUntil ∧
      (k = maxSteps ∨ tl.ReducesAt issued v.validUntil k)

variable {issued p next : Instant} {limit : LicenseValidity} {n k : ℕ}

theorem Walked.uncut (h : tl.Steady) (hn : ∀ m ∈ (tl p).nextChangeAt, limit.validUntil ≤ m) :
    tl.Walked issued limit n p limit where
  after := id
  within := le_refl _
  kept t hpt ht := by rw [h.rightsAt hpt fun m hm => ht.trans_le (hn m hm)]
  ends := .inl rfl

theorem Walked.cut (h : tl.Steady) (hp : tl.boundary issued k = some p)
    (hnext : (tl p).nextChangeAt = some next) (hlt : next < limit.validUntil) (hk : k ≤ n)
    (hcut : k = n ∨ rightsReduce (tl.rightsAt p) (tl.rightsAt next) = true) :
    tl.Walked issued limit n p (cutAt next) := by
  have hstays : ∀ t, p ≤ t → t < next → tl.rightsAt t = tl.rightsAt p := fun t hpt ht =>
    h.rightsAt hpt fun m hm => Option.some.inj (hnext.symm.trans hm) ▸ ht
  have hboundary : tl.boundary issued (k + 1) = some next := by
    rw [boundary, hp]
    exact hnext
  refine ⟨fun _ => h.later p next hnext, hlt.le, fun t hpt ht => (hstays t hpt ht).ge,
    .inr ⟨rfl, hlt, k, hk, hboundary, hcut.imp_right fun hred => ?_⟩⟩
  refine ⟨p, hp, h.later p next hnext, fun t hpt ht => ?_⟩
  rw [hstays t hpt ht]
  exact hred

theorem validitySteps_late (left : ℕ) (previous : StandaloneLicenseRights) {o : Option Instant}
    (h : ∀ m ∈ o, limit.validUntil ≤ m) :
    validitySteps tl limit left previous o = (limit, []) := by
  unfold validitySteps
  split
  · rfl
  · exact if_neg (not_lt.2 (h _ rfl))
  · exact if_neg (not_lt.2 (h _ rfl))

/-- **A walk answers where the rights of its start end**, by induction on the steps left. -/
theorem validitySteps_walked (h : tl.Steady) (left : ℕ) (hk : k + left = n)
    (hp : tl.boundary issued k = some p) : tl.Walked issued limit n p
      (validitySteps tl limit left (tl.rightsAt p) (tl p).nextChangeAt).1 := by
  induction left generalizing k p with
  | zero =>
    by_cases hlate : ∀ m ∈ (tl p).nextChangeAt, limit.validUntil ≤ m
    · rw [validitySteps_late 0 _ hlate]
      exact Walked.uncut h hlate
    · push Not at hlate
      obtain ⟨next, hnext, hlt⟩ := hlate
      rw [Option.mem_def.1 hnext, validitySteps, if_pos hlt]
      exact Walked.cut h hp hnext hlt hk.le (.inl hk)
  | succ left ih =>
    by_cases hlate : ∀ m ∈ (tl p).nextChangeAt, limit.validUntil ≤ m
    · rw [validitySteps_late _ _ hlate]
      exact Walked.uncut h hlate
    push Not at hlate
    obtain ⟨next, hnext, hlt⟩ := hlate
    rw [Option.mem_def.1 hnext, validitySteps, if_pos hlt]
    change Walked _ _ _ _ _ (ite (rightsReduce (tl.rightsAt p) (tl.rightsAt next) = true)
      ((_, _) : LicenseValidity × List Instant) _).1
    by_cases hred : rightsReduce (tl.rightsAt p) (tl.rightsAt next) = true
    · rw [if_pos hred]
      exact Walked.cut h hp hnext hlt (by omega) (.inr hred)
    · have hforward : ¬((tl next).nextChangeAt.any (· ≤ next)) = true := by
        rw [Option.any_eq_true]
        rintro ⟨m, hm, hle⟩
        exact absurd (of_decide_eq_true hle) (not_le.2 (h.later next m hm))
      have hup := (rightsReduce_iff _ _).1 (Bool.eq_false_iff.2 hred)
      have hboundary : tl.boundary issued (k + 1) = some next := by
        rw [boundary, hp]
        exact hnext
      have hrest := ih (k := k + 1) (by omega) hboundary
      rw [if_neg hred, if_neg hforward]
      refine ⟨fun _ => (h.later p next hnext).trans (hrest.after hlt), hrest.within,
        fun t hpt ht => ?_, hrest.ends⟩
      rcases lt_or_ge t next with hbefore | hfrom
      · rw [h.rightsAt hpt fun m hm => Option.some.inj (hnext.symm.trans hm) ▸ hbefore]
      · exact hup.trans (hrest.kept t hfrom ht)

theorem validitySteps_reads (limit : LicenseValidity) (left : ℕ)
    (previous : StandaloneLicenseRights) (o : Option Instant) :
    (validitySteps tl limit left previous o).2.length ≤ left := by
  fun_induction validitySteps tl limit left previous o with
  | case1 | case2 | case3 | case7 => exact Nat.zero_le _
  | case4 | case5 => exact Nat.succ_le_succ (Nat.zero_le _)
  | case6 => exact Nat.succ_le_succ ‹_›

end Timeline

open Timeline

/-- The end of the subscription, or a year from the issue where that comes first. -/
def termEnd (issued : Instant) (first : EntitlementSnapshotV1) : Instant :=
  (first.subscription.bind (·.endsAt)).elim (issued + MAX_LICENSE_TERM_MS)
    (min · (issued + MAX_LICENSE_TERM_MS))

theorem validityLimit_validUntil (issued : Instant) (first : EntitlementSnapshotV1) :
    (validityLimit issued first).validUntil = termEnd issued first ∧
      (validityLimit issued first).reason ≠ .entitlementReduction := by
  unfold validityLimit termEnd
  cases first.subscription.bind (·.endsAt) with
  | none => exact ⟨rfl, nofun⟩
  | some e =>
    dsimp only [Option.elim]
    split
    · exact ⟨(min_eq_left (le_of_lt ‹_›)).symm, nofun⟩
    · exact ⟨(min_eq_right (not_lt.1 ‹_›)).symm, nofun⟩

/-- **A license file never promises more than the timeline.** -/
theorem license_never_promises_more {tl : Timeline} (h : tl.Steady) (issued : Instant)
    (maxSteps : Option ℕ) :
    let first := tl issued
    let (v, reads) := licenseValidity issued first tl maxSteps
    let steps := maxSteps.getD MAX_VALIDITY_STEPS
    reads.length ≤ steps ∧
    ((∀ e ∈ first.subscription.bind (·.endsAt), issued < e) → issued < v.validUntil) ∧
    v.validUntil ≤ termEnd issued first ∧
    (∀ t, issued ≤ t → t < v.validUntil →
      (∀ key, bound ((exportStandaloneRights first).1.quotas key) ≤
        bound ((tl t).candidateQuotas key).limit) ∧
      ∀ key, (exportStandaloneRights first).1.features key = true →
        (tl t).candidateFeatures key = some true) ∧
    (v.validUntil < termEnd issued first →
      ∃ k ≤ steps, tl.boundary issued (k + 1) = some v.validUntil ∧
        (k = steps ∨ tl.ReducesAt issued v.validUntil k)) ∧
    (v.reason = .entitlementReduction ↔ v.validUntil < termEnd issued first) := by
  have hwalk := @validitySteps_walked tl issued issued (validityLimit issued (tl issued)) _ 0 h
    (maxSteps.getD MAX_VALIDITY_STEPS) (Nat.zero_add _) rfl
  obtain ⟨hlimit, hreason⟩ := validityLimit_validUntil issued (tl issued)
  obtain ⟨hafter, hwithin, hkept, hends⟩ := hwalk
  rw [hlimit] at hafter hwithin hends
  refine ⟨validitySteps_reads _ _ _ _, fun he => hafter ?_, hwithin, fun t hle ht => ?_,
    fun hlt => ?_, fun hcut => ?_, fun hlt => ?_⟩
  · unfold termEnd
    have hterm : issued < issued + MAX_LICENSE_TERM_MS :=
      Int.lt_add_of_pos_right issued (by decide)
    cases hend : (tl issued).subscription.bind (·.endsAt) with
    | none => exact hterm
    | some e => exact lt_min (he e hend) hterm
  · obtain ⟨hquotas, hfeatures⟩ := rights_le_iff.1 (hkept t hle ht)
    refine ⟨hquotas, fun key hon => ?_⟩
    have hkey := hfeatures key
    rw [show (tl.rightsAt issued).features key = true from hon] at hkey
    exact of_decide_eq_true (Bool.eq_true_of_true_le hkey)
  · rcases hends with heq | ⟨-, -, hk⟩
    · exact absurd ((congrArg LicenseValidity.validUntil heq).trans hlimit) hlt.ne
    · exact hk
  · rcases hends with heq | ⟨-, hlt, -⟩
    · exact absurd (heq ▸ hcut) hreason
    · exact hlt
  · rcases hends with heq | ⟨hcut, -, -⟩
    · exact absurd ((congrArg LicenseValidity.validUntil heq).trans hlimit) hlt.ne
    · exact congrArg LicenseValidity.reason hcut

namespace Sample

def snapshot (limit : ℤ) (next : Option Instant) : EntitlementSnapshotV1 where
  revision := 1
  usageRevision := 1
  nextChangeAt := next
  access := .managed
  writeAllowed := true
  subscription := none
  currentQuotas _ := ⟨some limit, 0, some limit⟩
  currentFeatures _ := false
  candidateQuotas _ := ⟨some limit, 0, some limit⟩
  candidateFeatures _ := none
  sources := []
  readiness := []
  asOf := 0
  countedAt := 0
  observedAt := 0

/-- The limit falls at the instant 10. -/
def falling : Timeline := fun t =>
  if t < 10 then snapshot 5 (some 10) else snapshot 3 none

theorem falling_steady : falling.Steady := by
  have hsame : ∀ t u, t ≤ u → (∀ n ∈ (falling t).nextChangeAt, u < n) →
      (t < 10 ↔ u < 10) := by
    intro t u htu hu
    refine ⟨fun ht => hu 10 ?_, htu.trans_lt⟩
    rw [falling, if_pos ht]
    rfl
  refine ⟨fun t n hn => ?_, fun t u htu hu key => ?_, fun t u htu hu => ?_⟩
  · unfold falling at hn
    split at hn
    · exact Option.some.inj hn ▸ ‹_›
    · exact nomatch hn
  · simp only [falling, hsame t u htu hu]
  · simp only [falling, hsame t u htu hu]

end Sample

theorem license_never_promises_more_sample :
    (licenseValidity 2 (Sample.falling 2) Sample.falling none).1.validUntil = 10 ∧
      (licenseValidity 2 (Sample.falling 2) Sample.falling none).1.reason =
        .entitlementReduction := by
  have h := license_never_promises_more Sample.falling_steady 2 none
  exact ⟨by decide, h.2.2.2.2.2.2 (by decide)⟩

end Markiro.License
