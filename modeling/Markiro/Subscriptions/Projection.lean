import Markiro.Subscriptions.SnapshotTimes

/-!
# Enforced and projected rights

The add-ons of a subscription are folded twice: into the rights that `resolve` enforces and, as
sources, into the candidate of a snapshot. Both folds add the same (`projection_agrees`), so the
candidate differs from what is enforced only by the prepared sources, and an operation that no source
is scoped to is judged by the candidate.
-/

namespace Markiro.Subscriptions

open Results

/-! ## What a list of effects adds -/

def EntitlementEffect.increment (key : QuotaKey) : EntitlementEffect → ℤ
  | .quota k n => if k = key then n else 0
  | .feature _ => 0

def incrementOf (effects : List EntitlementEffect) (key : QuotaKey) : ℤ :=
  (effects.map (·.increment key)).sum

def sourcesIncrement (sources : List EntitlementSource) (key : QuotaKey) : ℤ :=
  (sources.map fun source => incrementOf source.effects key).sum

def sourcesEnable (sources : List EntitlementSource) (key : EntitlementFeatureKey) : Bool :=
  sources.any fun source => decide (.feature key ∈ source.effects)

theorem applyEffect_ok {c c' : Candidate} {effect : EntitlementEffect}
    (h : applyEffect c effect = .ok c') :
    (∀ key, c'.limits key = (c.limits key).map (· + effect.increment key)) ∧
      ∀ key, c'.features key = if effect = .feature key then some true else c.features key := by
  cases effect with
  | feature k =>
    obtain rfl := Except.ok.inj h
    refine ⟨fun key => ?_, fun key => ?_⟩
    · simp [EntitlementEffect.increment]
    · by_cases hk : key = k
      · subst hk
        simp
      · have hne : EntitlementEffect.feature k ≠ .feature key := fun he =>
          hk (EntitlementEffect.feature.inj he).symm
        rw [if_neg hne]
        exact Function.update_of_ne hk _ _
  | quota k n =>
    refine ⟨fun key => ?_, fun key => ?_⟩
    · cases hlimit : c.limits k with
      | none =>
        simp only [applyEffect, hlimit] at h
        obtain rfl := Except.ok.inj h
        by_cases hk : k = key
        · subst hk
          rw [hlimit, Option.map_none]
        · simp [EntitlementEffect.increment, hk]
      | some base =>
        simp only [applyEffect, hlimit] at h
        split at h
        · obtain rfl := Except.ok.inj h
          by_cases hk : k = key
          · subst hk
            simp [EntitlementEffect.increment, hlimit]
          · have hother : Function.update c.limits k (some (base + n)) key = c.limits key :=
              Function.update_of_ne (Ne.symm hk) _ _
            simp [EntitlementEffect.increment, hk, hother]
        · exact nomatch h
    · rw [if_neg nofun]
      cases hlimit : c.limits k with
      | none =>
        simp only [applyEffect, hlimit] at h
        obtain rfl := Except.ok.inj h
        rfl
      | some base =>
        simp only [applyEffect, hlimit] at h
        split at h
        · obtain rfl := Except.ok.inj h
          rfl
        · exact nomatch h

theorem map_add_map (limit : Option ℤ) (x y : ℤ) :
    (limit.map (· + x)).map (· + y) = limit.map (· + (x + y)) := by
  cases limit with
  | none => rfl
  | some n => rw [Option.map_some, Option.map_some, Option.map_some, add_assoc]

/-- Effects one after the other: the limits grow by their sum, the features they name are on. -/
theorem applyEffects_ok {effects : List EntitlementEffect} {c c' : Candidate}
    (h : effects.foldlM applyEffect c = .ok c') :
    (∀ key, c'.limits key = (c.limits key).map (· + incrementOf effects key)) ∧
      ∀ key, c'.features key =
        if .feature key ∈ effects then some true else c.features key := by
  induction effects generalizing c with
  | nil =>
    rw [List.foldlM_nil, pure_eq_ok] at h
    subst h
    exact ⟨fun key => by simp [incrementOf], fun key => by simp⟩
  | cons effect effects ih =>
    rw [List.foldlM_cons] at h
    obtain ⟨c1, h1, h2⟩ := bind_eq_ok.1 h
    obtain ⟨hlimits1, hfeatures1⟩ := applyEffect_ok h1
    obtain ⟨hlimits, hfeatures⟩ := ih h2
    refine ⟨fun key => ?_, fun key => ?_⟩
    · rw [hlimits, hlimits1, map_add_map]
      rfl
    · rw [hfeatures, hfeatures1]
      by_cases hmem : .feature key ∈ effects
      · rw [if_pos hmem, if_pos (List.mem_cons_of_mem _ hmem)]
      · rw [if_neg hmem]
        by_cases he : effect = .feature key
        · rw [if_pos he, if_pos (he ▸ List.mem_cons_self)]
        · rw [if_neg he, if_neg fun hcons => (List.mem_cons.1 hcons).elim
            (fun heq => he heq.symm) hmem]

theorem applySources_ok {sources : List EntitlementSource}
    (hplan : ∀ source ∈ sources, source.kind.isPlan = true → source.effects = [])
    {c c' : Candidate} (h : sources.foldlM applySource c = .ok c') :
    (∀ key, c'.limits key = (c.limits key).map (· + sourcesIncrement sources key)) ∧
      ∀ key, c'.features key =
        if sourcesEnable sources key then some true else c.features key := by
  induction sources generalizing c with
  | nil =>
    rw [List.foldlM_nil, pure_eq_ok] at h
    subst h
    exact ⟨fun key => by simp [sourcesIncrement], fun key => by simp [sourcesEnable]⟩
  | cons source sources ih =>
    rw [List.foldlM_cons] at h
    obtain ⟨c1, h1, h2⟩ := bind_eq_ok.1 h
    have heffects : source.effects.foldlM applyEffect c = .ok c1 := by
      unfold applySource at h1
      split at h1
      · next hp =>
        rw [hplan source List.mem_cons_self hp]
        exact h1
      · exact h1
    obtain ⟨hlimits1, hfeatures1⟩ := applyEffects_ok heffects
    obtain ⟨hlimits, hfeatures⟩ := ih (fun s hs => hplan s (List.mem_cons_of_mem _ hs)) h2
    refine ⟨fun key => ?_, fun key => ?_⟩
    · rw [hlimits, hlimits1, map_add_map]
      rfl
    · rw [hfeatures, hfeatures1, sourcesEnable, sourcesEnable, List.any_cons]
      by_cases hrest : (sources.any fun source => decide (.feature key ∈ source.effects)) = true
      · rw [hrest, Bool.or_true, if_pos rfl, if_pos rfl]
      · rw [Bool.not_eq_true] at hrest
        rw [hrest, Bool.or_false, if_neg Bool.false_ne_true]
        by_cases hmem : .feature key ∈ source.effects
        · rw [if_pos hmem, if_pos (decide_eq_true hmem)]
        · rw [if_neg hmem, if_neg (by rw [decide_eq_false hmem]; exact Bool.false_ne_true)]

/-! ## What contributors add -/

def EntitlementContributor.increment (c : EntitlementContributor) (key : QuotaKey) : ℤ :=
  (c.quotas key).getD 0

variable {base quotas : QuotaKey → Option ℤ} {contributor : EntitlementContributor}

theorem addQuota_ok
    {key : QuotaKey} (h : addQuota contributor base key = .ok quotas) (k : QuotaKey) :
    quotas k = if k = key then (base k).map (· + contributor.increment k) else base k := by
  unfold addQuota at h
  unfold EntitlementContributor.increment
  by_cases hk : k = key
  · subst hk
    rw [if_pos rfl]
    split at h
    · next increment n hincrement hbase =>
      split at h
      · obtain rfl := Except.ok.inj h
        simp [hincrement, hbase]
      · exact nomatch h
    · next hnot =>
      obtain rfl := Except.ok.inj h
      cases hbase : base k with
      | none => rfl
      | some n =>
        cases hincrement : contributor.quotas k with
        | none => simp
        | some increment => exact absurd hbase (hnot increment n hincrement)
  · rw [if_neg hk]
    split at h
    · split at h
      · obtain rfl := Except.ok.inj h
        exact Function.update_of_ne hk _ _
      · exact nomatch h
    · obtain rfl := Except.ok.inj h
      rfl

theorem addContributor_ok
    (h : quotaKeys.foldlM (addQuota contributor) base = .ok quotas) (key : QuotaKey) :
    quotas key = (base key).map (· + contributor.increment key) := by
  simp only [quotaKeys, List.foldlM_cons, List.foldlM_nil] at h
  obtain ⟨q1, h1, h⟩ := bind_eq_ok.1 h
  obtain ⟨q2, h2, h⟩ := bind_eq_ok.1 h
  obtain ⟨q3, h3, h⟩ := bind_eq_ok.1 h
  obtain ⟨q4, h4, h⟩ := bind_eq_ok.1 h
  obtain rfl := pure_eq_ok.1 h
  rw [addQuota_ok h4, addQuota_ok h3, addQuota_ok h2, addQuota_ok h1]
  cases key <;> rfl

variable {contributors : List EntitlementContributor}

theorem addQuotas_ok (h : addQuotas base contributors = .ok quotas) (key : QuotaKey) :
    quotas key = (base key).map (· + (contributors.map (·.increment key)).sum) := by
  unfold addQuotas at h
  induction contributors generalizing base with
  | nil =>
    rw [List.foldlM_nil, pure_eq_ok] at h
    subst h
    simp
  | cons contributor contributors ih =>
    rw [List.foldlM_cons] at h
    obtain ⟨q1, h1, h2⟩ := bind_eq_ok.1 h
    rw [ih h2, addContributor_ok h1, map_add_map]
    rfl

/-! ## One add-on, folded twice -/

theorem check_ok {b : Bool} {e : SnapshotError} (h : check b e = .ok ()) : b = true := by
  unfold check at h
  split at h
  · assumption
  · exact nomatch h

theorem addEffect_agrees {effect : AddonEffect} {p : EntitlementEffect}
    {c c' : EntitlementContributor} (hp : projectionEffect c.quantity effect = .ok p)
    (h : addEffect c effect = .ok c') :
    c'.quantity = c.quantity ∧
      (∀ key, c'.quotas key =
        if p.key = .quota key then some (p.increment key) else c.quotas key) ∧
      ∀ key, key ∈ c'.features ↔ key ∈ c.features ∨ .feature (.current key) = p := by
  unfold projectionEffect at hp
  unfold addEffect at h
  split at hp
  · next k hincrement hk =>
    obtain ⟨_, hcheck, hp⟩ := bind_eq_ok.1 hp
    obtain rfl := pure_eq_ok.1 hp
    simp only [hk, check_ok hcheck, if_true] at h
    obtain rfl := Except.ok.inj h
    exact ⟨rfl, fun key => (if_neg nofun).symm, fun key => by simp⟩
  · next k hincrement hk =>
    obtain ⟨_, hcheck, hp⟩ := bind_eq_ok.1 hp
    obtain rfl := pure_eq_ok.1 hp
    simp only [hk, check_ok hcheck, if_true] at h
    obtain rfl := Except.ok.inj h
    exact ⟨rfl, fun key => (if_neg nofun).symm, fun key => by simp⟩
  · next increment k hincrement hk =>
    obtain ⟨_, hcheck, hp⟩ := bind_eq_ok.1 hp
    obtain rfl := pure_eq_ok.1 hp
    simp only [hk, hincrement] at h
    split at h
    · obtain rfl := Except.ok.inj h
      refine ⟨rfl, fun key => ?_, fun key => by simp⟩
      by_cases hkey : k = key
      · subst hkey
        simp [EntitlementEffect.key, EntitlementEffect.increment]
      · have hne : EntitlementKey.quota k ≠ .quota key := fun he =>
          hkey (EntitlementKey.quota.inj he)
        rw [show (EntitlementEffect.quota k (increment * c.quantity)).key = .quota k from rfl,
          if_neg hne]
        exact Function.update_of_ne (Ne.symm hkey) _ _
    · exact nomatch h
  · exact nomatch hp

theorem addEffects_agree {effects : List AddonEffect} {projected : List EntitlementEffect}
    {c c' : EntitlementContributor}
    (hprojected : List.Forall₂ (fun e p => projectionEffect c.quantity e = .ok p) effects projected)
    (hkeys : (projected.map (·.key)).Nodup)
    (hfresh : ∀ key, .quota key ∈ projected.map (·.key) → c.quotas key = none)
    (h : effects.foldlM addEffect c = .ok c') :
    (∀ key, c'.increment key = c.increment key + incrementOf projected key) ∧
      ∀ key, key ∈ c'.features ↔ key ∈ c.features ∨ .feature (.current key) ∈ projected := by
  induction effects generalizing c projected with
  | nil =>
    cases hprojected
    rw [List.foldlM_nil, pure_eq_ok] at h
    subst h
    exact ⟨fun key => by simp [incrementOf], fun key => by simp⟩
  | cons effect effects ih =>
    cases hprojected with
    | @cons _ p _ projected hp hrest =>
      rw [List.foldlM_cons] at h
      obtain ⟨c1, h1, h2⟩ := bind_eq_ok.1 h
      rw [List.map_cons, List.nodup_cons] at hkeys
      obtain ⟨hquantity, hquotas, hfeatures⟩ := addEffect_agrees hp h1
      have hfresh1 : ∀ key, .quota key ∈ projected.map (·.key) → c1.quotas key = none := by
        intro key hkey
        have hne : p.key ≠ .quota key := fun he => hkeys.1 (he ▸ hkey)
        rw [hquotas, if_neg hne]
        exact hfresh key (List.mem_cons_of_mem _ hkey)
      rw [← hquantity] at hrest
      obtain ⟨hincrement, hin⟩ := ih hrest hkeys.2 hfresh1 h2
      refine ⟨fun key => ?_, fun key => ?_⟩
      · have hfirst : c1.increment key = c.increment key + p.increment key := by
          unfold EntitlementContributor.increment
          rw [hquotas]
          by_cases he : p.key = .quota key
          · rw [if_pos he, hfresh key (he ▸ List.mem_cons_self)]
            simp
          · rw [if_neg he]
            cases p with
            | feature k => simp [EntitlementEffect.increment]
            | quota k n =>
              have hk : k ≠ key := fun hk => he (congrArg EntitlementKey.quota hk)
              simp [EntitlementEffect.increment, hk]
        rw [hincrement, hfirst, add_assoc]
        rfl
      · rw [hin, hfeatures, List.mem_cons, or_assoc]

theorem parseSource_ok {source parsed : EntitlementSource} (h : parseSource source = .ok parsed) :
    parsed = source ∧ source.kindAccepted = true := by
  unfold parseSource at h
  split at h
  · next hok =>
    refine ⟨(Except.ok.inj h).symm, ?_⟩
    rw [EntitlementSource.accepted, Bool.and_eq_true] at hok
    exact hok.2
  · exact nomatch h

variable {tl : EntitlementTimeline} {source : EntitlementSource}

/-- An add-on's source, where it has one. -/
theorem addonSource_ok {addon : Addon} (h : addonSource tl addon = .ok source) :
    source.kind = .addon ∧ source.operationIds = [] ∧ source.term = addon.toTerm ∧
      ∃ v, tl.catalog.versions addon.addonVersionId = some v ∧
        v.effects.mapM (projectionEffect addon.quantity) = .ok source.effects ∧
        (source.effects.map (·.key)).Nodup := by
  unfold addonSource at h
  cases hv : tl.catalog.versions addon.addonVersionId with
  | none =>
    simp only [hv] at h
    exact nomatch h
  | some v =>
    simp only [hv] at h
    split at h
    · obtain ⟨effects, heffects, h⟩ := bind_eq_ok.1 h
      obtain ⟨rfl, haccepted⟩ := parseSource_ok h
      refine ⟨rfl, rfl, rfl, v, rfl, heffects, ?_⟩
      simp only [EntitlementSource.kindAccepted, Bool.and_eq_true, effectsAccepted,
        decide_eq_true_iff] at haccepted
      exact haccepted.1.1
    · exact nomatch h

theorem contributorOf_agrees {addon : Addon}
    (hcontributor : contributorOf tl.catalog addon = .ok contributor)
    (hsource : addonSource tl addon = .ok source) :
    (∀ key, contributor.increment key = incrementOf source.effects key) ∧
      ∀ key, key ∈ contributor.features ↔ .feature (.current key) ∈ source.effects := by
  obtain ⟨-, -, -, v, hv, heffects, hkeys⟩ := addonSource_ok hsource
  unfold contributorOf at hcontributor
  rw [hv] at hcontributor
  split at hcontributor
  · exact nomatch hcontributor
  · dsimp only at hcontributor
    split at hcontributor
    · obtain ⟨hincrement, hin⟩ := addEffects_agree (mapM_eq_ok.1 heffects) hkeys
        (fun _ _ => rfl) hcontributor
      refine ⟨fun key => ?_, fun key => ?_⟩
      · rw [hincrement]
        exact zero_add _
      · rw [hin]
        exact or_iff_right List.not_mem_nil
    · exact nomatch hcontributor

/-! ## All add-ons of a subscription -/

/-- Contributors and sources of the same add-ons add the same. -/
theorem contributors_agree {addons : List Addon} {sources : List EntitlementSource}
    (hcontributors : List.Forall₂ (fun a c => contributorOf tl.catalog a = .ok c) addons
      contributors)
    (hsources : List.Forall₂ (fun a s => addonSource tl a = .ok s) addons sources) :
    (∀ key, (contributors.map (·.increment key)).sum = sourcesIncrement sources key) ∧
      ∀ key, (contributors.any (·.features.contains key)) =
        sourcesEnable sources (.current key) := by
  induction hcontributors generalizing sources with
  | nil =>
    cases hsources
    exact ⟨fun _ => rfl, fun _ => rfl⟩
  | @cons addon contributor addons contributors hcontributor _ ih =>
    cases hsources with
    | @cons _ source _ sources hsource hrest =>
      obtain ⟨hincrement, hin⟩ := contributorOf_agrees hcontributor hsource
      obtain ⟨hsum, hany⟩ := ih hrest
      refine ⟨fun key => ?_, fun key => ?_⟩
      · rw [List.map_cons, List.sum_cons, hincrement, hsum]
        rfl
      · have hhead : contributor.features.contains key =
            decide (.feature (.current key) ∈ source.effects) := by
          rw [List.contains_eq_mem, decide_eq_decide]
          exact hin key
        rw [List.any_cons, hany, hhead, sourcesEnable, sourcesEnable, List.any_cons]

variable {addons : List EntitlementSource}

theorem activeAddons_forall₂ {s : ReportedSubscription}
    (h : (additionsOf tl s).mapM (addonSource tl) = .ok addons)
    (t : Instant) :
    List.Forall₂ (fun a source => addonSource tl a = .ok source)
      (tl.additions.filter (·.countsAt s.id t)) (addons.filter (sourceActiveAt · t)) := by
  have hfilter : tl.additions.filter (·.countsAt s.id t) =
      (additionsOf tl s).filter fun a => termContains a.toTerm t := by
    rw [additionsOf, List.filter_filter, List.filter_filter]
    apply List.filter_congr
    intro a _
    rw [Addon.countsAt, Addon.isOpen, Bool.and_comm, ← Bool.and_assoc]
  rw [hfilter]
  refine List.rel_filter (fun a source hsource => ?_) (mapM_eq_ok.1 h)
  dsimp only
  rw [sourceActiveAt, (addonSource_ok hsource).2.2.1]

theorem contributorsFor_agree {s : ReportedSubscription} {t : Instant}
    (hcontributors : contributorsFor tl.catalog tl.additions s.id t = .ok contributors)
    (haddons : (additionsOf tl s).mapM (addonSource tl) = .ok addons) :
    (∀ key, (contributors.map (·.increment key)).sum =
        sourcesIncrement (addons.filter (sourceActiveAt · t)) key) ∧
      ∀ key, (contributors.any (·.features.contains key)) =
        sourcesEnable (addons.filter (sourceActiveAt · t)) (.current key) := by
  have hsorted := mapM_eq_ok.1 hcontributors
  obtain ⟨unsorted, hunsorted, hperm⟩ := List.perm_comp_forall₂
    (List.perm_insertionSort (·.id ≤ ·.id) (tl.additions.filter (·.countsAt s.id t))).symm hsorted
  obtain ⟨hsum, hany⟩ := contributors_agree hunsorted (activeAddons_forall₂ haddons t)
  refine ⟨fun key => ?_, fun key => ?_⟩
  · rw [← hsum]
    exact (hperm.map _).sum_eq.symm
  · rw [← hany]
    exact hperm.symm.any_eq

/-! ## Managed rights -/

variable {current : EffectiveEntitlements}

/-- Where the rights are managed, they are those of the one subscription in force. -/
theorem resolveTimeline_managed {t : Instant} (h : resolveTimeline tl t = .ok current)
    (hmanaged : current.access = .managed) :
    ∃ selected, isEffectiveAt selected t = true ∧
      managedEntitlements tl.catalog tl.additions selected t = .ok current := by
  unfold resolveTimeline resolveRows at h
  split at h
  · obtain rfl := Except.ok.inj h
    exact nomatch hmanaged
  · obtain ⟨found, hfound, h⟩ := bind_eq_ok.1 h
    cases found with
    | some selected =>
      refine ⟨selected, ?_, h⟩
      unfold effectiveSubscription at hfound
      split at hfound
      · exact nomatch hfound
      · next row hrows =>
        obtain rfl := Option.some.inj (Except.ok.inj hfound)
        have hmem : row ∈ tl.subscriptions.filter (isEffectiveAt · t) := by
          rw [hrows]
          exact List.mem_cons_self
        exact (List.mem_filter.1 hmem).2
      · exact nomatch hfound
    | none =>
      dsimp only at h
      unfold lapsedEntitlements at h
      split at h
      · exact nomatch h
      · obtain ⟨_, -, h⟩ := bind_eq_ok.1 h
        obtain rfl := pure_eq_ok.1 h
        exact nomatch hmanaged
      · split at h
        · obtain rfl := Except.ok.inj h
          exact nomatch hmanaged
        · obtain ⟨_, -, h⟩ := bind_eq_ok.1 h
          obtain rfl := pure_eq_ok.1 h
          exact nomatch hmanaged

theorem planEntitlements_ok {c : Catalog} {versionId : Uuid} {plan : PlanEntitlements}
    (h : planEntitlements c versionId = .ok plan) :
    (c.versions versionId).bind (·.plan) = some plan := by
  unfold planEntitlements at h
  cases hv : c.versions versionId with
  | none =>
    simp only [hv] at h
    exact nomatch h
  | some v =>
    simp only [hv] at h
    cases hplan : v.plan with
    | none =>
      simp only [hplan] at h
      exact nomatch h
    | some p =>
      simp only [hplan] at h
      split at h
      · obtain rfl := Except.ok.inj h
        exact hplan
      · exact nomatch h

theorem safeSource_kind {row : SourceRow}
    (h : safeSource row = .ok source) : source.kind = .prepared row.kind := by
  obtain ⟨rfl, -⟩ := parseSource_ok h
  rfl

def activePrepared (sources : List EntitlementSource) (t : Instant) : List EntitlementSource :=
  sources.filter fun source => source.kind.isPrepared && sourceActiveAt source t

theorem sourcesIncrement_append (l l' : List EntitlementSource) (key : QuotaKey) :
    sourcesIncrement (l ++ l') key = sourcesIncrement l key + sourcesIncrement l' key := by
  rw [sourcesIncrement, List.map_append, List.sum_append]
  rfl

theorem sourcesEnable_append (l l' : List EntitlementSource) (key : EntitlementFeatureKey) :
    sourcesEnable (l ++ l') key = (sourcesEnable l key || sourcesEnable l' key) :=
  List.any_append

theorem activePrepared_of_addons
    (h : ∀ source ∈ addons, source.kind.isPrepared = false) (t : Instant) :
    activePrepared addons t = [] := by
  apply List.filter_eq_nil_iff.2
  intro source hsource
  rw [h source hsource, Bool.false_and]
  exact Bool.false_ne_true

theorem activePrepared_of_prepared {prepared : List EntitlementSource}
    (h : ∀ source ∈ prepared, source.kind.isPrepared = true) (t : Instant) :
    activePrepared prepared t = prepared.filter (sourceActiveAt · t) := by
  apply List.filter_congr
  intro source hsource
  rw [h source hsource, Bool.true_and]

theorem managedFacts_ok {t : Instant} {selected : Subscription} {facts : EntitlementFacts}
    (heffective : isEffectiveAt selected t = true)
    (hcurrent : managedEntitlements tl.catalog tl.additions selected t = .ok current)
    (hfacts : readEntitlementFacts tl current = .ok facts) :
    ∃ (plan : PlanEntitlements) (contributors : List EntitlementContributor)
      (source : EntitlementSource) (addons prepared : List EntitlementSource),
      contributorsFor tl.catalog tl.additions selected.id t = .ok contributors ∧
      addQuotas plan.quotas contributors = .ok current.quotas ∧
      current.features = addFeatures plan.features contributors ∧
      facts.sources = source :: (addons ++ prepared) ∧
      source.kind = .plan plan.quotas (planFeatures plan) ∧ source.effects = [] ∧
      sourceActiveAt source t = true ∧
      (tl.additions.filter (·.isOpen) |>.filter (·.subscriptionId = selected.id)).mapM
        (addonSource tl) = .ok addons ∧
      ∀ other ∈ prepared, ∃ kind, other.kind = .prepared kind := by
  obtain ⟨plan, hplan, hcurrent⟩ := bind_eq_ok.1 hcurrent
  obtain ⟨contributors, hcontributors, hcurrent⟩ := bind_eq_ok.1 hcurrent
  obtain ⟨quotas, hquotas, hcurrent⟩ := bind_eq_ok.1 hcurrent
  obtain rfl := pure_eq_ok.1 hcurrent
  obtain ⟨managed, prepared, hmanaged, hprepared, rfl⟩ := readEntitlementFacts_ok hfacts
  obtain ⟨source, hsource, hmanaged⟩ := bind_eq_ok.1 hmanaged
  obtain ⟨addons, haddons, hmanaged⟩ := bind_eq_ok.1 hmanaged
  obtain rfl := pure_eq_ok.1 hmanaged
  have hversion := planEntitlements_ok hplan
  unfold planSource at hsource
  rw [show (selected.report (if selected.status = .trial then .trial else .active)).planVersionId =
    selected.planVersionId from rfl, hversion] at hsource
  obtain ⟨rfl, -⟩ := parseSource_ok hsource
  refine ⟨plan, contributors, _, addons, prepared, hcontributors, hquotas, rfl, rfl, rfl, rfl, ?_,
    haddons, fun other hother => ?_⟩
  · rw [isEffectiveAt, Bool.and_eq_true] at heffective
    exact heffective.2
  · obtain ⟨row, -, hrow⟩ := forall₂_mem (mapM_eq_ok.1 hprepared).flip hother
    exact ⟨row.kind, safeSource_kind hrow⟩

theorem featureValue_plan {rest : List EntitlementSource}
    {quotas : QuotaKey → Option ℤ} {features : EntitlementFeatureKey → Option Bool}
    (hkind : source.kind = .plan quotas features) (heffects : source.effects = [])
    (hrest : ∀ other ∈ rest, other.kind.isPlan = false) (key : EntitlementFeatureKey) :
    featureValue (source :: rest) key =
      if sourcesEnable (source :: rest) key then some true else features key := by
  have hgrants : rest.any (·.grants key) = sourcesEnable rest key := by
    rw [Bool.eq_iff_iff, sourcesEnable, List.any_eq_true, List.any_eq_true]
    refine exists_congr fun other => and_congr_right fun hother => ?_
    have hnot := hrest other hother
    unfold EntitlementSource.grants
    split
    · next hk =>
      rw [hk] at hnot
      exact nomatch hnot
    · rfl
  have hopen : rest.any (·.leavesOpen key) = false := by
    apply List.any_eq_false.2
    intro other hother
    have hnot := hrest other hother
    unfold EntitlementSource.leavesOpen
    split
    · next hk =>
      rw [hk] at hnot
      exact nomatch hnot
    · exact Bool.false_ne_true
  have henable : sourcesEnable (source :: rest) key = sourcesEnable rest key := by
    rw [sourcesEnable, List.any_cons, heffects, decide_eq_false List.not_mem_nil, Bool.false_or]
    rfl
  have hplanGrants : source.grants key = decide (features key = some true) := by
    rw [EntitlementSource.grants, hkind]
  have hplanOpen : source.leavesOpen key = decide (features key = none) := by
    rw [EntitlementSource.leavesOpen, hkind]
  rw [featureValue, List.any_cons, List.any_cons, hgrants, hopen, henable, hplanGrants, hplanOpen,
    Bool.or_false]
  cases sourcesEnable rest key <;> rcases features key with _ | _ | _ <;> rfl

/-- **The candidate of managed rights**: the rights in force, and what the active prepared sources
add to them. -/
theorem projectCandidate_managed {t : Instant} {facts : EntitlementFacts} {candidate : Candidate}
    (hcurrent : resolveTimeline tl t = .ok current) (hmanaged : current.access = .managed)
    (hfacts : readEntitlementFacts tl current = .ok facts)
    (hcandidate : projectCandidate current facts.sources t = .ok candidate) :
    (∀ key, candidate.limits key = (current.quotas key).map
        (· + sourcesIncrement (activePrepared facts.sources t) key)) ∧
      (∀ key, candidate.features (.current key) = some (current.features key ||
        sourcesEnable (activePrepared facts.sources t) (.current key))) ∧
      ∀ key, featureValue (facts.sources.filter (sourceActiveAt · t)) key =
        candidate.features key := by
  obtain ⟨selected, heffective, hrights⟩ := resolveTimeline_managed hcurrent hmanaged
  obtain ⟨plan, contributors, source, addons, prepared, hcontributors, hquotas, hfeatures, hsources,
    hkind, heffects, hactive, haddons, hprepared⟩ := managedFacts_ok heffective hrights hfacts
  have haddonKind : ∀ other ∈ addons, other.kind = .addon := by
    intro other hother
    obtain ⟨addon, -, haddon⟩ := forall₂_mem (mapM_eq_ok.1 haddons).flip hother
    exact (addonSource_ok haddon).1
  obtain ⟨hsum, hany⟩ := contributorsFor_agree
    (s := selected.report (if selected.status = .trial then .trial else .active))
    hcontributors haddons
  have hactives : facts.sources.filter (sourceActiveAt · t) =
      source :: (addons.filter (sourceActiveAt · t) ++ prepared.filter (sourceActiveAt · t)) := by
    rw [hsources, List.filter_cons_of_pos (p := (sourceActiveAt · t)) hactive, List.filter_append]
  have hactivePrepared : activePrepared facts.sources t =
      prepared.filter (sourceActiveAt · t) := by
    have hplan : (source.kind.isPrepared && sourceActiveAt source t) = false := by
      rw [hkind]
      rfl
    have haddonsNot : ∀ other ∈ addons, other.kind.isPrepared = false := by
      intro other hother
      rw [haddonKind other hother]
      rfl
    have hpreparedAll : ∀ other ∈ prepared, other.kind.isPrepared = true := by
      intro other hother
      obtain ⟨kind, hk⟩ := hprepared other hother
      rw [hk]
      rfl
    rw [hsources, activePrepared, List.filter_cons_of_neg (by rw [hplan]; exact Bool.false_ne_true),
      List.filter_append]
    exact (congrArg₂ (· ++ ·) (activePrepared_of_addons haddonsNot t)
      (activePrepared_of_prepared hpreparedAll t)).trans (List.nil_append _)
  have hnone : sourcesEnable [source] = fun _ => false := by
    funext key
    rw [sourcesEnable, List.any_cons, List.any_nil, heffects, Bool.or_false]
    exact decide_eq_false List.not_mem_nil
  -- without the plan, whose effects are empty, the active sources are two lists
  have hincrements : ∀ key, sourcesIncrement (facts.sources.filter (sourceActiveAt · t)) key =
      (contributors.map (·.increment key)).sum +
        sourcesIncrement (activePrepared facts.sources t) key := by
    intro key
    rw [hactives, hactivePrepared, hsum, ← sourcesIncrement_append, sourcesIncrement,
      List.map_cons, List.sum_cons, heffects]
    exact zero_add _
  have henables : ∀ key, sourcesEnable (facts.sources.filter (sourceActiveAt · t)) key =
      (sourcesEnable (addons.filter (sourceActiveAt · t)) key ||
        sourcesEnable (activePrepared facts.sources t) key) := by
    intro key
    rw [hactives, hactivePrepared, ← List.singleton_append, sourcesEnable_append,
      sourcesEnable_append, hnone, Bool.false_or]
  have hplans : ∀ other ∈ facts.sources.filter (sourceActiveAt · t),
      other.kind.isPlan = true → other.effects = [] := by
    intro other hother hisPlan
    rw [hactives, List.mem_cons, List.mem_append] at hother
    rcases hother with rfl | hother | hother
    · exact heffects
    · rw [haddonKind other (List.mem_of_mem_filter hother)] at hisPlan
      exact nomatch hisPlan
    · obtain ⟨kind, hk⟩ := hprepared other (List.mem_of_mem_filter hother)
      rw [hk] at hisPlan
      exact nomatch hisPlan
  have hbase : baseCandidate current (facts.sources.filter (sourceActiveAt · t)) =
      ⟨plan.quotas, planFeatures plan⟩ := by
    rw [hactives, baseCandidate, List.find?_cons_of_pos (by rw [hkind]; rfl), Option.map_some, hkind]
  rw [projectCandidate, activeSources, if_pos hmanaged, hbase] at hcandidate
  obtain ⟨hlimits, hcandidateFeatures⟩ := applySources_ok hplans hcandidate
  refine ⟨fun key => ?_, fun key => ?_, fun key => ?_⟩
  · rw [hlimits, hincrements, addQuotas_ok hquotas, map_add_map]
  · rw [hcandidateFeatures, henables, hfeatures, addFeatures, hany]
    cases sourcesEnable (addons.filter (sourceActiveAt · t)) (.current key) <;>
      cases sourcesEnable (activePrepared facts.sources t) (.current key) <;>
      simp [planFeatures]
  · rw [hcandidateFeatures, hactives]
    refine featureValue_plan hkind heffects (fun other hother => ?_) key
    rcases List.mem_append.1 hother with hother | hother
    · rw [haddonKind other (List.mem_of_mem_filter hother)]
      rfl
    · obtain ⟨kind, hk⟩ := hprepared other (List.mem_of_mem_filter hother)
      rw [hk]
      rfl

/-! ## Operations -/

theorem evaluate_managed {s : EntitlementSnapshotV1} {op : EntitlementOperationId}
    {value : EntitlementFeatureKey → Option Bool}
    (hclass : op.operationClass ≠ .continuation ∧ op.operationClass ≠ .storedRead)
    (hwrite : s.writeAllowed = true) (hmanaged : s.access = .managed)
    (hvalue : ∀ key, featureValue (operationSources s op) key = value key) :
    ((evaluateEntitlementOperation s op).outcome = .allow ↔
        ∀ key ∈ op.features, value key = some true) ∧
      ((evaluateEntitlementOperation s op).outcome = .deny ↔
        ∃ key ∈ op.features, value key = some false) ∧
      ((evaluateEntitlementOperation s op).outcome = .unknown ↔
        (¬∃ key ∈ op.features, value key = some false) ∧
          ∃ key ∈ op.features, value key = none) := by
  have hvalues : featureValue (operationSources s op) = value := funext hvalue
  have hmem : ∀ v, v ∈ op.features.map value ↔ ∃ key ∈ op.features, value key = v :=
    fun v => List.mem_map
  rw [evaluateEntitlementOperation, if_neg (not_or.2 hclass), if_neg (not_not.2 hwrite),
    if_neg (not_not.2 hmanaged), hvalues]
  by_cases hfalse : some false ∈ op.features.map value
  · have hex := (hmem _).1 hfalse
    have hall : ¬∀ key ∈ op.features, value key = some true := by
      obtain ⟨key, hkey, hv⟩ := hex
      intro hall
      rw [hall key hkey] at hv
      exact nomatch hv
    simp only [if_pos hfalse]
    exact ⟨⟨nofun, fun h => absurd h hall⟩, ⟨fun _ => hex, fun _ => trivial⟩,
      ⟨nofun, fun h => absurd hex h.1⟩⟩
  · have hnex : ¬∃ key ∈ op.features, value key = some false := fun h => hfalse ((hmem _).2 h)
    by_cases hnone : none ∈ op.features.map value
    · have hex := (hmem _).1 hnone
      have hall : ¬∀ key ∈ op.features, value key = some true := by
        obtain ⟨key, hkey, hv⟩ := hex
        intro hall
        rw [hall key hkey] at hv
        exact nomatch hv
      simp only [if_neg hfalse, if_pos hnone]
      exact ⟨⟨nofun, fun h => absurd h hall⟩, ⟨nofun, fun h => absurd h hnex⟩,
        ⟨fun _ => ⟨hnex, hex⟩, fun _ => trivial⟩⟩
    · have hnone' : ¬∃ key ∈ op.features, value key = none := fun h => hnone ((hmem _).2 h)
      have hall : ∀ key ∈ op.features, value key = some true := by
        intro key hkey
        rcases hv : value key with _ | _ | _
        · exact absurd ⟨key, hkey, hv⟩ hnone'
        · exact absurd ⟨key, hkey, hv⟩ hnex
        · rfl
      simp only [if_neg hfalse, if_neg hnone]
      exact ⟨⟨fun _ => hall, fun _ => trivial⟩, ⟨nofun, fun h => absurd h hnex⟩,
        ⟨nofun, fun h => absurd h.2 hnone'⟩⟩

/-- **Enforced and projected rights agree**: the candidate of a managed snapshot is what `resolve`
enforces and what the active prepared sources add, and where no active source is scoped to
operations it decides them. -/
theorem projection_agrees (tl : EntitlementTimeline) (baseUsage : QuotaKey → ℕ)
    (mode : EnforcementMode) (t : Instant) (s : EntitlementSnapshotV1)
    (h : resolveSnapshot tl baseUsage mode t = .ok s) (hmanaged : s.access = .managed) :
    ∃ enforced, resolveTimeline tl t = .ok enforced ∧
      (∀ key, (s.candidateQuotas key).limit =
        (enforced.quotas key).map (· + sourcesIncrement (activePrepared s.sources t) key)) ∧
      (∀ key, s.candidateFeatures (.current key) = some (enforced.features key ||
        sourcesEnable (activePrepared s.sources t) (.current key))) ∧
      ∀ op : EntitlementOperationId,
        op.operationClass ≠ .continuation ∧ op.operationClass ≠ .storedRead →
        (∀ source ∈ s.sources, sourceActiveAt source t = true → source.operationIds = []) →
        ((evaluateEntitlementOperation s op).outcome = .allow ↔
            ∀ key ∈ op.features, s.candidateFeatures key = some true) ∧
          ((evaluateEntitlementOperation s op).outcome = .deny ↔
            ∃ key ∈ op.features, s.candidateFeatures key = some false) ∧
          ((evaluateEntitlementOperation s op).outcome = .unknown ↔
            (¬∃ key ∈ op.features, s.candidateFeatures key = some false) ∧
              ∃ key ∈ op.features, s.candidateFeatures key = none) := by
  obtain ⟨current, facts, hcurrent, hfacts, hproject⟩ := resolveSnapshot_ok h
  obtain ⟨candidate, hcandidate, hparse⟩ := bind_eq_ok.1 hproject
  obtain ⟨rfl, -, -⟩ := parseSnapshot_ok hparse
  have haccess : current.access = .managed := hmanaged
  obtain ⟨hlimits, hfeatures, hvalues⟩ :=
    projectCandidate_managed hcurrent haccess hfacts hcandidate
  refine ⟨current, hcurrent, hlimits, hfeatures, fun op hclass hscoped => ?_⟩
  refine evaluate_managed hclass ?_ hmanaged fun key => ?_
  · change writeAllowed current.access mode = true
    rw [haccess]
    rfl
  · have hsources : (facts.sources.filter (sourceActiveAt · t)).filter (fun source =>
        source.operationIds = [] || op ∈ source.operationIds) =
        facts.sources.filter (sourceActiveAt · t) := by
      refine List.filter_eq_self.2 fun source hsource => ?_
      obtain ⟨hmem, hactive⟩ := List.mem_filter.1 hsource
      rw [hscoped source hmem hactive]
      rfl
    exact (congrArg (featureValue · key) hsources).trans (hvalues key)

/-! ## A sample -/

namespace Sample

def linesCatalog : Catalog :=
  { emptyCatalog with versions := fun id => some {
      kind := if id = 1 then .plan else .addon
      status := .published, recurring := true, hasServiceTerms := false
      hasLifecyclePolicy := false, offlineAvailable := false
      plan := if id = 1 then some ⟨fun _ => some 3, fun _ => true, fun _ => none, none⟩ else none
      effects := if id = 1 then [] else [⟨.quota .lines, some 1, true⟩] } }

/-- A tenant with that plan, twice the add-on and a prepared source of four lines. -/
def subscribed : EntitlementTimeline :=
  { invited with
    catalog := linesCatalog
    subscriptions := [{
      startsAt := some 0, endsAt := some 20, id := 7, planVersionId := 1, status := .active
      commercialPeriod := none, source := .manual, sourceOfferLineId := none
      sourceInvoiceLineId := none, createdAt := 0, updatedAt := 0 }]
    additions := [{
      startsAt := none, endsAt := none, id := 8, subscriptionId := 7, addonVersionId := 2
      quantity := 2, status := .active, commercialPeriod := none, source := .manual
      sourceOfferLineId := none, sourceInvoiceLineId := none }]
    rows := [⟨9, 3, 7, .temporary, [.quota .lines 4], [.nativeShiftStart], 0, some 10, none⟩] }

end Sample

/-- Five lines are enforced at `5`, and four more are prepared. -/
theorem subscribed_agrees : ∃ s enforced,
    resolveSnapshot Sample.subscribed (fun _ => 0) .all 5 = .ok s ∧
      resolveTimeline Sample.subscribed 5 = .ok enforced ∧
      enforced.quotas .lines = some 5 ∧ (s.candidateQuotas .lines).limit = some 9 := by
  have h : ∃ s, resolveSnapshot Sample.subscribed (fun _ => 0) .all 5 = .ok s ∧
      s.access = .managed ∧ sourcesIncrement (activePrepared s.sources 5) .lines = 4 :=
    ⟨_, rfl, rfl, rfl⟩
  obtain ⟨s, hs, hmanaged, hprepared⟩ := h
  obtain ⟨enforced, henforced, hlimits, -⟩ :=
    projection_agrees Sample.subscribed (fun _ => 0) .all 5 s hs hmanaged
  have hlines : enforced.quotas .lines = some 5 := by
    have heq : resolveTimeline Sample.subscribed 5 = .ok enforced := henforced
    obtain rfl := Except.ok.inj heq
    rfl
  refine ⟨s, enforced, hs, henforced, hlines, ?_⟩
  rw [hlimits, hlines, hprepared]
  rfl

end Markiro.Subscriptions
