import Markiro.Commercial.MoscowTime

/-!
# Commercial cycles

The boundaries of an anchor's cycles, counted from the anchor itself: they grow
(`boundary_lt_succ`), the code computes them (`boundaryFromAnchor_eq`), and the cycles between them
tile the time from the anchor on (`cycles_tile_time`).
-/

namespace Markiro.Commercial

open Calendar Results

abbrev Anchor := { a : Chars × ℤ // parseIsoInstant a.1 = .ok a.2 }

abbrev Moment := { p : DateTimeParts // p.Valid ∧ 1 ≤ p.year }

/-! ## Months counted from the anchor -/

def monthAfter (anchor : DateTimeParts) (cycle : ℕ) : Billing → ℕ × ℕ
  | .month => ((anchor.year * 12 + anchor.month - 1 + cycle) / 12,
      (anchor.year * 12 + anchor.month - 1 + cycle) % 12 + 1)
  | .year => (anchor.year + cycle, anchor.month)

/-- The anchor's time of day, on its day or the last one of a shorter month, in the month `cycle`
periods after its own. -/
def target (anchor : DateTimeParts) (billing : Billing) (cycle : ℕ) : DateTimeParts :=
  anchor.inMonth (monthAfter anchor cycle billing).1 (monthAfter anchor cycle billing).2

def boundary (anchor : DateTimeParts) (billing : Billing) (cycle : ℕ) : ℤ :=
  utcMillis (target anchor billing cycle) - moscowAhead

theorem le_daysInMonth (y m : ℕ) : 28 ≤ daysInMonth y m := by
  unfold daysInMonth
  split <;> (try split) <;> omega

section Months

variable (p : Moment) (billing : Billing) (k : ℕ)

theorem monthAfter_month :
    1 ≤ (monthAfter p.1 k billing).2 ∧ (monthAfter p.1 k billing).2 ≤ 12 := by
  have hmonth := p.2.1.date.1
  cases billing with
  | month =>
    show 1 ≤ _ % 12 + 1 ∧ _ % 12 + 1 ≤ 12
    omega
  | year => exact hmonth

theorem monthAfter_year : 1 ≤ (monthAfter p.1 k billing).1 := by
  have hyear := p.2.2
  have hmonth := p.2.1.date.1
  cases billing with
  | month =>
    show 1 ≤ _ / 12
    omega
  | year =>
    show 1 ≤ p.1.year + k
    omega

theorem monthAfter_zero : monthAfter p.1 0 billing = (p.1.year, p.1.month) := by
  have hmonth := p.2.1.date.1
  cases billing with
  | month =>
    refine Prod.ext ?_ ?_
    · show (p.1.year * 12 + p.1.month - 1 + 0) / 12 = p.1.year
      omega
    · show (p.1.year * 12 + p.1.month - 1 + 0) % 12 + 1 = p.1.month
      omega
  | year => rfl

theorem monthAfter_succ : (monthAfter p.1 k billing).1 < (monthAfter p.1 (k + 1) billing).1 ∨
    (monthAfter p.1 k billing).1 = (monthAfter p.1 (k + 1) billing).1 ∧
      (monthAfter p.1 k billing).2 < (monthAfter p.1 (k + 1) billing).2 := by
  cases billing with
  | month =>
    show (p.1.year * 12 + p.1.month - 1 + k) / 12 < (p.1.year * 12 + p.1.month - 1 + (k + 1)) / 12 ∨
      (p.1.year * 12 + p.1.month - 1 + k) / 12 = (p.1.year * 12 + p.1.month - 1 + (k + 1)) / 12 ∧
        (p.1.year * 12 + p.1.month - 1 + k) % 12 + 1 <
          (p.1.year * 12 + p.1.month - 1 + (k + 1)) % 12 + 1
    omega
  | year =>
    show p.1.year + k < p.1.year + (k + 1) ∨ _
    omega

theorem target_valid : (target p.1 billing k).Valid := by
  have h := p.2.1
  have hday := le_daysInMonth (monthAfter p.1 k billing).1 (monthAfter p.1 k billing).2
  have hfirst := h.date.2.1
  refine ⟨⟨monthAfter_month p billing k, ?_, min_le_right _ _⟩, h.hour, h.minute, h.second,
    h.millisecond⟩
  show 1 ≤ min p.1.day _
  omega

theorem target_zero : target p.1 billing 0 = p.1 := by
  have hday := p.2.1.date.2.2
  unfold target DateTimeParts.inMonth
  rw [monthAfter_zero, min_eq_left hday]

theorem boundary_lt_succ : boundary p.1 billing k < boundary p.1 billing (k + 1) := by
  have h := (target_valid p billing k).date
  have h' := (target_valid p billing (k + 1)).date
  have hday : dayNumber (target p.1 billing k).year (target p.1 billing k).month
      (target p.1 billing k).day < dayNumber (target p.1 billing (k + 1)).year
        (target p.1 billing (k + 1)).month (target p.1 billing (k + 1)).day :=
    dayNumber_lt h.1 h.2 h'.2.1
      ((monthAfter_succ p billing k).imp_right fun ⟨hy, hm⟩ => ⟨hy, .inl hm⟩)
  have htime : timeMillis (target p.1 billing k).hour (target p.1 billing k).minute
      (target p.1 billing k).second (target p.1 billing k).millisecond =
      timeMillis (target p.1 billing (k + 1)).hour (target p.1 billing (k + 1)).minute
        (target p.1 billing (k + 1)).second (target p.1 billing (k + 1)).millisecond := rfl
  unfold boundary utcMillis dayMillis
  omega

theorem boundary_strictMono : StrictMono (boundary p.1 billing) :=
  strictMono_nat_of_lt_succ (boundary_lt_succ p billing)

theorem target_year_mono {j : ℕ} (h : j ≤ k) :
    (target p.1 billing j).year ≤ (target p.1 billing k).year := by
  induction h with
  | refl => exact le_rfl
  | @step m _ ih =>
    refine ih.trans ?_
    show (monthAfter p.1 m billing).1 ≤ (monthAfter p.1 (m + 1) billing).1
    rcases monthAfter_succ p billing m with hlt | ⟨heq, -⟩
    · exact hlt.le
    · exact heq.le

/-! ## The code's boundaries -/

theorem targetMonth_eq (hyear : (target p.1 billing k).year ≤ 9999) :
    targetMonth p.1 billing k =
      .ok (((monthAfter p.1 k billing).1 : ℤ), ((monthAfter p.1 k billing).2 : ℤ)) := by
  have hmonth := p.2.1.date.1
  cases billing with
  | month =>
    have hy : (p.1.year * 12 + p.1.month - 1 + k) / 12 ≤ 9999 := hyear
    have hsafe : IsSafe ((p.1.year : ℤ) * 12 + p.1.month - 1 + k) := by
      unfold IsSafe maxSafeInteger
      omega
    have hcast : (p.1.year : ℤ) * 12 + p.1.month - 1 + k =
        ((p.1.year * 12 + p.1.month - 1 + k : ℕ) : ℤ) := by omega
    unfold targetMonth
    dsimp only
    rw [if_neg (not_not.2 hsafe), hcast]
    rfl
  | year => rfl

/-- **The code's boundary is the anchor's target in Moscow**, up to the year 9999. -/
theorem boundaryFromAnchor_eq (hyear : (target p.1 billing k).year ≤ 9999) :
    boundaryFromAnchor p.1 billing k = .ok (boundary p.1 billing k) := by
  have hy : (monthAfter p.1 k billing).1 ≤ 9999 := hyear
  have h1 := monthAfter_year p billing k
  have hsafe : IsSafe ((monthAfter p.1 k billing).1 : ℤ) := by
    unfold IsSafe maxSafeInteger
    omega
  unfold boundaryFromAnchor
  rw [targetMonth_eq p billing k hyear, ok_bind]
  dsimp only
  rw [if_neg (by push Not; exact ⟨hsafe, by omega, by omega⟩), Int.toNat_natCast,
    Int.toNat_natCast]
  exact instantFromMoscowDateTime_eq (target_valid p billing k) h1

theorem boundaryFromAnchor_year {date : ℤ} (h : boundaryFromAnchor p.1 billing k = .ok date) :
    (target p.1 billing k).year ≤ 9999 := by
  have hmonth := p.2.1.date.1
  obtain ⟨⟨year, month⟩, hmonthOf, h⟩ := bind_eq_ok.1 h
  by_contra hlate
  have hyear : year = ((monthAfter p.1 k billing).1 : ℤ) := by
    cases billing with
    | month =>
      unfold targetMonth at hmonthOf
      dsimp only at hmonthOf
      split_ifs at hmonthOf
      have hval := (pair_eq_ok.1 hmonthOf).1
      show year = (((p.1.year * 12 + p.1.month - 1 + k) / 12 : ℕ) : ℤ)
      omega
    | year => exact (pair_eq_ok.1 hmonthOf).1.symm
  have hbig : ¬(monthAfter p.1 k billing).1 ≤ 9999 := hlate
  dsimp only at h
  rw [if_pos (.inr (.inr (by omega)))] at h
  cases h

end Months

/-! ## The years of the boundaries -/

/-- The fields of an anchor in Moscow. -/
def Anchor.moment (a : Anchor) : Moment := ⟨dateTimeParts a.1.2, moment_of_parse a.2⟩

theorem Anchor.boundary_zero (a : Anchor) (billing : Billing) :
    boundary a.moment.1 billing 0 = a.1.2 := by
  have hdated := Dated.of_year (a.moment.2.2.trans_eq (congrArg DateTimeParts.year
    (dateTimeParts_eq a.1.2)))
  unfold boundary
  rw [target_zero]
  show utcMillis (dateTimeParts a.1.2) - moscowAhead = a.1.2
  rw [utcMillis_dateTimeParts hdated]
  omega

theorem Anchor.le_boundary (a : Anchor) (billing : Billing) (k : ℕ) :
    a.1.2 ≤ boundary a.moment.1 billing k :=
  (a.boundary_zero billing).symm.le.trans
    ((boundary_strictMono a.moment billing).monotone (Nat.zero_le k))

theorem Anchor.parse_boundary (a : Anchor) (billing : Billing) {k : ℕ}
    (hyear : (target a.moment.1 billing k).year ≤ 9999) :
    parseIsoInstant (toISOString (boundary a.moment.1 billing k)) =
      .ok (boundary a.moment.1 billing k) := by
  have hfirst := (parse_year a.2).1
  have h1 := hfirst.trans (utcParts_year_mono (Dated.of_year hfirst) (a.le_boundary billing k))
  have hle : boundary a.moment.1 billing k ≤ boundary a.moment.1 billing k + moscowAhead := by
    unfold moscowAhead
    omega
  have h2 := utcParts_year_mono (Dated.of_year h1) hle
  unfold boundary at h2 ⊢
  rw [sub_add_cancel, utcParts_utcMillis (target_valid a.moment billing k)] at h2
  exact parse_toISOString h1 (h2.trans hyear)

/-! ## Resolved cycles -/

def IsCycle (a : Anchor) (billing : Billing) (n : ℕ) (startsAt endsAt : ℤ) : Prop :=
  ∃ period, resolveCommercialPeriod a.1.1 billing n = .ok period ∧
    parseIsoInstant period.startsAt = .ok startsAt ∧ parseIsoInstant period.endsAt = .ok endsAt

/-- What a cycle whose end is supported resolves to. -/
def periodOf (a : Anchor) (billing : Billing) (n : ℕ) : CommercialPeriod where
  billingPeriod := .cycles billing
  billingTimezone := Commercial.billingTimezone
  calendarPolicyVersion := Commercial.calendarPolicyVersion
  anchorAt := toISOString a.1.2
  cycle := n
  startsAt := toISOString (boundary a.moment.1 billing n)
  endsAt := toISOString (boundary a.moment.1 billing (n + 1))

section Resolved

variable (a : Anchor) (billing : Billing) (n : ℕ)

theorem cycle_le (hyear : (target a.moment.1 billing n).year ≤ 9999) : n ≤ 120000 := by
  cases billing with
  | month =>
    have hy : (a.moment.1.year * 12 + a.moment.1.month - 1 + n) / 12 ≤ 9999 := hyear
    omega
  | year =>
    have hy : a.moment.1.year + n ≤ 9999 := hyear
    omega

theorem start_eq (hyear : (target a.moment.1 billing n).year ≤ 9999) :
    (if (n : ℤ) = 0 then .ok a.1.2 else boundaryFromAnchor a.moment.1 billing n) =
      (.ok (boundary a.moment.1 billing n) : Except String ℤ) := by
  by_cases h : (n : ℤ) = 0
  · have hn : n = 0 := by omega
    subst hn
    rw [if_pos h, a.boundary_zero]
  · rw [if_neg h, boundaryFromAnchor_eq _ _ _ hyear]

theorem resolve_eq (hyear : (target a.moment.1 billing (n + 1)).year ≤ 9999) :
    resolveCommercialPeriod a.1.1 billing n = .ok (periodOf a billing n) := by
  have hcycle := cycle_le a billing (n + 1) hyear
  have hbefore := (target_year_mono a.moment billing (n + 1) (Nat.le_succ n)).trans hyear
  have hsafe : IsSafe (n : ℤ) ∧ ¬(n : ℤ) < 0 ∧ (n : ℤ) ≠ maxSafeInteger := by
    unfold IsSafe maxSafeInteger
    omega
  have hend := boundaryFromAnchor_eq a.moment billing (n + 1) hyear
  rw [Nat.cast_add, Nat.cast_one] at hend
  unfold resolveCommercialPeriod
  rw [if_neg (by push Not; exact ⟨hsafe.1, not_lt.1 hsafe.2.1, hsafe.2.2⟩), a.2, ok_bind]
  dsimp only
  show ((if (n : ℤ) = 0 then .ok a.1.2 else boundaryFromAnchor a.moment.1 billing n) >>= fun _ =>
    boundaryFromAnchor a.moment.1 billing (n + 1) >>= fun _ => _) = _
  rw [start_eq a billing n hbefore, ok_bind, hend]
  rfl

theorem year_of_resolve {period : CommercialPeriod}
    (h : resolveCommercialPeriod a.1.1 billing n = .ok period) :
    (target a.moment.1 billing (n + 1)).year ≤ 9999 := by
  unfold resolveCommercialPeriod at h
  by_cases hcycle : ¬IsSafe (n : ℤ) ∨ (n : ℤ) < 0 ∨ (n : ℤ) = maxSafeInteger
  · rw [if_pos hcycle] at h
    cases h
  · rw [if_neg hcycle, a.2, ok_bind] at h
    obtain ⟨startsAt, -, h⟩ := bind_eq_ok.1 h
    obtain ⟨endsAt, hend, -⟩ := bind_eq_ok.1 h
    rw [← Nat.cast_one, ← Nat.cast_add] at hend
    exact boundaryFromAnchor_year a.moment billing (n + 1) hend

theorem period_eq {period : CommercialPeriod}
    (h : resolveCommercialPeriod a.1.1 billing n = .ok period) : period = periodOf a billing n :=
  Except.ok.inj (h.symm.trans (resolve_eq a billing n (year_of_resolve a billing n h)))

theorem isCycle_iff {s e : ℤ} : IsCycle a billing n s e ↔
    (target a.moment.1 billing (n + 1)).year ≤ 9999 ∧ s = boundary a.moment.1 billing n ∧
      e = boundary a.moment.1 billing (n + 1) := by
  constructor
  · rintro ⟨period, hperiod, hs, he⟩
    have hyear := year_of_resolve a billing n hperiod
    have hbefore := (target_year_mono a.moment billing (n + 1) (Nat.le_succ n)).trans hyear
    rw [period_eq a billing n hperiod] at hs he
    exact ⟨hyear, Except.ok.inj (hs.symm.trans (a.parse_boundary billing hbefore)),
      Except.ok.inj (he.symm.trans (a.parse_boundary billing hyear))⟩
  · rintro ⟨hyear, hs, he⟩
    have hbefore := (target_year_mono a.moment billing (n + 1) (Nat.le_succ n)).trans hyear
    rw [hs, he]
    exact ⟨_, resolve_eq a billing n hyear, a.parse_boundary billing hbefore,
      a.parse_boundary billing hyear⟩

end Resolved

theorem existsUnique_stretch {f : ℕ → ℤ} (hf : StrictMono f) {N : ℕ} {t : ℤ} (h : f 0 ≤ t)
    (hlt : t < f N) : ∃! n, f n ≤ t ∧ t < f (n + 1) := by
  have hexists : ∃ n, n < N ∧ f n ≤ t ∧ t < f (n + 1) := by
    induction N with
    | zero => omega
    | succ N ih =>
      by_cases hN : t < f N
      · obtain ⟨n, hn, hstretch⟩ := ih hN
        exact ⟨n, hn.trans (Nat.lt_succ_self N), hstretch⟩
      · exact ⟨N, Nat.lt_succ_self N, not_lt.1 hN, hlt⟩
  obtain ⟨n, -, hn⟩ := hexists
  refine ⟨n, hn, fun m hm => ?_⟩
  have h1 : m < n + 1 := hf.lt_iff_lt.1 (hm.1.trans_lt hn.2)
  have h2 : n < m + 1 := hf.lt_iff_lt.1 (hn.1.trans_lt hm.2)
  omega

/-- **Cycles tile time**: the cycles that end by the year 9999 are resolved, each is a stretch of
time that the next one continues, the first starts at the anchor, their bounds have the anchor's
time of day and its day, cut to the month, counted from the anchor, and an instant from the anchor
to the end of a cycle lies in exactly one. -/
theorem cycles_tile_time (a : Anchor) (billing : Billing) :
    (∀ n, (target (dateTimeParts a.1.2) billing (n + 1)).year ≤ 9999 ↔
      ∃ s e, IsCycle a billing n s e) ∧
    (∀ n s e, IsCycle a billing n s e → s < e ∧ (n = 0 → s = a.1.2) ∧
      dateTimeParts s = target (dateTimeParts a.1.2) billing n ∧
      dateTimeParts e = target (dateTimeParts a.1.2) billing (n + 1)) ∧
    (∀ (n : ℕ) (period next : CommercialPeriod),
      resolveCommercialPeriod a.1.1 billing n = .ok period →
      resolveCommercialPeriod a.1.1 billing (n + 1 : ℕ) = .ok next →
        period.endsAt = next.startsAt) ∧
    ∀ N s e, IsCycle a billing N s e → ∀ t, a.1.2 ≤ t → t < e →
      ∃! n, ∃ s e, IsCycle a billing n s e ∧ s ≤ t ∧ t < e := by
  refine ⟨fun n => ?_, fun n s e h => ?_, fun n period next h h' => ?_, fun N s e h t ht hlt => ?_⟩
  · constructor
    · intro hyear
      exact ⟨_, _, (isCycle_iff a billing n).2 ⟨hyear, rfl, rfl⟩⟩
    · rintro ⟨s, e, h⟩
      exact ((isCycle_iff a billing n).1 h).1
  · obtain ⟨-, hs, he⟩ := (isCycle_iff a billing n).1 h
    rw [hs, he]
    refine ⟨boundary_lt_succ a.moment billing n, fun hn => ?_,
      dateTimeParts_utcMillis (target_valid a.moment billing n),
      dateTimeParts_utcMillis (target_valid a.moment billing (n + 1))⟩
    rw [hn]
    exact a.boundary_zero billing
  · rw [period_eq a billing n h, period_eq a billing (n + 1) h']
    rfl
  · obtain ⟨hyear, -, he⟩ := (isCycle_iff a billing N).1 h
    rw [he] at hlt
    have hmono := boundary_strictMono a.moment billing
    obtain ⟨n, hn, hunique⟩ := existsUnique_stretch hmono ((a.boundary_zero billing).le.trans ht) hlt
    have hnN : n < N + 1 := hmono.lt_iff_lt.1 (hn.1.trans_lt hlt)
    have hn9999 :=
      (target_year_mono a.moment billing (N + 1) (show n + 1 ≤ N + 1 by omega)).trans hyear
    refine ⟨n, ⟨_, _, (isCycle_iff a billing n).2 ⟨hn9999, rfl, rfl⟩, hn⟩, ?_⟩
    rintro m ⟨s, e, hm, hstretch⟩
    obtain ⟨-, hs, he'⟩ := (isCycle_iff a billing m).1 hm
    rw [hs, he'] at hstretch
    exact hunique m hstretch

end Markiro.Commercial
