import Markiro.Lib.Calendar

/-!
# Instants as texts and as dates

The texts `z.iso.datetime({ offset: true })` accepts, the instant `Date.parse` reads from one, the
instants a `timestamptz` column can hold, and the text `toISOString` writes of such an instant.

1. the calendar is read back from the number of a day (`civil_dayNumber`, `civil_spec`);
2. `toISOString` writes a text that is read as the instant it was written of (`toISOString_ms`);
3. a text is written back exactly when it is already written that way (`toISOString_eq_iff`).
-/

namespace Markiro

open Calendar

/-! ## The date of a day -/

instance neZeroTen : NeZero 10 := ⟨by decide⟩

instance neZeroSixty : NeZero 60 := ⟨by decide⟩

def yearLength (y : ℕ) : ℕ := if isLeap y then 366 else 365

theorem daysBeforeYear_succ (y : ℕ) : daysBeforeYear
    (y + 1) = daysBeforeYear y + yearLength y := rfl

/-- The year of a day counted from the start of `year`, and its number within that year. -/
def yearOf : ℕ → ℕ → ℕ → ℕ × ℕ
  | 0, year, day => (year, day)
  | fuel + 1, year, day =>
    if day ≤ yearLength year then (year, day) else yearOf fuel (year + 1) (day - yearLength year)

/-- The month of a day counted from the start of `month`, and its number within that month. -/
def monthOf (year : ℕ) : ℕ → ℕ → ℕ → ℕ × ℕ
  | 0, month, day => (month, day)
  | fuel + 1, month, day =>
    if day ≤ daysInMonth year month then (month, day)
    else monthOf year fuel (month + 1) (day - daysInMonth year month)

/-- The date of a day up to the year 9999. -/
def civil (n : ℕ) : ℕ × ℕ × ℕ :=
  ((yearOf 10000 0 n).1, monthOf (yearOf 10000 0 n).1 12 1 (yearOf 10000 0 n).2)

theorem yearOf_spec {fuel year day : ℕ} (h : 1 ≤ day)
    (hf : daysBeforeYear year + day ≤ daysBeforeYear (year + fuel)) :
    daysBeforeYear (yearOf fuel year day).1 + (yearOf fuel year day).2 =
        daysBeforeYear year + day ∧
      1 ≤ (yearOf fuel year day).2 ∧
      (yearOf fuel year day).2 ≤ yearLength (yearOf fuel year day).1 ∧
      (yearOf fuel year day).1 < year + fuel := by
  induction fuel generalizing year day with
  | zero =>
    rw [Nat.add_zero] at hf
    omega
  | succ fuel ih =>
    unfold yearOf
    split_ifs with hd
    · exact ⟨rfl, h, hd, by omega⟩
    · rw [show year + (fuel + 1) = year + 1 + fuel by omega] at hf ⊢
      have hs := daysBeforeYear_succ year
      obtain ⟨h1, h2, h3, h4⟩ := @ih (year + 1) (day - yearLength year) (by omega)
        (by omega)
      exact ⟨by omega, h2, h3, h4⟩

theorem monthOf_spec {y fuel month day : ℕ} (hm : 0 < month) (h : 1 ≤ day)
    (hf : daysBeforeMonth y month + day ≤ daysBeforeMonth y (month + fuel)) :
    daysBeforeMonth y (monthOf y fuel month day).1 + (monthOf y fuel month day).2 =
        daysBeforeMonth y month + day ∧
      1 ≤ (monthOf y fuel month day).2 ∧
      (monthOf y fuel month day).2 ≤ daysInMonth y (monthOf y fuel month day).1 ∧
      month ≤ (monthOf y fuel month day).1 ∧ (monthOf y fuel month day).1 < month + fuel := by
  induction fuel generalizing month day with
  | zero =>
    rw [Nat.add_zero] at hf
    omega
  | succ fuel ih =>
    unfold monthOf
    split_ifs with hd
    · exact ⟨rfl, h, hd, le_rfl, by omega⟩
    · rw [show month + (fuel + 1) = month + 1 + fuel by omega] at hf ⊢
      have hs := daysBeforeMonth_succ y hm
      obtain ⟨h1, h2, h3, h4, h5⟩ := @ih (month + 1) (day - daysInMonth y month)
        (by omega) (by omega) (by omega)
      exact ⟨by omega, h2, h3, by omega, h5⟩

theorem date_spec {fuel n y d : ℕ} (h : 1 ≤ n) (hn : n ≤ daysBeforeYear fuel)
    (hy : yearOf fuel 0 n = (y, d)) : y < fuel ∧
      (1 ≤ (monthOf y 12 1 d).1 ∧ (monthOf y 12 1 d).1 ≤ 12) ∧
      (1 ≤ (monthOf y 12 1 d).2 ∧ (monthOf y 12 1 d).2 ≤ daysInMonth y (monthOf y 12 1 d).1) ∧
      dayNumber y (monthOf y 12 1 d).1 (monthOf y 12 1 d).2 = n := by
  have h0 : daysBeforeYear 0 = 0 := rfl
  obtain ⟨h1, h2, h3, h4⟩ := @yearOf_spec fuel 0 n h (by rw [h0, Nat.zero_add, Nat.zero_add]; exact hn)
  rw [hy] at h1 h2 h3 h4
  dsimp only at h1 h2 h3 h4
  have h5 : daysBeforeMonth y 1 = 0 := rfl
  have h6 := daysBeforeMonth_year y
  have h7 : yearLength y = if isLeap y then 366 else 365 := rfl
  obtain ⟨m1, m2, m3, m4, m5⟩ := @monthOf_spec y 12 1 d one_pos h2
    (by rw [show 1 + 12 = 13 from rfl, h5, h6]; omega)
  refine ⟨by omega, ⟨m4, by omega⟩, ⟨m2, m3⟩, ?_⟩
  unfold dayNumber
  omega

/-- What the date of a day is. -/
structure IsCivil (n : ℕ) (c : ℕ × ℕ × ℕ) : Prop where
  year : c.1 ≤ 9999
  month : 1 ≤ c.2.1 ∧ c.2.1 ≤ 12
  day : 1 ≤ c.2.2 ∧ c.2.2 ≤ daysInMonth c.1 c.2.1
  number : dayNumber c.1 c.2.1 c.2.2 = n

theorem civil_spec {n : ℕ} (h : 1 ≤ n) (hn : n ≤ daysBeforeYear 10000) : IsCivil n (civil n) :=
  have ⟨hy, hm, hd, hnumber⟩ := date_spec h hn rfl
  ⟨Nat.le_of_lt_succ hy, hm, hd, hnumber⟩

theorem IsCivil.eq {n : ℕ} {c c' : ℕ × ℕ × ℕ} (h : IsCivil n c) (h' : IsCivil n c') : c = c' := by
  obtain ⟨e1, e2, e3⟩ := dayNumber_injective h.month h.day h'.month h'.day
    (h.number.trans h'.number.symm)
  exact Prod.ext e1 (Prod.ext e2 e3)

theorem civil_dayNumber {y m d : ℕ} (hy : y ≤ 9999) (hm : 1 ≤ m ∧ m ≤ 12)
    (hd : 1 ≤ d ∧ d ≤ daysInMonth y m) : civil (dayNumber y m d) = (y, m, d) := by
  have h1 := daysBeforeMonth_le y (show 0 < m by omega) (show m < 13 by omega)
  have h2 := daysBeforeYear_mono (show y + 1 ≤ 10000 by omega)
  have h3 := daysBeforeYear_succ y
  rw [daysBeforeMonth_year, ← yearLength] at h1
  refine (civil_spec ?_ ?_).eq ⟨hy, hm, hd, rfl⟩
  · unfold dayNumber
    omega
  · unfold dayNumber
    omega

/-! ## Texts -/

/-- What the parts of a text must be. -/
structure IsoDatetime.Valid (y m d h mi : ℕ) (s : Option (ℕ × List (Fin 10)))
    (o : Option (Bool × ℕ × ℕ)) : Prop where
  year : y ≤ 9999
  month : 1 ≤ m ∧ m ≤ 12
  day : 1 ≤ d ∧ d ≤ daysInMonth y m
  time : h < 24 ∧ mi < 60
  seconds : ∀ x ∈ s, x.1 < 60
  offset : ∀ x ∈ o, x.2.1 < 24 ∧ x.2.2 < 60

/-- A text the schema accepts, by its parts: the date and the hours and minutes, the seconds with
the digits of a fraction (none of either where the text stops before them), and `Z` or an offset,
east of UTC or west of it. -/
structure IsoDatetime where
  year : ℕ
  month : ℕ
  day : ℕ
  hour : ℕ
  minute : ℕ
  seconds : Option (ℕ × List (Fin 10))
  offset : Option (Bool × ℕ × ℕ)
  valid : IsoDatetime.Valid year month day hour minute seconds offset
  deriving DecidableEq

/-- The first three digits of a fraction; the ones after them count nothing. -/
def fractionMillis (digits : List (Fin 10)) : ℕ :=
  ((digits ++ [0, 0, 0]).take 3).foldl (fun n (d : Fin 10) => n * 10 + d.val) 0

/-- The milliseconds of the day, read as if at UTC. -/
def IsoDatetime.timeOfDay (t : IsoDatetime) : ℕ :=
  (t.hour * 60 + t.minute) * 60000 +
    t.seconds.elim 0 fun s => s.1 * 1000 + fractionMillis s.2

/-- The minutes the text's clock is ahead of UTC. -/
def IsoDatetime.ahead (t : IsoDatetime) : ℤ :=
  t.offset.elim 0 fun o => (if o.1 then 1 else -1) * (o.2.1 * 60 + o.2.2)

/-- `Date.parse`, in milliseconds counted from the day before year 0. -/
def IsoDatetime.ms (t : IsoDatetime) : ℤ :=
  dayNumber t.year t.month t.day * 86400000 + t.timeOfDay - t.ahead * 60000

/-! ## Stored instants -/

/-- What a `timestamptz` column takes from the text of a date: the years 1 to 9999. A date of
another year is written with a sign, or as year 0, and is refused. -/
def Storable (ms : ℤ) : Prop :=
  (daysBeforeYear 1 + 1) * 86400000 ≤ ms ∧ ms < (daysBeforeYear 10000 + 1) * 86400000

instance (ms : ℤ) : Decidable (Storable ms) := by
  unfold Storable
  infer_instance

/-- A date that a column holds. -/
structure Stamp where
  ms : ℤ
  storable : Storable ms
  deriving DecidableEq

instance : LE Stamp := ⟨fun a b => a.ms ≤ b.ms⟩

instance (a b : Stamp) : Decidable (a ≤ b) := inferInstanceAs (Decidable (a.ms ≤ b.ms))

/-- The date as a column takes it, none where it is refused. -/
def storeDate (ms : ℤ) : Option Stamp := if h : Storable ms then some ⟨ms, h⟩ else none

namespace Stamp

def day (s : Stamp) : ℕ := s.ms.toNat / 86400000

def timeOfDay (s : Stamp) : ℕ := s.ms.toNat % 86400000

theorem ms_eq (s : Stamp) : s.ms = s.day * 86400000 + s.timeOfDay := by
  have h := s.storable.1
  unfold day timeOfDay
  omega

theorem timeOfDay_lt (s : Stamp) : s.timeOfDay < 86400000 := Nat.mod_lt _ (by decide)

theorem day_bounds (s : Stamp) : daysBeforeYear 1 + 1 ≤ s.day ∧ s.day ≤ daysBeforeYear 10000 := by
  obtain ⟨h1, h2⟩ := s.storable
  have h3 := s.ms_eq
  have h4 := s.timeOfDay_lt
  constructor
  · omega
  · omega

theorem isCivil (s : Stamp) : IsCivil s.day (civil s.day) :=
  civil_spec (by have := s.day_bounds; omega) s.day_bounds.2

/-- The three digits of the milliseconds. -/
def fraction (s : Stamp) : List (Fin 10) :=
  [Fin.ofNat 10 (s.timeOfDay % 1000 / 100), Fin.ofNat 10 (s.timeOfDay % 1000 / 10 % 10),
    Fin.ofNat 10 (s.timeOfDay % 10)]

/-- `Date.prototype.toISOString`. -/
def toISOString (s : Stamp) : IsoDatetime where
  year := (civil s.day).1
  month := (civil s.day).2.1
  day := (civil s.day).2.2
  hour := s.timeOfDay / 3600000
  minute := s.timeOfDay / 60000 % 60
  seconds := some (s.timeOfDay / 1000 % 60, s.fraction)
  offset := none
  valid := {
    year := s.isCivil.year
    month := s.isCivil.month
    day := s.isCivil.day
    time := by
      have : s.timeOfDay < 86400000 := s.timeOfDay_lt
      omega
    seconds := by
      rintro x ⟨⟩
      show s.timeOfDay / 1000 % 60 < 60
      omega
    offset := by rintro x ⟨⟩ }

theorem fractionMillis_fraction (s : Stamp) : fractionMillis s.fraction = s.timeOfDay % 1000 := by
  simp only [fractionMillis, fraction, List.cons_append, List.nil_append, List.take_succ_cons,
    List.take_zero, List.foldl_cons, List.foldl_nil, Fin.val_ofNat]
  omega

/-- **The text of a date is read as the date.** -/
theorem toISOString_ms (s : Stamp) : s.toISOString.ms = s.ms := by
  have h1 : dayNumber s.toISOString.year s.toISOString.month s.toISOString.day = s.day :=
    s.isCivil.number
  have h2 : s.toISOString.timeOfDay = s.timeOfDay := by
    have h := s.fractionMillis_fraction
    show (s.timeOfDay / 3600000 * 60 + s.timeOfDay / 60000 % 60) * 60000 +
      (s.timeOfDay / 1000 % 60 * 1000 + fractionMillis s.fraction) = s.timeOfDay
    omega
  have h3 : s.toISOString.ahead = 0 := rfl
  rw [IsoDatetime.ms, h1, h2, h3, s.ms_eq]
  omega

end Stamp

/-- A text of the form `toISOString` writes: whole milliseconds and `Z`. -/
def IsoDatetime.Canonical (t : IsoDatetime) : Prop :=
  (∃ s a b c, t.seconds = some (s, [a, b, c])) ∧ t.offset = none

instance (t : IsoDatetime) : Decidable t.Canonical :=
  decidable_of_iff ((t.seconds.any fun s => s.2.length == 3) = true ∧ t.offset = none) <| by
    refine and_congr ?_ Iff.rfl
    cases h : t.seconds with
    | none => simp
    | some s =>
      simp only [Option.any_some, beq_iff_eq, List.length_eq_three, Option.some.injEq, Prod.ext_iff]
      constructor
      · rintro ⟨a, b, c, hs⟩
        exact ⟨s.1, a, b, c, rfl, hs⟩
      · rintro ⟨_, a, b, c, -, hs⟩
        exact ⟨a, b, c, hs⟩

theorem Stamp.toISOString_canonical (s : Stamp) : s.toISOString.Canonical :=
  ⟨⟨_, _, _, _, rfl⟩, rfl⟩

theorem IsoDatetime.ext' {t u : IsoDatetime} (h : t.year = u.year ∧ t.month = u.month ∧
    t.day = u.day ∧ t.hour = u.hour ∧ t.minute = u.minute ∧ t.seconds = u.seconds ∧
    t.offset = u.offset) : t = u := by
  cases t
  cases u
  simpa using h

/-- **A text is written back exactly when it is already of that form.** -/
theorem Stamp.toISOString_eq_iff {t : IsoDatetime} {s : Stamp} (h : s.ms = t.ms) :
    s.toISOString = t ↔ t.Canonical := by
  refine ⟨fun e => e ▸ s.toISOString_canonical, ?_⟩
  rintro ⟨⟨sec, a, b, c, hs⟩, ho⟩
  have hv := t.valid
  have hsec : sec < 60 := hv.seconds _ hs
  have hms : fractionMillis [a, b, c] = (a * 10 + b) * 10 + c := by
    simp [fractionMillis]
  have ht : t.timeOfDay = (t.hour * 60 + t.minute) * 60000 +
      (sec * 1000 + ((a * 10 + b) * 10 + c)) := by
    rw [IsoDatetime.timeOfDay, hs, Option.elim_some, hms]
  have ha : t.ahead = 0 := by rw [IsoDatetime.ahead, ho, Option.elim_none]
  have hm : t.ms = dayNumber t.year t.month t.day * 86400000 + t.timeOfDay := by
    rw [IsoDatetime.ms, ha]
    omega
  have ha10 := a.isLt
  have hb10 := b.isLt
  have hc10 := c.isLt
  have htime := hv.time
  have hlt := s.timeOfDay_lt
  have he := s.ms_eq
  have hday : s.day = dayNumber t.year t.month t.day := by omega
  have htod : s.timeOfDay = t.timeOfDay := by omega
  have hciv := civil_dayNumber hv.year hv.month hv.day
  rw [← hday] at hciv
  apply IsoDatetime.ext'
  refine ⟨congrArg Prod.fst hciv, congrArg (·.2.1) hciv, congrArg (·.2.2) hciv, ?_, ?_, ?_, ho.symm⟩
  · show s.timeOfDay / 3600000 = t.hour
    omega
  · show s.timeOfDay / 60000 % 60 = t.minute
    omega
  · show some (s.timeOfDay / 1000 % 60, s.fraction) = t.seconds
    rw [hs]
    have h1 : s.timeOfDay / 1000 % 60 = sec := by omega
    have h2 : s.fraction = [a, b, c] := by
      rw [Stamp.fraction]
      simp only [List.cons.injEq, and_true]
      refine ⟨Fin.ext ?_, Fin.ext ?_, Fin.ext ?_⟩
      · show s.timeOfDay % 1000 / 100 % 10 = a
        omega
      · show s.timeOfDay % 1000 / 10 % 10 % 10 = b
        omega
      · show s.timeOfDay % 10 % 10 = c
        omega
    rw [h1, h2]

end Markiro
