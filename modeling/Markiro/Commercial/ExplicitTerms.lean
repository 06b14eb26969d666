import Markiro.Commercial.MoscowTime

/-!
# Explicit terms

A term of civil dates is the stretch from the Moscow midnight of its first day to the one after its
last day (`resolve_eq`), and its dates are recovered from the stretch
(`explicit_terms_round_trip`).
-/

namespace Markiro.Commercial

open Calendar Text Results

abbrev CivilDate := { d : ℕ × ℕ × ℕ // IsDate d ∧ d.1 ≤ 9999 }

/-- `YYYY-MM-DD`. -/
def CivilDate.text (d : CivilDate) : Chars := dateText d.1.1 d.1.2.1 d.1.2.2

def CivilDate.number (d : CivilDate) : ℕ := dayNumber d.1.1 d.1.2.1 d.1.2.2

theorem CivilDate.isDay (d : CivilDate) : IsDay d.1.1 d.1.2.1 d.1.2.2 := ⟨d.2.1.2.1, d.2.1.2.2⟩

theorem CivilDate.columns (d : CivilDate) :
    d.1.1 < 10 ^ 4 ∧ d.1.2.1 < 10 ^ 2 ∧ d.1.2.2 < 10 ^ 2 := by
  have hyear := d.2.2
  have hmonth := d.isDay.1.2
  have hday := d.isDay.2.2
  have hlast := daysInMonth_le d.1.1 d.1.2.1
  omega

theorem CivilDate.number_pos (d : CivilDate) : 1 ≤ d.number :=
  d.isDay.2.1.trans (Nat.le_add_left _ _)

theorem CivilDate.civilDate_number (d : CivilDate) : civilDate d.number = d.1 :=
  civilDate_dayNumber d.isDay

/-! ## Texts of dates -/

theorem matchCivilDate_eq {value : Chars} {date : ℕ × ℕ × ℕ}
    (h : matchCivilDate value = some date) :
    date.1 < 10 ^ 4 ∧ value = dateText date.1 date.2.1 date.2.2 := by
  unfold matchCivilDate at h
  obtain ⟨⟨year, r1⟩, h1, h⟩ := Option.bind_eq_some_iff.1 h
  obtain ⟨r2, h2, h⟩ := Option.bind_eq_some_iff.1 h
  obtain ⟨⟨month, r3⟩, h3, h⟩ := Option.bind_eq_some_iff.1 h
  obtain ⟨r4, h4, h⟩ := Option.bind_eq_some_iff.1 h
  obtain ⟨⟨day, r5⟩, h5, h⟩ := Option.bind_eq_some_iff.1 h
  dsimp only at h h2 h4 h5
  by_cases hr : r5 = []
  · rw [if_pos hr] at h
    obtain ⟨hyear, e1⟩ := readColumn_eq_some (by decide) h1
    have e2 := readChar_eq_some h2
    obtain ⟨-, e3⟩ := readColumn_eq_some (by decide) h3
    have e4 := readChar_eq_some h4
    obtain ⟨-, e5⟩ := readColumn_eq_some (by decide) h5
    rw [← Option.some.inj h]
    refine ⟨hyear, ?_⟩
    rw [e1, e2, e3, e4, e5, hr, List.append_nil]
    rfl
  · rw [if_neg hr] at h
    cases h

theorem CivilDate.match_text (d : CivilDate) : matchCivilDate d.text = some d.1 := by
  obtain ⟨hyear, hmonth, hday⟩ := d.columns
  unfold matchCivilDate text dateText
  dsimp only [Option.bind_eq_bind]
  rw [bind_column (by decide) hyear]
  dsimp only
  rw [bind_char, bind_column (by decide) hmonth]
  dsimp only
  rw [bind_char, ← List.append_nil (pad 2 d.1.2.2), bind_column (by decide) hday]
  exact if_pos rfl

theorem CivilDate.parse_text (d : CivilDate) : parseCivilDate d.text = .ok d.1 := by
  unfold parseCivilDate
  rw [d.match_text]
  exact if_pos d.2.1

theorem parseCivilDate_eq {value : Chars} {date : ℕ × ℕ × ℕ}
    (h : parseCivilDate value = .ok date) : ∃ d : CivilDate, d.1 = date ∧ d.text = value := by
  unfold parseCivilDate at h
  cases hm : matchCivilDate value with
  | none =>
    simp only [hm] at h
    cases h
  | some found =>
    simp only [hm] at h
    by_cases hdate : IsDate found
    · rw [if_pos hdate] at h
      obtain ⟨hyear, htext⟩ := matchCivilDate_eq hm
      have hle : found.1 ≤ 9999 := by omega
      exact ⟨⟨found, hdate, hle⟩, Except.ok.inj h, htext.symm⟩
    · rw [if_neg hdate] at h
      cases h

/-- Texts of dates stand in the order of their days. -/
theorem CivilDate.text_lt (d d' : CivilDate) : d.text < d'.text ↔ d.number < d'.number := by
  obtain ⟨hyear, hmonth, hday⟩ := d.columns
  obtain ⟨hyear', hmonth', hday'⟩ := d'.columns
  have h := @dayNumber_lt _ _ _ d'.1.1 d'.1.2.1 d'.1.2.2 d.isDay.1 d.isDay.2 d'.isDay.2.1
  have h' := @dayNumber_lt _ _ _ d.1.1 d.1.2.1 d.1.2.2 d'.isDay.1 d'.isDay.2 d.isDay.2.1
  unfold text dateText
  rw [pad_append_lt (by decide) hyear hyear', cons_lt, pad_append_lt (by decide) hmonth hmonth',
    cons_lt, pad_lt (by decide) hday hday']
  refine ⟨h, fun hlt => ?_⟩
  by_contra hne
  have hback : ¬(d'.1.1 < d.1.1 ∨ d'.1.1 = d.1.1 ∧ (d'.1.2.1 < d.1.2.1 ∨
      d'.1.2.1 = d.1.2.1 ∧ d'.1.2.2 < d.1.2.2)) := fun hlt' => hlt.asymm (h' hlt')
  have e1 : d.1.1 = d'.1.1 := by omega
  have e2 : d.1.2.1 = d'.1.2.1 := by omega
  have e3 : d.1.2.2 = d'.1.2.2 := by omega
  unfold number at hlt
  rw [e1, e2, e3] at hlt
  exact lt_irrefl _ hlt

/-! ## Midnights -/

def midnight (n : ℕ) : ℤ := (n - epochDay) * dayMillis - moscowAhead

theorem midnight_add (n : ℕ) : midnight n + moscowAhead = (n - epochDay) * dayMillis :=
  sub_add_cancel _ _

theorem midnight_strictMono : StrictMono midnight := by
  intro m n h
  unfold midnight dayMillis
  omega

theorem utcParts_day (n : ℕ) {time : ℕ} (h : time < 86400000) :
    utcParts ((n - epochDay) * dayMillis + time) =
      ⟨(civilDate n).1, (civilDate n).2.1, (civilDate n).2.2, time / 3600000, time / 60000 % 60,
        time / 1000 % 60, time % 1000⟩ := by
  have hday : (((n - epochDay) * dayMillis + time) / dayMillis + epochDay).toNat = n := by
    unfold dayMillis
    omega
  have htime : (((n - epochDay) * dayMillis + time) % dayMillis).toNat = time := by
    unfold dayMillis
    omega
  unfold utcParts
  rw [hday, htime]

theorem utcParts_midnight (n : ℕ) :
    utcParts ((n - epochDay) * dayMillis) = atMidnight (civilDate n) := by
  have h := utcParts_day n (show 0 < 86400000 by decide)
  rw [Nat.cast_zero, add_zero] at h
  exact h

theorem atMidnight_valid {date : ℕ × ℕ × ℕ} (h : IsDay date.1 date.2.1 date.2.2) :
    (atMidnight date).Valid :=
  ⟨h, Nat.zero_le _, Nat.zero_le _, Nat.zero_le _, Nat.zero_le _⟩

theorem instantFromMoscowDateTime_midnight {n : ℕ} (h : 1 ≤ n) (hyear : 1 ≤ (civilDate n).1) :
    instantFromMoscowDateTime (atMidnight (civilDate n)) = .ok (midnight n) := by
  obtain ⟨hday, hnumber⟩ := civilDate_spec h
  have hmillis : utcMillis (atMidnight (civilDate n)) = (n - epochDay) * dayMillis := by
    have htime : timeMillis 0 0 0 0 = 0 := rfl
    unfold utcMillis atMidnight
    dsimp only
    rw [hnumber, htime, Nat.cast_zero, add_zero]
  rw [instantFromMoscowDateTime_eq (atMidnight_valid hday) hyear, hmillis]
  rfl

theorem civil_midnight (n : ℕ) :
    civil (midnight n) = (dateText (civilDate n).1 (civilDate n).2.1 (civilDate n).2.2, true) := by
  unfold civil
  rw [dateTimeParts_eq, midnight_add, utcParts_midnight]
  rfl

theorem civil_before_midnight (n : ℕ) : (civil (midnight (n + 1) - 1)).1 =
    dateText (civilDate n).1 (civilDate n).2.1 (civilDate n).2.2 := by
  have hlast : midnight (n + 1) - 1 + moscowAhead =
      (n - epochDay) * dayMillis + ((86399999 : ℕ) : ℤ) := by
    unfold midnight dayMillis
    omega
  unfold civil
  rw [dateTimeParts_eq, hlast, utcParts_day n (show 86399999 < 86400000 by decide)]

theorem eq_midnight {date : ℤ} (h : Dated (date + moscowAhead)) (hcivil : (civil date).2 = true) :
    ∃ n, 1 ≤ n ∧ date = midnight n := by
  unfold civil at hcivil
  rw [dateTimeParts_eq] at hcivil
  obtain ⟨hhour, hminute, hsecond, hmilli⟩ := of_decide_eq_true hcivil
  have e1 : ((date + moscowAhead) % dayMillis).toNat / 3600000 = 0 := hhour
  have e2 : ((date + moscowAhead) % dayMillis).toNat / 60000 % 60 = 0 := hminute
  have e3 : ((date + moscowAhead) % dayMillis).toNat / 1000 % 60 = 0 := hsecond
  have e4 : ((date + moscowAhead) % dayMillis).toNat % 1000 = 0 := hmilli
  have hzero : (date + moscowAhead) % dayMillis = 0 := by
    unfold dayMillis at *
    omega
  unfold Dated at h
  refine ⟨((date + moscowAhead) / dayMillis + epochDay).toNat, by omega, ?_⟩
  unfold midnight dayMillis at *
  omega

/-! ## The day after a term -/

theorem dayNumber_yearEnd (y : ℕ) : dayNumber y 12 31 = daysBeforeYear (y + 1) := by
  have h1 : daysBeforeMonth y 13 = daysBeforeMonth y 12 + 31 := rfl
  have h2 : daysBeforeYear (y + 1) = daysBeforeYear y + if isLeap y then 366 else 365 := rfl
  have h3 := daysBeforeMonth_year y
  unfold dayNumber
  omega

theorem dayNumber_yearStart (y : ℕ) : dayNumber y 1 1 = daysBeforeYear y + 1 := rfl

/-- The last day of the calendar's texts. -/
def lastDay : CivilDate := ⟨(9999, 12, 31), by decide⟩

theorem CivilDate.year_after (d : CivilDate) :
    (civilDate (d.number + 1)).1 ≤ 9999 ↔ d ≠ lastDay := by
  constructor
  · rintro hyear rfl
    have hnext : lastDay.number + 1 = dayNumber (9999 + 1) 1 1 := by
      rw [dayNumber_yearStart, ← dayNumber_yearEnd]
      rfl
    have hday : IsDay (9999 + 1) 1 1 := ⟨⟨le_rfl, by decide⟩, le_rfl, by decide⟩
    rw [hnext, civilDate_dayNumber hday] at hyear
    exact absurd hyear (by decide)
  · intro hne
    have hlt : d.number < lastDay.number := by
      refine dayNumber_lt d.isDay.1 d.isDay.2 lastDay.isDay.2.1 ?_
      have hyear := d.2.2
      have hmonth := d.isDay.1.2
      have hday := d.isDay.2.2
      have hmax := daysInMonth_le d.1.1 d.1.2.1
      have hparts : ¬(d.1.1 = 9999 ∧ d.1.2.1 = 12 ∧ d.1.2.2 = 31) := fun ⟨e1, e2, e3⟩ =>
        hne (Subtype.ext (Prod.ext e1 (Prod.ext e2 e3)))
      show d.1.1 < 9999 ∨ d.1.1 = 9999 ∧ (d.1.2.1 < 12 ∨ d.1.2.1 = 12 ∧ d.1.2.2 < 31)
      omega
    have hmono := civilDate_year_mono (show 1 ≤ d.number + 1 by omega) hlt
    rw [lastDay.civilDate_number] at hmono
    exact hmono

/-! ## Terms and their periods -/

def termPeriod (start fin : CivilDate) : CommercialPeriod where
  billingPeriod := .custom
  billingTimezone := Commercial.billingTimezone
  calendarPolicyVersion := Commercial.calendarPolicyVersion
  anchorAt := toISOString (midnight start.number)
  cycle := 0
  startsAt := toISOString (midnight start.number)
  endsAt := toISOString (midnight (fin.number + 1))

/-- What two dates are resolved to. -/
theorem resolve_text (start fin : CivilDate) :
    resolveExplicitCommercialPeriod start.text fin.text =
      if fin.number < start.number then .error "Commercial term must not end before it starts"
      else if fin = lastDay then .error "Commercial period exceeds the supported date range"
      else .ok (termPeriod start fin) := by
  have hafter : utcParts ((dayNumber fin.1.1 fin.1.2.1 (fin.1.2.2 + 1) - epochDay) * dayMillis) =
      atMidnight (civilDate (fin.number + 1)) := utcParts_midnight (fin.number + 1)
  have hstart : instantFromMoscowDateTime (atMidnight start.1) = .ok (midnight start.number) := by
    have h := instantFromMoscowDateTime_midnight start.number_pos
    rw [start.civilDate_number] at h
    exact h start.2.1.1
  have hyear : 1 ≤ (civilDate (fin.number + 1)).1 := by
    have h := civilDate_year_mono fin.number_pos (Nat.le_succ _)
    rw [fin.civilDate_number] at h
    exact fin.2.1.1.trans h
  have hend : instantFromMoscowDateTime (atMidnight ((atMidnight (civilDate (fin.number + 1))).year,
      (atMidnight (civilDate (fin.number + 1))).month,
      (atMidnight (civilDate (fin.number + 1))).day)) = .ok (midnight (fin.number + 1)) :=
    instantFromMoscowDateTime_midnight (show 1 ≤ fin.number + 1 by omega) hyear
  have hlate : (atMidnight (civilDate (fin.number + 1))).year > 9999 ↔ fin = lastDay := by
    show 9999 < (civilDate (fin.number + 1)).1 ↔ _
    rw [← not_le, fin.year_after, not_not]
  unfold resolveExplicitCommercialPeriod
  rw [start.parse_text, ok_bind, fin.parse_text, ok_bind]
  dsimp only
  rw [hafter]
  by_cases hlt : fin.number < start.number
  · rw [if_pos hlt, if_pos ((fin.text_lt start).2 hlt)]
  · rw [if_neg hlt, if_neg fun h => hlt ((fin.text_lt start).1 h)]
    by_cases hlast : fin = lastDay
    · rw [if_pos hlast, if_pos (hlate.2 hlast)]
    · rw [if_neg hlast, if_neg (mt hlate.1 hlast), hstart, ok_bind, hend]
      rfl

/-- What is resolved is the texts of two dates in order, the second not the last. -/
theorem resolve_eq_ok {termStart termEnd : Chars} {period : CommercialPeriod}
    (h : resolveExplicitCommercialPeriod termStart termEnd = .ok period) :
    ∃ start fin : CivilDate, start.text = termStart ∧ fin.text = termEnd ∧
      start.number ≤ fin.number ∧ fin ≠ lastDay ∧ period = termPeriod start fin := by
  obtain ⟨date, hdate, hrest⟩ := bind_eq_ok.1 h
  obtain ⟨date', hdate', -⟩ := bind_eq_ok.1 hrest
  obtain ⟨start, -, hstart⟩ := parseCivilDate_eq hdate
  obtain ⟨fin, -, hfin⟩ := parseCivilDate_eq hdate'
  rw [← hstart, ← hfin, resolve_text] at h
  by_cases hlt : fin.number < start.number
  · rw [if_pos hlt] at h
    cases h
  · by_cases hlast : fin = lastDay
    · rw [if_neg hlt, if_pos hlast] at h
      cases h
    · rw [if_neg hlt, if_neg hlast] at h
      exact ⟨start, fin, hstart, hfin, not_lt.1 hlt, hlast, (Except.ok.inj h).symm⟩

theorem parse_midnight {n : ℕ} (h : dayNumber 2 1 1 ≤ n) (hyear : (civilDate n).1 ≤ 9999) :
    parseIsoInstant (toISOString (midnight n)) = .ok (midnight n) := by
  have hdays : dayNumber 2 1 1 = 732 := rfl
  have hfirst : ((367 : ℕ) - epochDay) * dayMillis ≤ midnight n := by
    unfold midnight dayMillis moscowAhead
    omega
  have hone : (utcParts (((367 : ℕ) - epochDay) * dayMillis)).year = 1 := by
    rw [utcParts_midnight]
    rfl
  have hdated := Dated.of_year hone.ge
  have h1 := hone.ge.trans (utcParts_year_mono hdated hfirst)
  have hle : midnight n ≤ midnight n + moscowAhead := by
    unfold moscowAhead
    omega
  have h2 := utcParts_year_mono (Dated.of_year h1) hle
  rw [midnight_add, utcParts_midnight] at h2
  exact parse_toISOString h1 (h2.trans hyear)

theorem explicit_midnights {startsAt endsAt : Chars} {m n : ℕ}
    (hs : parseIsoInstant startsAt = .ok (midnight m))
    (he : parseIsoInstant endsAt = .ok (midnight (n + 1))) :
    explicitCommercialPeriodTerm startsAt endsAt =
      .ok (dateText (civilDate m).1 (civilDate m).2.1 (civilDate m).2.2,
        dateText (civilDate n).1 (civilDate n).2.1 (civilDate n).2.2) := by
  unfold explicitCommercialPeriodTerm
  rw [hs, ok_bind, he, ok_bind]
  dsimp only
  rw [civil_midnight, civil_midnight, if_neg (by simp), civil_before_midnight]

theorem midnights_of_explicit {startsAt endsAt : Chars} {si ei : ℤ} {term : Chars × Chars}
    (hs : parseIsoInstant startsAt = .ok si) (he : parseIsoInstant endsAt = .ok ei)
    (h : explicitCommercialPeriodTerm startsAt endsAt = .ok term) :
    ∃ m n, 1 ≤ m ∧ 1 ≤ n ∧ si = midnight m ∧ ei = midnight n := by
  have hdated : ∀ {value : Chars} {date : ℤ}, parseIsoInstant value = .ok date →
      Dated (date + moscowAhead) := fun {value date} hparse => by
    have hdate := Dated.of_year (parse_year hparse).1
    unfold Dated moscowAhead dayMillis at *
    omega
  unfold explicitCommercialPeriodTerm at h
  rw [hs, ok_bind, he, ok_bind] at h
  dsimp only at h
  by_cases hmidnights : (civil si).2 = false ∨ (civil ei).2 = false
  · rw [if_pos hmidnights] at h
    cases h
  · obtain ⟨hsi, hei⟩ := not_or.1 hmidnights
    obtain ⟨m, hm, hsm⟩ := eq_midnight (hdated hs) (Bool.eq_true_of_not_eq_false hsi)
    obtain ⟨n, hn, hen⟩ := eq_midnight (hdated he) (Bool.eq_true_of_not_eq_false hei)
    exact ⟨m, n, hm, hn, hsm, hen⟩

/-! ## The round trip -/

def CivilDate.InYears (d : CivilDate) : Prop := 2 ≤ d.1.1 ∧ d.1.1 ≤ 9998

def CivilDate.ofNumber (n : ℕ) (h : 1 ≤ n) (hyear : 1 ≤ (civilDate n).1 ∧ (civilDate n).1 ≤ 9999) :
    CivilDate :=
  ⟨civilDate n, ⟨hyear.1, (civilDate_spec h).1.1, (civilDate_spec h).1.2⟩, hyear.2⟩

theorem CivilDate.ofNumber_number {n : ℕ} {h : 1 ≤ n}
    {hyear : 1 ≤ (civilDate n).1 ∧ (civilDate n).1 ≤ 9999} : (ofNumber n h hyear).number = n :=
  (civilDate_spec h).2

theorem CivilDate.ne_lastDay {d : CivilDate} (h : d.1.1 ≤ 9998) : d ≠ lastDay := by
  rintro rfl
  exact absurd h (by decide)

theorem CivilDate.le_number {d : CivilDate} (h : 2 ≤ d.1.1) : dayNumber 2 1 1 ≤ d.number := by
  have hyear : daysBeforeYear 2 ≤ daysBeforeYear d.1.1 := daysBeforeYear_mono h
  have hday := d.isDay.2.1
  have hstart := dayNumber_yearStart 2
  unfold number
  rw [hstart]
  unfold dayNumber
  omega

theorem explicit_resolve {start fin : CivilDate} (hstart : start.InYears) (hfin : fin.InYears)
    (hle : start.number ≤ fin.number) : explicitCommercialPeriodTerm (termPeriod start fin).startsAt
      (termPeriod start fin).endsAt = .ok (start.text, fin.text) := by
  have hnext := (fin.year_after).2 (CivilDate.ne_lastDay hfin.2)
  have hfirst := CivilDate.le_number hstart.1
  have hs : parseIsoInstant (termPeriod start fin).startsAt = .ok (midnight start.number) := by
    refine parse_midnight hfirst ?_
    rw [start.civilDate_number]
    exact start.2.2
  have he : parseIsoInstant (termPeriod start fin).endsAt = .ok (midnight (fin.number + 1)) :=
    parse_midnight (by omega) hnext
  rw [explicit_midnights hs he, start.civilDate_number, fin.civilDate_number]
  rfl

theorem resolve_explicit {startsAt endsAt : Chars} {si ei : ℤ} {term : Chars × Chars}
    (hs : parseIsoInstant startsAt = .ok si) (he : parseIsoInstant endsAt = .ok ei) (hlt : si < ei)
    (h : explicitCommercialPeriodTerm startsAt endsAt = .ok term)
    (hyear : (dateTimeParts (ei - 1)).year ≤ 9998) :
    ∃ period, resolveExplicitCommercialPeriod term.1 term.2 = .ok period ∧
      parseIsoInstant period.startsAt = .ok si ∧ parseIsoInstant period.endsAt = .ok ei := by
  obtain ⟨m, k, hm, hk, hsi, hei⟩ := midnights_of_explicit hs he h
  have hmk : m < k := midnight_strictMono.lt_iff_lt.1 (by rw [← hsi, ← hei]; exact hlt)
  obtain ⟨n, rfl⟩ : ∃ n, k = n + 1 := ⟨k - 1, by omega⟩
  have hmn : m ≤ n := Nat.lt_succ_iff.1 hmk
  have hfirst : 1 ≤ (civilDate m).1 := by
    have hmoment := (moment_of_parse hs).2
    rw [hsi, dateTimeParts_eq, midnight_add, utcParts_midnight] at hmoment
    exact hmoment
  have hlast : (civilDate n).1 ≤ 9998 := by
    have hbefore : midnight (n + 1) - 1 + moscowAhead =
        (n - epochDay) * dayMillis + ((86399999 : ℕ) : ℤ) := by
      unfold midnight dayMillis
      omega
    rw [hei, dateTimeParts_eq, hbefore, utcParts_day n (by decide)] at hyear
    exact hyear
  have hmono := civilDate_year_mono hm hmn
  have hstart : 1 ≤ (civilDate m).1 ∧ (civilDate m).1 ≤ 9999 := by omega
  have hfin : 1 ≤ (civilDate n).1 ∧ (civilDate n).1 ≤ 9999 := by omega
  have hterm : term = ((CivilDate.ofNumber m hm hstart).text,
      (CivilDate.ofNumber n (hm.trans hmn) hfin).text) := by
    rw [hsi] at hs
    rw [hei] at he
    exact Except.ok.inj (h.symm.trans (explicit_midnights hs he))
  refine ⟨termPeriod (CivilDate.ofNumber m hm hstart) (CivilDate.ofNumber n (hm.trans hmn) hfin),
    ?_, ?_, ?_⟩
  · have hne := @CivilDate.ne_lastDay (CivilDate.ofNumber n (hm.trans hmn) hfin) hlast
    rw [hterm, resolve_text, CivilDate.ofNumber_number, CivilDate.ofNumber_number,
      if_neg (not_lt.2 hmn), if_neg hne]
  · have hsi' := parse_toISOString (parse_year hs).1 (parse_year hs).2
    rw [hsi] at hsi' ⊢
    show parseIsoInstant (toISOString (midnight (CivilDate.ofNumber m hm hstart).number)) = _
    rw [CivilDate.ofNumber_number, hsi']
  · have hei' := parse_toISOString (parse_year he).1 (parse_year he).2
    rw [hei] at hei' ⊢
    show parseIsoInstant (toISOString
      (midnight ((CivilDate.ofNumber n (hm.trans hmn) hfin).number + 1))) = _
    rw [CivilDate.ofNumber_number, hei']

/-- **Explicit terms round-trip**: the dates of a resolved term are the term, the instants of a
recovered term are the period's, and what is refused is what is not two dates in order, the second
before the last day of the year 9999. -/
theorem explicit_terms_round_trip :
    (∀ start fin : CivilDate, start.InYears → fin.InYears → start.number ≤ fin.number →
      ∃ period, resolveExplicitCommercialPeriod start.text fin.text = .ok period ∧
        explicitCommercialPeriodTerm period.startsAt period.endsAt = .ok (start.text, fin.text)) ∧
    (∀ (startsAt endsAt : Chars) (si ei : ℤ) (term : Chars × Chars),
      parseIsoInstant startsAt = .ok si → parseIsoInstant endsAt = .ok ei → si < ei →
      explicitCommercialPeriodTerm startsAt endsAt = .ok term →
      (dateTimeParts (ei - 1)).year ≤ 9998 →
        ∃ period, resolveExplicitCommercialPeriod term.1 term.2 = .ok period ∧
          parseIsoInstant period.startsAt = .ok si ∧ parseIsoInstant period.endsAt = .ok ei) ∧
    ∀ termStart termEnd : Chars,
      (∃ period, resolveExplicitCommercialPeriod termStart termEnd = .ok period) ↔
        ∃ start fin : CivilDate, start.text = termStart ∧ fin.text = termEnd ∧
          start.number ≤ fin.number ∧ fin ≠ lastDay := by
  refine ⟨fun start fin hstart hfin hle => ?_, fun startsAt endsAt si ei term hs he hlt h hyear => ?_,
    fun termStart termEnd => ?_⟩
  · refine ⟨termPeriod start fin, ?_, explicit_resolve hstart hfin hle⟩
    rw [resolve_text, if_neg (not_lt.2 hle), if_neg (CivilDate.ne_lastDay hfin.2)]
  · exact resolve_explicit hs he hlt h hyear
  · constructor
    · rintro ⟨period, h⟩
      obtain ⟨start, fin, hstart, hfin, hle, hne, -⟩ := resolve_eq_ok h
      exact ⟨start, fin, hstart, hfin, hle, hne⟩
    · rintro ⟨start, fin, rfl, rfl, hle, hne⟩
      refine ⟨termPeriod start fin, ?_⟩
      rw [resolve_text, if_neg (not_lt.2 hle), if_neg hne]

/-- The last day of the year 9999 is a date, and refused as a term's last day. -/
theorem last_day_refused :
    parseCivilDate "9999-12-31".toList = .ok (9999, 12, 31) ∧
      resolveExplicitCommercialPeriod "9999-12-31".toList "9999-12-31".toList =
        .error "Commercial period exceeds the supported date range" := by
  have htext : "9999-12-31".toList = lastDay.text := by decide
  refine ⟨by decide, ?_⟩
  rw [htext, resolve_text, if_neg (lt_irrefl _), if_pos rfl]

end Markiro.Commercial
