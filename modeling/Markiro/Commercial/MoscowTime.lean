import Markiro.Domain.CommercialTerms
import Markiro.Lib.Results

/-!
# Moscow's civil time

A date and its Moscow fields tell each other: the fields of a date lead back to it
(`utcMillis_dateTimeParts`), a date that exists has an instant, and only one
(`instantFromMoscowDateTime_eq`). The text of an instant is read back (`parse_toISOString`).
-/

namespace Markiro.Commercial

open Calendar Text

/-! ## The calendar -/

def IsDay (y m d : ℕ) : Prop := (1 ≤ m ∧ m ≤ 12) ∧ 1 ≤ d ∧ d ≤ daysInMonth y m

theorem le_daysBeforeYear (n : ℕ) : n ≤ daysBeforeYear n := by
  induction n with
  | zero => exact le_rfl
  | succ n ih =>
    have h : yearLength n = if isLeap n then 366 else 365 := rfl
    rw [daysBeforeYear_succ]
    split_ifs at h <;> omega

theorem civilDate_spec {n : ℕ} (h : 1 ≤ n) :
    IsDay (civilDate n).1 (civilDate n).2.1 (civilDate n).2.2 ∧
      dayNumber (civilDate n).1 (civilDate n).2.1 (civilDate n).2.2 = n :=
  have ⟨_, hm, hd, hnumber⟩ := date_spec h (le_daysBeforeYear n) rfl
  ⟨⟨hm, hd⟩, hnumber⟩

theorem civilDate_dayNumber {y m d : ℕ} (h : IsDay y m d) :
    civilDate (dayNumber y m d) = (y, m, d) := by
  have hpos : 1 ≤ dayNumber y m d := h.2.1.trans (Nat.le_add_left _ _)
  obtain ⟨h1, h2⟩ := civilDate_spec hpos
  obtain ⟨e1, e2, e3⟩ := dayNumber_injective h1.1 h1.2 h.1 h.2 h2
  exact Prod.ext e1 (Prod.ext e2 e3)

theorem civilDate_year_mono {n n' : ℕ} (h : 1 ≤ n) (hle : n ≤ n') :
    (civilDate n).1 ≤ (civilDate n').1 := by
  obtain ⟨h1, h2⟩ := civilDate_spec h
  obtain ⟨h3, h4⟩ := civilDate_spec (h.trans hle)
  by_contra hlt
  have := @dayNumber_lt _ _ _ _ (civilDate n).2.1 _ h3.1 h3.2 h1.2.1 (.inl (not_le.1 hlt))
  omega

/-! ## Fields and milliseconds -/

/-- The fields are those of a moment. -/
structure DateTimeParts.Valid (p : DateTimeParts) : Prop where
  date : IsDay p.year p.month p.day
  hour : p.hour ≤ 23
  minute : p.minute ≤ 59
  second : p.second ≤ 59
  millisecond : p.millisecond ≤ 999

variable {p : DateTimeParts}

theorem timeMillis_lt (h : p.Valid) :
    timeMillis p.hour p.minute p.second p.millisecond < 86400000 := by
  have h1 := h.hour
  have h2 := h.minute
  have h3 := h.second
  have h4 := h.millisecond
  unfold timeMillis
  omega

theorem day_utcMillis (h : p.Valid) :
    utcMillis p / dayMillis + epochDay = dayNumber p.year p.month p.day := by
  have ht := timeMillis_lt h
  unfold utcMillis dayMillis
  omega

theorem time_utcMillis (h : p.Valid) :
    (utcMillis p % dayMillis).toNat = timeMillis p.hour p.minute p.second p.millisecond := by
  have ht := timeMillis_lt h
  unfold utcMillis dayMillis
  omega

theorem utcParts_utcMillis (h : p.Valid) : utcParts (utcMillis p) = p := by
  have hday : (utcMillis p / dayMillis + epochDay).toNat = dayNumber p.year p.month p.day := by
    rw [day_utcMillis h]
    exact Int.toNat_natCast _
  have htime := time_utcMillis h
  have h1 := h.hour
  have h2 := h.minute
  have h3 := h.second
  have h4 := h.millisecond
  unfold utcParts
  rw [hday, htime, civilDate_dayNumber h.date]
  obtain ⟨year, month, day, hour, minute, second, millisecond⟩ := p
  dsimp only at h1 h2 h3 h4
  simp only [timeMillis, DateTimeParts.mk.injEq, true_and]
  omega

/-- From the first day of the calendar on. -/
def Dated (date : ℤ) : Prop := 1 ≤ date / dayMillis + epochDay

variable {date : ℤ}

theorem utcParts_valid (h : Dated date) : (utcParts date).Valid := by
  unfold Dated at h
  have hday : 1 ≤ (date / dayMillis + epochDay).toNat := by omega
  have htime : (date % dayMillis).toNat < 86400000 := by
    unfold dayMillis
    omega
  refine ⟨(civilDate_spec hday).1, ?_, ?_, ?_, ?_⟩
  · show (date % dayMillis).toNat / 3600000 ≤ 23
    omega
  · show (date % dayMillis).toNat / 60000 % 60 ≤ 59
    omega
  · show (date % dayMillis).toNat / 1000 % 60 ≤ 59
    omega
  · show (date % dayMillis).toNat % 1000 ≤ 999
    omega

theorem utcMillis_utcParts (h : Dated date) : utcMillis (utcParts date) = date := by
  unfold Dated at h
  have hday : 1 ≤ (date / dayMillis + epochDay).toNat := by omega
  have hnumber := (civilDate_spec hday).2
  have htime : timeMillis ((date % dayMillis).toNat / 3600000)
      ((date % dayMillis).toNat / 60000 % 60) ((date % dayMillis).toNat / 1000 % 60)
      ((date % dayMillis).toNat % 1000) = (date % dayMillis).toNat := by
    unfold timeMillis dayMillis
    omega
  unfold utcMillis utcParts
  dsimp only
  rw [hnumber, htime]
  unfold dayMillis at *
  omega

theorem utcParts_year_mono {a b : ℤ} (ha : Dated a) (h : a ≤ b) :
    (utcParts a).year ≤ (utcParts b).year := by
  unfold Dated at ha
  refine civilDate_year_mono (by omega) ?_
  unfold dayMillis at *
  omega

theorem Dated.of_year (h : 1 ≤ (utcParts date).year) : Dated date := by
  unfold Dated
  by_contra hlt
  have hzero : (date / dayMillis + epochDay).toNat = 0 := by omega
  have hyear : (utcParts date).year = 0 := by
    unfold utcParts
    rw [hzero]
    rfl
  omega

theorem dated_near (h : p.Valid) (hy : 1 ≤ p.year) {d : ℤ}
    (hd : -(3 * 86400000) ≤ d) : Dated (utcMillis p + d) := by
  have h1 : daysBeforeYear 1 ≤ daysBeforeYear p.year := daysBeforeYear_mono hy
  have h2 : daysBeforeYear 1 = 366 := rfl
  have h3 := day_utcMillis h
  have h4 : daysBeforeYear p.year ≤ dayNumber p.year p.month p.day := by
    unfold dayNumber
    omega
  unfold Dated dayMillis at *
  omega

/-! ## Moscow -/

theorem dateTimeParts_eq (date : ℤ) : dateTimeParts date = utcParts (date + moscowAhead) := by
  have h : (date % 1000).toNat = ((date + moscowAhead) % dayMillis).toNat % 1000 := by
    unfold moscowAhead dayMillis
    omega
  unfold dateTimeParts
  rw [h]
  rfl

theorem utcMillis_dateTimeParts (h : Dated (date + moscowAhead)) :
    utcMillis (dateTimeParts date) = date + moscowAhead := by
  rw [dateTimeParts_eq, utcMillis_utcParts h]

theorem dateTimeParts_utcMillis (h : p.Valid) : dateTimeParts (utcMillis p - moscowAhead) = p := by
  rw [dateTimeParts_eq, sub_add_cancel, utcParts_utcMillis h]

/-- **A moment in Moscow has its instant**, three hours before its fields at UTC. -/
theorem instantFromMoscowDateTime_eq (h : p.Valid) (hy : 1 ≤ p.year) :
    instantFromMoscowDateTime p = .ok (utcMillis p - moscowAhead) := by
  have hoffsets : timezoneOffsetProbes.map (fun probe =>
      utcMillis (dateTimeParts (utcMillis p + probe)) - (utcMillis p + probe)) =
      timezoneOffsetProbes.map fun _ => moscowAhead := by
    refine List.map_congr_left fun probe hprobe => ?_
    have hbound : -(3 * 86400000) ≤ probe + moscowAhead := by
      have hall : ∀ x ∈ timezoneOffsetProbes, -(3 * 86400000) ≤ x + moscowAhead := by decide
      exact hall probe hprobe
    have hdated := dated_near h hy hbound
    rw [← add_assoc] at hdated
    rw [utcMillis_dateTimeParts hdated]
    omega
  have hset : (timezoneOffsetProbes.map fun _ => moscowAhead).eraseDups = [moscowAhead] := by decide
  unfold instantFromMoscowDateTime
  simp only [hoffsets, hset, List.map_cons, List.map_nil, List.filter_cons,
    dateTimeParts_utcMillis h, decide_true, if_true, List.filter_nil]
  rfl

/-! ## Texts -/

theorem daysInMonth_le (y m : ℕ) : daysInMonth y m ≤ 31 := by
  unfold daysInMonth
  split <;> (try split) <;> omega

theorem readMillis_pad {n : ℕ} (h : n ≤ 999) :
    readMillis ('.' :: (pad 3 n ++ ['Z'])) = some (n, ['Z']) := by
  have hp : pad 3 n = fixed 3 n := pad_eq_fixed (by decide) (by omega)
  have hdigits : ∀ c ∈ fixed 3 n, c.isDigit = true := fixed_isDigit 3 n
  have htake : (fixed 3 n ++ ['Z']).takeWhile Char.isDigit = fixed 3 n := by
    rw [List.takeWhile_append_of_pos hdigits]
    exact List.append_nil _
  have hdrop : (fixed 3 n ++ ['Z']).dropWhile Char.isDigit = ['Z'] := by
    rw [List.dropWhile_append_of_pos hdigits]
    rfl
  have hfirst : (fixed 3 n ++ ['0', '0', '0']).take 3 = fixed 3 n :=
    List.take_left' (fixed_length 3 n)
  rw [hp]
  show (if 1 ≤ ((fixed 3 n ++ ['Z']).takeWhile Char.isDigit).length ∧
      ((fixed 3 n ++ ['Z']).takeWhile Char.isDigit).length ≤ 3 then _ else none) = _
  rw [htake, hdrop, hfirst, fixed_length, if_pos ⟨by decide, le_rfl⟩,
    ofDigitChars_fixed (by omega)]

theorem matchIsoInstant_toISOString (h : Dated date) (hy : (utcParts date).year ≤ 9999) :
    matchIsoInstant (toISOString date) = some (utcParts date, .utc) := by
  have hvalid := utcParts_valid h
  obtain ⟨⟨⟨-, hmonth⟩, -, hday⟩, hhour, hminute, hsecond, hmilli⟩ := hvalid
  have hlast := daysInMonth_le (utcParts date).year (utcParts date).month
  unfold matchIsoInstant toISOString
  dsimp only [Option.bind_eq_bind]
  rw [if_pos hy, bind_column (by decide) (by omega)]
  dsimp only
  rw [bind_char, bind_column (by decide) (by omega)]
  dsimp only
  rw [bind_char, bind_column (by decide) (by omega)]
  dsimp only
  rw [bind_char, bind_column (by decide) (by omega)]
  dsimp only
  rw [bind_char, bind_column (by decide) (by omega)]
  dsimp only
  rw [bind_char, bind_column (by decide) (by omega)]
  dsimp only
  rw [readMillis_pad hmilli]
  rfl

/-- **The text of an instant reads as the instant.** -/
theorem parse_toISOString (h1 : 1 ≤ (utcParts date).year)
    (h2 : (utcParts date).year ≤ 9999) : parseIsoInstant (toISOString date) = .ok date := by
  have hdated := Dated.of_year h1
  have hvalid := utcParts_valid hdated
  have hrange : (utcParts date).InRange :=
    ⟨h1, hvalid.date.1, hvalid.date.2, hvalid.hour, hvalid.minute, hvalid.second⟩
  have hzero : utcMillis (utcParts date) - 0 * 60000 = date := by
    rw [utcMillis_utcParts hdated]
    omega
  have hoffset : Timezone.utc.offsetMinutes = .ok 0 := rfl
  unfold parseIsoInstant
  rw [matchIsoInstant_toISOString hdated h2]
  dsimp only
  rw [if_neg (not_not.2 hrange), hoffset, Results.ok_bind, hzero]
  exact if_neg (by omega)

theorem parse_year {value : Chars} (h : parseIsoInstant value = .ok date) :
    1 ≤ (utcParts date).year ∧ (utcParts date).year ≤ 9999 := by
  unfold parseIsoInstant at h
  cases hm : matchIsoInstant value with
  | none => simp only [hm] at h; cases h
  | some m =>
    obtain ⟨parts, timezone⟩ := m
    simp only [hm] at h
    by_cases hrange : parts.InRange
    · rw [if_neg (not_not.2 hrange)] at h
      obtain ⟨offset, -, h⟩ := Results.bind_eq_ok.1 h
      by_cases hyear : (utcParts (utcMillis parts - offset * 60000)).year < 1 ∨
          (utcParts (utcMillis parts - offset * 60000)).year > 9999
      · rw [if_pos hyear] at h
        cases h
      · rw [if_neg hyear] at h
        rw [← Except.ok.inj h]
        omega
    · rw [if_pos hrange] at h
      cases h

theorem moment_of_parse {value : Chars} (h : parseIsoInstant value = .ok date) :
    (dateTimeParts date).Valid ∧ 1 ≤ (dateTimeParts date).year := by
  have hyear := (parse_year h).1
  have hle : date ≤ date + moscowAhead := by
    unfold moscowAhead
    omega
  have hlater := hyear.trans (utcParts_year_mono (Dated.of_year hyear) hle)
  rw [dateTimeParts_eq]
  exact ⟨utcParts_valid (Dated.of_year hlater), hlater⟩

end Markiro.Commercial
