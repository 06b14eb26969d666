import Markiro.Domain.Instants

/-!
# Commercial periods

The cycles of a commercial term, counted from its anchor, and the explicit terms of civil dates
(`commercial-terms.ts`). A JavaScript `Date` is its milliseconds since 1970 UTC, its calendar the
proleptic Gregorian one, and Moscow's civil time is three hours ahead of UTC at every instant. The
texts are lists of characters.
-/

namespace Markiro.Commercial

open Calendar Text

/-! ## Dates -/

/-- A text. -/
abbrev Chars := List Char

structure DateTimeParts where
  year : ℕ
  month : ℕ
  day : ℕ
  hour : ℕ
  minute : ℕ
  second : ℕ
  millisecond : ℕ
  deriving DecidableEq

def dayMillis : ℤ := 86400000

/-- The number of the first of January of 1970. -/
def epochDay : ℤ := dayNumber 1970 1 1

def civilDate (n : ℕ) : ℕ × ℕ × ℕ :=
  ((yearOf n 0 n).1, monthOf (yearOf n 0 n).1 12 1 (yearOf n 0 n).2)

def timeMillis (hour minute second millisecond : ℕ) : ℕ :=
  ((hour * 60 + minute) * 60 + second) * 1000 + millisecond

/-- `Date.prototype.getUTC...`: the fields of a date. -/
def utcParts (date : ℤ) : DateTimeParts :=
  let day := civilDate (date / dayMillis + epochDay).toNat
  let time := (date % dayMillis).toNat
  { year := day.1
    month := day.2.1
    day := day.2.2
    hour := time / 3600000
    minute := time / 60000 % 60
    second := time / 1000 % 60
    millisecond := time % 1000 }

def utcMillis (parts : DateTimeParts) : ℤ :=
  (dayNumber parts.year parts.month parts.day - epochDay) * dayMillis +
    timeMillis parts.hour parts.minute parts.second parts.millisecond

/-- Moscow's time ahead of UTC. -/
def moscowAhead : ℤ := 3 * 60 * 60 * 1000

def dateTimeParts (date : ℤ) : DateTimeParts :=
  { utcParts (date + moscowAhead) with millisecond := (date % 1000).toNat }

def toISOString (date : ℤ) : Chars :=
  let parts := utcParts date
  (if parts.year ≤ 9999 then pad 4 parts.year else '+' :: pad 6 parts.year) ++ '-' ::
    (pad 2 parts.month ++ '-' :: (pad 2 parts.day ++ 'T' :: (pad 2 parts.hour ++ ':' ::
      (pad 2 parts.minute ++ ':' :: (pad 2 parts.second ++ '.' ::
        (pad 3 parts.millisecond ++ ['Z']))))))

/-! ## Reading an instant -/

inductive Timezone where
  | utc
  | offset (east : Bool) (hour minute : ℕ)
  deriving DecidableEq

/-- The optional fraction of `ISO_INSTANT_PATTERN`, one to three digits, in milliseconds. -/
def readMillis : Chars → Option (ℕ × Chars)
  | '.' :: cs =>
    let digits := cs.takeWhile Char.isDigit
    if 1 ≤ digits.length ∧ digits.length ≤ 3 then
      some (Nat.ofDigitChars 10 ((digits ++ ['0', '0', '0']).take 3) 0, cs.dropWhile Char.isDigit)
    else none
  | cs => some (0, cs)

def readTimezone : Chars → Option Timezone
  | ['Z'] => some .utc
  | sign :: cs => do
    let east ← if sign = '+' then some true else if sign = '-' then some false else none
    let (hour, cs) ← readColumn 2 cs
    let cs ← readChar ':' cs
    let (minute, cs) ← readColumn 2 cs
    if cs = [] then some (.offset east hour minute) else none
  | [] => none

def matchIsoInstant (value : Chars) : Option (DateTimeParts × Timezone) := do
  let (year, cs) ← readColumn 4 value
  let cs ← readChar '-' cs
  let (month, cs) ← readColumn 2 cs
  let cs ← readChar '-' cs
  let (day, cs) ← readColumn 2 cs
  let cs ← readChar 'T' cs
  let (hour, cs) ← readColumn 2 cs
  let cs ← readChar ':' cs
  let (minute, cs) ← readColumn 2 cs
  let cs ← readChar ':' cs
  let (second, cs) ← readColumn 2 cs
  let (millisecond, cs) ← readMillis cs
  let timezone ← readTimezone cs
  return (⟨year, month, day, hour, minute, second, millisecond⟩, timezone)

def DateTimeParts.InRange (p : DateTimeParts) : Prop :=
  1 ≤ p.year ∧ (1 ≤ p.month ∧ p.month ≤ 12) ∧ (1 ≤ p.day ∧ p.day ≤ daysInMonth p.year p.month) ∧
    p.hour ≤ 23 ∧ p.minute ≤ 59 ∧ p.second ≤ 59

instance (p : DateTimeParts) : Decidable p.InRange := inferInstanceAs (Decidable (_ ∧ _))

def Timezone.offsetMinutes : Timezone → Except String ℤ
  | .utc => .ok 0
  | .offset east hour minute =>
    if hour > 23 ∨ minute > 59 then .error "Invalid commercial anchor instant"
    else .ok ((hour * 60 + minute) * if east then 1 else -1)

def parseIsoInstant (value : Chars) : Except String ℤ := do
  match matchIsoInstant value with
  | none => .error "Invalid commercial anchor instant"
  | some (parts, timezone) =>
    if ¬ parts.InRange then .error "Invalid commercial anchor instant"
    else
      let offsetMinutes ← timezone.offsetMinutes
      let instant := utcMillis parts - offsetMinutes * 60000
      let instantYear := (utcParts instant).year
      if instantYear < 1 ∨ instantYear > 9999 then
        .error "Commercial anchor instant is outside the supported date range"
      else .ok instant

/-! ## Moscow's civil time -/

def timezoneOffsetProbes : List ℤ := [-48, -24, -6, 0, 6, 24, 48].map (· * 60 * 60 * 1000)

/-- `instantFromMoscowDateTime`: the earliest instant whose Moscow fields are `target`. -/
def instantFromMoscowDateTime (target : DateTimeParts) : Except String ℤ :=
  let localMillis := utcMillis target
  let offsets := (timezoneOffsetProbes.map fun probe =>
    utcMillis (dateTimeParts (localMillis + probe)) - (localMillis + probe)).eraseDups
  let candidates := ((offsets.map fun offset => localMillis - offset).filter fun candidate =>
    dateTimeParts candidate = target).insertionSort (· ≤ ·)
  match candidates with
  | earliest :: _ => .ok earliest
  | [] => .error "Commercial boundary is invalid in the billing timezone"

/-! ## Cycles -/

inductive Billing where
  | month | year
  deriving DecidableEq

def maxSafeInteger : ℤ := 2 ^ 53 - 1

def IsSafe (n : ℤ) : Prop := -maxSafeInteger ≤ n ∧ n ≤ maxSafeInteger

instance (n : ℤ) : Decidable (IsSafe n) := inferInstanceAs (Decidable (_ ∧ _))

def targetMonth (anchor : DateTimeParts) (billing : Billing) (cycle : ℤ) : Except String (ℤ × ℤ) :=
  match billing with
  | .month =>
    let target : ℤ := anchor.year * 12 + anchor.month - 1 + cycle
    if ¬ IsSafe target then .error "Commercial period exceeds the supported date range"
    else .ok (target / 12, target % 12 + 1)
  | .year => .ok (anchor.year + cycle, anchor.month)

/-- The anchor's fields in another month, its day cut to the days of that month. -/
def DateTimeParts.inMonth (p : DateTimeParts) (year month : ℕ) : DateTimeParts :=
  { p with year, month, day := min p.day (daysInMonth year month) }

def boundaryFromAnchor (anchor : DateTimeParts) (billing : Billing) (cycle : ℤ) :
    Except String ℤ := do
  let (year, month) ← targetMonth anchor billing cycle
  if ¬ IsSafe year ∨ year < 1 ∨ year > 9999 then
    .error "Commercial period exceeds the supported date range"
  else instantFromMoscowDateTime (anchor.inMonth year.toNat month.toNat)

inductive BillingPeriod where
  | cycles (billing : Billing)
  | custom
  deriving DecidableEq

/-- A commercial period, its instants as texts. -/
structure CommercialPeriod where
  billingPeriod : BillingPeriod
  billingTimezone : String
  calendarPolicyVersion : ℕ
  anchorAt : Chars
  cycle : ℤ
  startsAt : Chars
  endsAt : Chars
  deriving DecidableEq

def billingTimezone : String := "Europe/Moscow"

def calendarPolicyVersion : ℕ := 1

def resolveCommercialPeriod (anchorAt : Chars) (billingPeriod : Billing) (cycle : ℤ) :
    Except String CommercialPeriod := do
  if ¬ IsSafe cycle ∨ cycle < 0 ∨ cycle = maxSafeInteger then
    .error "Commercial cycle must be a nonnegative safe integer"
  else
    let anchor ← parseIsoInstant anchorAt
    let original := dateTimeParts anchor
    let startsAt ← (if cycle = 0 then .ok anchor
      else boundaryFromAnchor original billingPeriod cycle)
    let endsAt ← boundaryFromAnchor original billingPeriod (cycle + 1)
    return {
      billingPeriod := .cycles billingPeriod
      billingTimezone := Commercial.billingTimezone
      calendarPolicyVersion := Commercial.calendarPolicyVersion
      anchorAt := toISOString anchor
      cycle
      startsAt := toISOString startsAt
      endsAt := toISOString endsAt }

/-! ## Explicit terms -/

def matchCivilDate (value : Chars) : Option (ℕ × ℕ × ℕ) := do
  let (year, cs) ← readColumn 4 value
  let cs ← readChar '-' cs
  let (month, cs) ← readColumn 2 cs
  let cs ← readChar '-' cs
  let (day, cs) ← readColumn 2 cs
  if cs = [] then some (year, month, day) else none

/-- A date that exists, from the year 1 on. -/
def IsDate (date : ℕ × ℕ × ℕ) : Prop :=
  1 ≤ date.1 ∧ (1 ≤ date.2.1 ∧ date.2.1 ≤ 12) ∧
    1 ≤ date.2.2 ∧ date.2.2 ≤ daysInMonth date.1 date.2.1

instance (date : ℕ × ℕ × ℕ) : Decidable (IsDate date) := inferInstanceAs (Decidable (_ ∧ _))

def parseCivilDate (value : Chars) : Except String (ℕ × ℕ × ℕ) :=
  match matchCivilDate value with
  | some date => if IsDate date then .ok date else .error "Invalid commercial civil date"
  | none => .error "Invalid commercial civil date"

def atMidnight (date : ℕ × ℕ × ℕ) : DateTimeParts := ⟨date.1, date.2.1, date.2.2, 0, 0, 0, 0⟩

def resolveExplicitCommercialPeriod (termStart termEnd : Chars) :
    Except String CommercialPeriod := do
  let start ← parseCivilDate termStart
  let fin ← parseCivilDate termEnd
  if termEnd < termStart then .error "Commercial term must not end before it starts"
  else
    -- `setUTCFullYear` carries the day over the end of the month.
    let dayAfterEnd : ℤ := (dayNumber fin.1 fin.2.1 (fin.2.2 + 1) - epochDay) * dayMillis
    let after := utcParts dayAfterEnd
    if after.year > 9999 then .error "Commercial period exceeds the supported date range"
    else
      let startsAt ← instantFromMoscowDateTime (atMidnight start)
      let endsAt ← instantFromMoscowDateTime (atMidnight (after.year, after.month, after.day))
      return {
        billingPeriod := .custom
        billingTimezone := Commercial.billingTimezone
        calendarPolicyVersion := Commercial.calendarPolicyVersion
        anchorAt := toISOString startsAt
        cycle := 0
        startsAt := toISOString startsAt
        endsAt := toISOString endsAt }

/-- `YYYY-MM-DD`. -/
def dateText (year month day : ℕ) : Chars := pad 4 year ++ '-' :: (pad 2 month ++ '-' :: pad 2 day)

/-- The text of a date's day in Moscow, and whether it is midnight there. -/
def civil (date : ℤ) : Chars × Bool :=
  let parts := dateTimeParts date
  (dateText parts.year parts.month parts.day,
    decide (parts.hour = 0 ∧ parts.minute = 0 ∧ parts.second = 0 ∧ parts.millisecond = 0))

def explicitCommercialPeriodTerm (startsAt endsAt : Chars) : Except String (Chars × Chars) := do
  let starts := civil (← parseIsoInstant startsAt)
  let endInstant ← parseIsoInstant endsAt
  let ends := civil endInstant
  if starts.2 = false ∨ ends.2 = false then
    .error "Explicit commercial period must lie on Moscow midnights"
  else .ok (starts.1, (civil (endInstant - 1)).1)

end Markiro.Commercial
