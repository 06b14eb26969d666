import Markiro.Lib.Text

/-!
# Civil time and its texts

Dates of the proleptic Gregorian calendar, moments with an offset, and the two fixed-width texts
of a UTC moment: whole seconds (`secondText`) and milliseconds (`milliText`). The byte order of
each text is the chronological order:

1. dates in lexicographic order have increasing day numbers (`dayNumber_lt`);
2. a text of zero-padded columns orders its moments by the columns, hence by the moment
   (`secondText_lt`, `milliText_lt`).

`readRfc3339` reads the texts RFC 3339 allows; it reads `secondText` back.
-/

namespace Calendar

open Text

/-! ## Dates -/

def isLeap (y : ℕ) : Bool := y % 4 == 0 && (y % 100 != 0 || y % 400 == 0)

def daysInMonth (y m : ℕ) : ℕ :=
  match m with
  | 2 => if isLeap y then 29 else 28
  | 4 | 6 | 9 | 11 => 30
  | _ => 31

def daysBeforeYear : ℕ → ℕ
  | 0 => 0
  | y + 1 => daysBeforeYear y + if isLeap y then 366 else 365

def daysBeforeMonth (y : ℕ) : ℕ → ℕ
  | 0 => 0
  | 1 => 0
  | m + 2 => daysBeforeMonth y (m + 1) + daysInMonth y (m + 1)

/-- The number of a date, counted from the first of January of year 0. -/
def dayNumber (y m d : ℕ) : ℕ := daysBeforeYear y + daysBeforeMonth y m + d

theorem daysBeforeYear_mono {y y' : ℕ} (h : y ≤ y') : daysBeforeYear y ≤ daysBeforeYear y' := by
  induction h with
  | refl => exact le_rfl
  | step _ ih => exact ih.trans (Nat.le_add_right _ _)

theorem daysBeforeMonth_succ (y : ℕ) {m : ℕ} (hm : 0 < m) :
    daysBeforeMonth y (m + 1) = daysBeforeMonth y m + daysInMonth y m := by
  obtain ⟨m, rfl⟩ := Nat.exists_eq_succ_of_ne_zero hm.ne'
  rfl

theorem daysBeforeMonth_le (y : ℕ) {m m' : ℕ} (hm : 0 < m) (h : m < m') :
    daysBeforeMonth y m + daysInMonth y m ≤ daysBeforeMonth y m' := by
  induction m', h using Nat.le_induction with
  | base => rw [daysBeforeMonth_succ y hm]
  | succ n hn ih =>
    rw [daysBeforeMonth_succ y (by omega)]
    omega

theorem daysBeforeMonth_year (y : ℕ) :
    daysBeforeMonth y 13 = if isLeap y then 366 else 365 := by
  simp only [daysBeforeMonth, daysInMonth]
  split <;> rfl

theorem dayNumber_lt {y m d y' m' d' : ℕ} (hm : 1 ≤ m ∧ m ≤ 12) (hd : 1 ≤ d ∧ d ≤ daysInMonth y m)
    (hd' : 1 ≤ d') (h : y < y' ∨ y = y' ∧ (m < m' ∨ m = m' ∧ d < d')) :
    dayNumber y m d < dayNumber y' m' d' := by
  unfold dayNumber
  rcases h with hy | ⟨rfl, hm' | ⟨rfl, hdd⟩⟩
  · have h1 := daysBeforeMonth_le y (show 0 < m by omega) (show m < 13 by omega)
    rw [daysBeforeMonth_year] at h1
    have h2 : daysBeforeYear (y + 1) ≤ daysBeforeYear y' := daysBeforeYear_mono hy
    rw [daysBeforeYear] at h2
    omega
  · have h1 := daysBeforeMonth_le y (show 0 < m by omega) hm'
    omega
  · omega

theorem dayNumber_injective {y m d y' m' d' : ℕ} (hm : 1 ≤ m ∧ m ≤ 12)
    (hd : 1 ≤ d ∧ d ≤ daysInMonth y m) (hm' : 1 ≤ m' ∧ m' ≤ 12)
    (hd' : 1 ≤ d' ∧ d' ≤ daysInMonth y' m') (heq : dayNumber y m d = dayNumber y' m' d') :
    y = y' ∧ m = m' ∧ d = d' := by
  have h1 := @dayNumber_lt y m d y' m' d' hm hd hd'.1
  have h2 := @dayNumber_lt y' m' d' y m d hm' hd' hd.1
  have key : ¬(y < y' ∨ y = y' ∧ (m < m' ∨ m = m' ∧ d < d')) := fun hlt => by
    have := h1 hlt
    omega
  have key' : ¬(y' < y ∨ y' = y ∧ (m' < m ∨ m' = m ∧ d' < d)) := fun hlt => by
    have := h2 hlt
    omega
  omega

/-! ## Moments -/

/-- What a moment's fields must be. -/
structure ValidFields (y m d h mi s n : ℕ) : Prop where
  year : y ≤ 9999
  month : 1 ≤ m ∧ m ≤ 12
  day : 1 ≤ d ∧ d ≤ daysInMonth y m
  hour : h ≤ 23
  minute : mi ≤ 59
  second : s ≤ 59
  nano : n < 1000000000

instance (y m d h mi s n : ℕ) : Decidable (ValidFields y m d h mi s n) :=
  decidable_of_iff (y ≤ 9999 ∧ (1 ≤ m ∧ m ≤ 12) ∧ (1 ≤ d ∧ d ≤ daysInMonth y m) ∧ h ≤ 23 ∧
    mi ≤ 59 ∧ s ≤ 59 ∧ n < 1000000000)
    ⟨fun ⟨a, b, c, d, e, f, g⟩ => ⟨a, b, c, d, e, f, g⟩, fun ⟨a, b, c, d, e, f, g⟩ =>
      ⟨a, b, c, d, e, f, g⟩⟩

/-- A moment in civil fields at an offset of `offset` seconds east of UTC. -/
structure DateTime where
  year : ℕ
  month : ℕ
  day : ℕ
  hour : ℕ
  minute : ℕ
  second : ℕ
  nano : ℕ
  offset : ℤ
  valid : ValidFields year month day hour minute second nano

namespace DateTime

theorem ext' {a b : DateTime} (h : a.year = b.year ∧ a.month = b.month ∧ a.day = b.day ∧
    a.hour = b.hour ∧ a.minute = b.minute ∧ a.second = b.second ∧ a.nano = b.nano ∧
    a.offset = b.offset) : a = b := by
  cases a
  cases b
  simpa using h

instance : DecidableEq DateTime := fun _ _ =>
  decidable_of_iff _ ⟨ext', fun h => h ▸ ⟨rfl, rfl, rfl, rfl, rfl, rfl, rfl, rfl⟩⟩

def milli (d : DateTime) : ℕ := d.nano / 1000000

def localSeconds (d : DateTime) : ℕ :=
  ((dayNumber d.year d.month d.day * 24 + d.hour) * 60 + d.minute) * 60 + d.second

/-- The nanoseconds since the start of year 0, UTC: what orders two moments. -/
def nanos (d : DateTime) : ℤ := (d.localSeconds - d.offset) * 1000000000 + d.nano

end DateTime

/-- A moment read at UTC. -/
abbrev UtcDateTime := { d : DateTime // d.offset = 0 }

def secondColumns (d : DateTime) (rest : List Char) : List Char :=
  pad 4 d.year ++ '-' :: (pad 2 d.month ++ '-' :: (pad 2 d.day ++ 'T' :: (pad 2 d.hour ++
    ':' :: (pad 2 d.minute ++ ':' :: (pad 2 d.second ++ rest)))))

/-- `YYYY-MM-DDTHH:MM:SSZ`. -/
def secondText (d : DateTime) : String := String.ofList (secondColumns d ['Z'])

/-- `YYYY-MM-DDTHH:MM:SS.mmmZ`. -/
def milliText (d : DateTime) : String :=
  String.ofList (secondColumns d ('.' :: (pad 3 d.milli ++ ['Z'])))

/-! ## Text order -/

theorem cons_lt {c : Char} {a b : List Char} : c :: a < c :: b ↔ a < b := by
  simp

section Order

variable {a b : DateTime} {r r' : List Char}

theorem DateTime.milli_lt (d : DateTime) : d.milli < 1000 := by
  have := d.valid.nano
  unfold DateTime.milli
  omega

theorem DateTime.day_le (d : DateTime) : d.day ≤ 31 := by
  have h := d.valid.day.2
  unfold daysInMonth at h
  split at h <;> (try split at h) <;> omega

/-- The columns order two moments by the second, then by what follows. -/
theorem secondColumns_lt : secondColumns a r < secondColumns b r' ↔
    (a.year < b.year ∨ a.year = b.year ∧ (a.month < b.month ∨ a.month = b.month ∧
      (a.day < b.day ∨ a.day = b.day ∧ (a.hour < b.hour ∨ a.hour = b.hour ∧
        (a.minute < b.minute ∨ a.minute = b.minute ∧ (a.second < b.second ∨
          a.second = b.second ∧ r < r')))))) := by
  have ha := a.valid
  have hb := b.valid
  have hda := a.day_le
  have hdb := b.day_le
  obtain ⟨hay, ham, -, hah, hami, has, -⟩ := ha
  obtain ⟨hby, hbm, -, hbh, hbmi, hbs, -⟩ := hb
  unfold secondColumns
  rw [pad_append_lt (by decide) (by omega) (by omega), cons_lt,
    pad_append_lt (by decide) (by omega) (by omega), cons_lt,
    pad_append_lt (by decide) (by omega) (by omega), cons_lt,
    pad_append_lt (by decide) (by omega) (by omega), cons_lt,
    pad_append_lt (by decide) (by omega) (by omega), cons_lt,
    pad_append_lt (by decide) (by omega) (by omega)]

theorem localSeconds_lt (h : secondColumns a r < secondColumns b r') :
    a.localSeconds < b.localSeconds ∨ a.localSeconds = b.localSeconds ∧ r < r' := by
  have ha := a.valid
  have hb := b.valid
  have hday : (a.year < b.year ∨ a.year = b.year ∧ (a.month < b.month ∨ a.month = b.month ∧
      a.day < b.day)) → dayNumber a.year a.month a.day < dayNumber b.year b.month b.day :=
    fun h => dayNumber_lt ha.month ha.day hb.day.1 h
  obtain ⟨-, -, -, hah, hami, has, -⟩ := ha
  obtain ⟨-, -, -, hbh, hbmi, hbs, -⟩ := hb
  unfold DateTime.localSeconds
  rcases secondColumns_lt.1 h with
    h | ⟨h1, h | ⟨h2, h | ⟨h3, h | ⟨h4, h | ⟨h5, h | ⟨h6, h⟩⟩⟩⟩⟩⟩
  · have := hday (.inl h)
    omega
  · have := hday (.inr ⟨h1, .inl h⟩)
    omega
  · have := hday (.inr ⟨h1, .inr ⟨h2, h⟩⟩)
    omega
  · rw [h1, h2, h3]
    omega
  · rw [h1, h2, h3]
    omega
  · rw [h1, h2, h3]
    omega
  · rw [h1, h2, h3, h4, h5, h6]
    exact .inr ⟨rfl, h⟩

theorem secondColumns_injective (h : secondColumns a r = secondColumns b r') :
    a.localSeconds = b.localSeconds ∧ r = r' := by
  have hx : ¬secondColumns a r < secondColumns b r' := h ▸ lt_irrefl _
  have hy : ¬secondColumns b r' < secondColumns a r := h ▸ lt_irrefl _
  rw [secondColumns_lt] at hx hy
  have hr : r = r' := le_antisymm (not_lt.1 (by grind)) (not_lt.1 (by grind))
  have hf : a.year = b.year ∧ a.month = b.month ∧ a.day = b.day ∧ a.hour = b.hour ∧
      a.minute = b.minute ∧ a.second = b.second := by
    grind
  obtain ⟨h1, h2, h3, h4, h5, h6⟩ := hf
  exact ⟨by simp only [DateTime.localSeconds, h1, h2, h3, h4, h5, h6], hr⟩

/-- The moment's milliseconds, counted at its own offset. -/
def DateTime.localMillis (d : DateTime) : ℕ := d.localSeconds * 1000 + d.milli

theorem milliText_lt_imp (h : milliText a < milliText b) : a.localMillis < b.localMillis := by
  have ha := a.milli_lt
  have hb := b.milli_lt
  rw [String.lt_iff_toList_lt, milliText, milliText, String.toList_ofList,
    String.toList_ofList] at h
  unfold DateTime.localMillis
  rcases localSeconds_lt h with h | ⟨h, hr⟩
  · omega
  · rw [cons_lt, pad_append_lt (by decide) (by omega) (by omega)] at hr
    rcases hr with hr | ⟨-, hr⟩
    · omega
    · exact absurd hr (lt_irrefl _)

theorem milliText_eq_imp (h : milliText a = milliText b) : a.localMillis = b.localMillis := by
  obtain ⟨hs, hr⟩ := secondColumns_injective (String.ofList_injective h)
  have hp := List.append_cancel_right (List.cons.inj hr).2
  have hm := pad_injective (by decide) (by have := a.milli_lt; omega)
    (by have := b.milli_lt; omega) hp
  rw [DateTime.localMillis, DateTime.localMillis, hs, hm]

/-- **Millisecond texts order their moments.** -/
theorem milliText_lt : milliText a < milliText b ↔ a.localMillis < b.localMillis := by
  refine ⟨milliText_lt_imp, fun h => ?_⟩
  rcases lt_trichotomy (milliText a) (milliText b) with ht | ht | ht
  · exact ht
  · exact absurd (milliText_eq_imp ht) h.ne
  · exact absurd (milliText_lt_imp ht) h.asymm

theorem secondText_lt_imp (h : secondText a < secondText b) :
    a.localSeconds < b.localSeconds := by
  rw [String.lt_iff_toList_lt, secondText, secondText, String.toList_ofList,
    String.toList_ofList] at h
  rcases localSeconds_lt h with h | ⟨-, hr⟩
  · exact h
  · exact absurd hr (lt_irrefl _)

theorem secondText_eq_imp (h : secondText a = secondText b) :
    a.localSeconds = b.localSeconds :=
  (secondColumns_injective (String.ofList_injective h)).1

/-- **Whole-second texts order their moments.** -/
theorem secondText_lt : secondText a < secondText b ↔ a.localSeconds < b.localSeconds := by
  refine ⟨secondText_lt_imp, fun h => ?_⟩
  rcases lt_trichotomy (secondText a) (secondText b) with ht | ht | ht
  · exact ht
  · exact absurd (secondText_eq_imp ht) h.ne
  · exact absurd (secondText_lt_imp ht) h.asymm

theorem secondText_le : secondText a ≤ secondText b ↔ a.localSeconds ≤ b.localSeconds := by
  rw [← not_lt, ← not_lt, secondText_lt]

end Order

/-! ## Reading -/

/-- The moment at UTC with its fields up to the second. -/
def DateTime.atSecond (d : DateTime) : DateTime :=
  { d with nano := 0, offset := 0, valid := { d.valid with nano := by decide } }

/-- The moment at UTC with its fields up to the millisecond. -/
def DateTime.atMilli (d : DateTime) : DateTime :=
  { d with
    nano := d.milli * 1000000
    offset := 0
    valid := { d.valid with nano := by have := d.milli_lt; omega } }

@[simp] theorem DateTime.atSecond_localSeconds (d : DateTime) :
    d.atSecond.localSeconds = d.localSeconds := rfl

@[simp] theorem DateTime.secondText_atSecond (d : DateTime) :
    secondText d.atSecond = secondText d := rfl

/-- Exactly `w` digits, and what follows them. -/
def readColumn (w : ℕ) (cs : List Char) : Option (ℕ × List Char) :=
  if (cs.take w).length = w then (readDigits (cs.take w)).map fun n => (n, cs.drop w) else none

/-- The character `c`, and what follows it. -/
def readChar (c : Char) : List Char → Option (List Char)
  | d :: cs => if d = c then some cs else none
  | [] => none

/-- A fraction of a second in nanoseconds: digits beyond the ninth count nothing. -/
def fractionNanos (digits : List Char) : ℕ := Nat.ofDigitChars 10 ((digits ++ fixed 9 0).take 9) 0

/-- An optional fraction of a second: a point and at least one digit. -/
def readFraction : List Char → Option (ℕ × List Char)
  | '.' :: cs =>
    let digits := cs.takeWhile Char.isDigit
    if digits = [] then none else some (fractionNanos digits, cs.dropWhile Char.isDigit)
  | cs => some (0, cs)

def readOffset : List Char → Option ℤ
  | ['Z'] | ['z'] => some 0
  | sign :: cs => do
    let factor : ℤ ← if sign = '+' then some 1 else if sign = '-' then some (-1) else none
    let (hours, cs) ← readColumn 2 cs
    let cs ← readChar ':' cs
    let (minutes, cs) ← readColumn 2 cs
    if cs = [] ∧ hours ≤ 25 ∧ minutes ≤ 59 then some (factor * (hours * 3600 + minutes * 60))
    else none
  | [] => none

/-- A moment of RFC 3339 in one of its texts; leap seconds, which no text of this file writes,
are not read. -/
def readRfc3339 (text : String) : Option DateTime := do
  let (year, cs) ← readColumn 4 text.toList
  let cs ← readChar '-' cs
  let (month, cs) ← readColumn 2 cs
  let cs ← readChar '-' cs
  let (day, cs) ← readColumn 2 cs
  let (separator, cs) ← cs.head?.map fun c => (c, cs.tail)
  let (hour, cs) ← readColumn 2 cs
  let cs ← readChar ':' cs
  let (minute, cs) ← readColumn 2 cs
  let cs ← readChar ':' cs
  let (second, cs) ← readColumn 2 cs
  let (nano, cs) ← readFraction cs
  let offset ← readOffset cs
  if h : separator.toNat < 128 ∧ ValidFields year month day hour minute second nano then
    some ⟨year, month, day, hour, minute, second, nano, offset, h.2⟩
  else none

theorem readColumn_pad {w n : ℕ} (hw : 0 < w) (h : n < 10 ^ w) (r : List Char) :
    readColumn w (pad w n ++ r) = some (n, r) := by
  have hl := pad_length hw h
  have ht : (pad w n ++ r).take w = pad w n := by rw [List.take_append_of_le_length (by omega),
    List.take_of_length_le (by omega)]
  have hd : (pad w n ++ r).drop w = r := by rw [List.drop_append_of_le_length (by omega),
    List.drop_of_length_le (by omega), List.nil_append]
  rw [readColumn, ht, hd, if_pos hl, readDigits_pad hw h]
  rfl

theorem readColumn_eq_some {w n : ℕ} {cs r : List Char} (hw : 0 < w)
    (h : readColumn w cs = some (n, r)) : n < 10 ^ w ∧ cs = pad w n ++ r := by
  unfold readColumn readDigits at h
  by_cases hlen : (cs.take w).length = w
  · by_cases hdigits : (cs.take w).all Char.isDigit = true
    · rw [if_pos hlen, if_pos hdigits] at h
      obtain ⟨hn, hr⟩ := Prod.mk.inj (Option.some.inj h)
      obtain ⟨hlt, hfixed⟩ := fixed_ofDigitChars (List.all_eq_true.1 hdigits)
      rw [hlen, hn] at hlt hfixed
      refine ⟨hlt, ?_⟩
      rw [pad_eq_fixed hw hlt, hfixed, ← hr, List.take_append_drop]
    · rw [if_pos hlen, if_neg hdigits] at h
      cases h
  · rw [if_neg hlen] at h
    cases h

theorem readChar_eq_some {c : Char} {cs r : List Char} (h : readChar c cs = some r) :
    cs = c :: r := by
  cases cs with
  | nil => cases h
  | cons d cs =>
    by_cases hd : d = c
    · rw [readChar, if_pos hd] at h
      rw [hd, Option.some.inj h]
    · rw [readChar, if_neg hd] at h
      cases h

theorem bind_column {α : Type} {w n : ℕ} (hw : 0 < w) (h : n < 10 ^ w) (r : List Char)
    (f : ℕ × List Char → Option α) : (readColumn w (pad w n ++ r)).bind f = f (n, r) := by
  rw [readColumn_pad hw h]
  rfl

theorem bind_char {α : Type} (c : Char) (cs : List Char) (f : List Char → Option α) :
    (readChar c (c :: cs)).bind f = f cs := by
  rw [readChar, if_pos rfl]
  rfl

/-- Reading the columns of a moment comes down to reading what follows them. -/
theorem readRfc3339_columns (d : DateTime) {r r' : List Char} {nano : ℕ} {offset : ℤ}
    (hn : nano < 1000000000) (hf : readFraction r = some (nano, r'))
    (ho : readOffset r' = some offset) :
    readRfc3339 (String.ofList (secondColumns d r)) = some
      ⟨d.year, d.month, d.day, d.hour, d.minute, d.second, nano, offset,
        { d.valid with nano := hn }⟩ := by
  have hday := d.day_le
  obtain ⟨hy, hm, hd, hh, hmi, hs, -⟩ := d.valid
  have hv : ('T'.toNat < 128) ∧
      ValidFields d.year d.month d.day d.hour d.minute d.second nano :=
    ⟨by decide, ⟨hy, hm, hd, hh, hmi, hs, hn⟩⟩
  unfold readRfc3339 secondColumns
  rw [String.toList_ofList]
  dsimp only [Option.bind_eq_bind]
  rw [bind_column (by decide) (by omega)]
  dsimp only
  rw [bind_char, bind_column (by decide) (by omega)]
  dsimp only
  rw [bind_char, bind_column (by decide) (by omega)]
  dsimp only [List.head?_cons, List.tail_cons, Option.map_some, Option.bind_some]
  rw [bind_column (by decide) (by omega)]
  dsimp only
  rw [bind_char, bind_column (by decide) (by omega)]
  dsimp only
  rw [bind_char, bind_column (by decide) (by omega)]
  dsimp only
  rw [hf]
  dsimp only [Option.bind_some]
  rw [ho]
  exact dif_pos hv

theorem readRfc3339_secondText (d : DateTime) :
    readRfc3339 (secondText d) = some d.atSecond :=
  readRfc3339_columns d (by decide) rfl rfl

theorem readRfc3339_milliText (d : DateTime) : readRfc3339 (milliText d) = some d.atMilli := by
  have hm := d.milli_lt
  have hp : pad 3 d.milli = fixed 3 d.milli := pad_eq_fixed (by decide) (by omega)
  have hdig : ∀ c ∈ pad 3 d.milli, c.isDigit = true := by
    rw [hp]
    exact fixed_isDigit 3 d.milli
  have hlen : (pad 3 d.milli).length = 3 := pad_length (by decide) (by omega)
  have htake : (pad 3 d.milli ++ ['Z']).takeWhile Char.isDigit = pad 3 d.milli := by
    rw [List.takeWhile_append_of_pos hdig]
    simp
  have hdrop : (pad 3 d.milli ++ ['Z']).dropWhile Char.isDigit = ['Z'] := by
    rw [List.dropWhile_append_of_pos hdig]
    simp
  have hne : pad 3 d.milli ≠ [] := by
    intro h
    rw [h] at hlen
    exact absurd hlen (by decide)
  have hval : fractionNanos (pad 3 d.milli) = d.milli * 1000000 := by
    have : (pad 3 d.milli ++ fixed 9 0).take 9 = fixed 3 d.milli ++ List.replicate 6 '0' := by
      rw [List.take_append, List.take_of_length_le (by omega), hlen, hp]
      rfl
    rw [fractionNanos, this, Nat.ofDigitChars_append, ofDigitChars_fixed (by omega),
      Nat.ofDigitChars_replicate_zero]
    omega
  have hf : readFraction ('.' :: (pad 3 d.milli ++ ['Z'])) = some (d.milli * 1000000, ['Z']) := by
    simp only [readFraction, htake, hdrop, if_neg hne, hval]
  exact readRfc3339_columns d (by omega) hf rfl

end Calendar
