import Markiro.Labels.Numbers
import Markiro.Lib.Results

/-!
# The amounts of an offer

`calculateOfferAmounts` of `offer-totals.ts` with the range check of `commercial-money-range.ts`.
Amounts are hundredths in doubles. A double is exact below `2 ^ 53` and stays at or above it
otherwise (`Near`), and every amount is checked against a bound far below before it goes on, so that
what is printed is exact.
-/

namespace Markiro.Offers

open Utf16 Results

/-! ## Doubles with an integer value -/

/-- The double nearest to a number, an even one between two, and `none` beyond the last. -/
def nearest (n : ℕ) : Option ℕ :=
  let unit := 2 ^ (n.log2 - 52)
  let up := unit < 2 * (n % unit) ∨ unit = 2 * (n % unit) ∧ n / unit % 2 = 1
  let m := (n / unit + if up then 1 else 0) * unit
  if m.log2 < 1024 then some m else none

/-- The result of an operation on doubles whose exact result is `z`; `none` is infinite. -/
def toDouble (z : ℤ) : Option ℤ := (nearest z.natAbs).map fun m : ℕ => z.sign * (m : ℤ)

theorem nearest_exact {n : ℕ} (h : n < 2 ^ 53) : nearest n = some n := by
  have hlog : n.log2 < 53 := by
    rcases Nat.eq_zero_or_pos n with rfl | hpos
    · decide
    · exact (Nat.log2_lt hpos.ne').2 h
  have hbits : n.log2 - 52 = 0 := by omega
  have hbound : n.log2 < 1024 := by omega
  unfold nearest
  simp only [hbits, pow_zero, Nat.mod_one, Nat.div_one]
  simpa using hbound

theorem le_nearest {n m : ℕ} (h : 2 ^ 53 ≤ n) (hm : nearest n = some m) : 2 ^ 53 ≤ m := by
  have hne : n ≠ 0 := by
    rintro rfl
    exact absurd h (by decide)
  have hlog : 53 ≤ n.log2 := (Nat.le_log2 hne).2 h
  have hquotient : 2 ^ 52 ≤ n / 2 ^ (n.log2 - 52) := by
    rw [Nat.le_div_iff_mul_le (Nat.two_pow_pos _), ← pow_add]
    exact (Nat.pow_le_pow_right Nat.two_pos (by omega)).trans (Nat.log2_self_le hne)
  unfold nearest at hm
  obtain ⟨-, hm⟩ := Option.ite_none_right_eq_some.1 hm
  obtain rfl := Option.some.inj hm
  calc 2 ^ 53 = 2 ^ 52 * 2 ^ 1 := by rw [← pow_add]
    _ ≤ _ := Nat.mul_le_mul (hquotient.trans (Nat.le_add_right _ _))
      (Nat.pow_le_pow_right Nat.two_pos (by omega))

/-- A double for a number: the number itself, or both are too large. -/
def Near (x : Option ℤ) (z : ℤ) : Prop := x = some z ∨ 2 ^ 53 ≤ z ∧ ∀ w ∈ x, 2 ^ 53 ≤ w

theorem toDouble_near {z : ℤ} (h : 0 ≤ z) : Near (toDouble z) z := by
  obtain ⟨n, rfl⟩ := Int.eq_ofNat_of_zero_le h
  unfold toDouble
  rw [Int.natAbs_natCast]
  rcases lt_or_ge n (2 ^ 53) with hlt | hge
  · rw [nearest_exact hlt]
    left
    rw [Option.map_some]
    congr 1
    have := Int.sign_mul_natAbs (n : ℤ)
    rwa [Int.natAbs_natCast] at this
  · refine .inr ⟨by exact_mod_cast hge, fun w hw => ?_⟩
    obtain ⟨m, hm, rfl⟩ := Option.map_eq_some_iff.1 hw
    have hpos : (0 : ℤ) < n := by
      have : 0 < n := lt_of_lt_of_le (by decide) hge
      exact_mod_cast this
    rw [Int.sign_eq_one_of_pos hpos, one_mul]
    exact_mod_cast le_nearest hge hm

/-- One operation after another. -/
theorem Near.then {x : Option ℤ} {z : ℤ} (h : Near x z) (f : ℤ → ℤ) (hf : ∀ w, 2 ^ 53 ≤ w → w ≤ f w)
    (hz : 0 ≤ f z) : Near (x.bind fun w => toDouble (f w)) (f z) := by
  rcases h with rfl | ⟨hlarge, hx⟩
  · exact toDouble_near hz
  · refine .inr ⟨hlarge.trans (hf z hlarge), fun w hw => ?_⟩
    obtain ⟨v, hv, hvw⟩ := Option.bind_eq_some_iff.1 hw
    have hfv := (hx v hv).trans (hf v (hx v hv))
    rcases toDouble_near ((by decide : (0 : ℤ) ≤ 2 ^ 53).trans hfv) with heq | ⟨-, hall⟩
    · exact Option.some.inj (heq.symm.trans hvw) ▸ hfv
    · exact hall w hvw

/-! ## Checks -/

inductive OfferError where
  | quantity | unitPrice | vatRateBps | commercialAmountOutOfRange | notInteger
  deriving DecidableEq

/-- PostgreSQL numeric(14,2). -/
def MAX_COMMERCIAL_MINOR : ℤ := 99999999999999

def assertCommercialMoneyRange (amount : ℤ) : Except OfferError Unit :=
  if amount < 0 ∨ MAX_COMMERCIAL_MINOR < amount then .error .commercialAmountOutOfRange else .ok ()

/-- The two checks of a calculated amount. -/
def checked : Option ℤ → Except OfferError ℤ
  | none => .error .commercialAmountOutOfRange
  | some value =>
    if isSafeInteger value then do
      assertCommercialMoneyRange value
      return value
    else .error .commercialAmountOutOfRange

def checkedMultiply (left right : ℤ) : Except OfferError ℤ := checked (toDouble (left * right))

def checkedAdd (left right : ℤ) : Except OfferError ℤ := checked (toDouble (left + right))

def InRange (z : ℤ) : Prop := 0 ≤ z ∧ z ≤ MAX_COMMERCIAL_MINOR

theorem guard_ok {α : Type} {c : Prop} [Decidable c] {e : OfferError} {a n : α} :
    (if c then Except.error e else .ok a) = .ok n ↔ n = a ∧ ¬c := by
  split
  · rename_i hc
    exact ⟨nofun, fun h => absurd hc h.2⟩
  · rename_i hc
    exact ⟨fun h => ⟨(Except.ok.inj h).symm, hc⟩, fun h => h.1 ▸ rfl⟩

theorem range_ok {z : ℤ} {u : Unit} : assertCommercialMoneyRange z = .ok u ↔ InRange z := by
  refine guard_ok.trans ⟨fun h => ?_, fun h => ⟨rfl, ?_⟩⟩
  all_goals
    unfold InRange at *
    omega

theorem checked_some {w z : ℤ} : checked (some w) = .ok z ↔ z = w ∧ InRange w := by
  unfold checked
  dsimp only
  constructor
  · intro h
    split at h
    · obtain ⟨_, hrange, h⟩ := bind_eq_ok.1 h
      exact ⟨(Except.ok.inj h).symm, range_ok.1 hrange⟩
    · exact nomatch h
  · rintro ⟨rfl, hrange⟩
    have hsafe : isSafeInteger (z : ℚ) = true := by
      have habs : |z| ≤ maxSafeInteger := by
        rw [abs_of_nonneg hrange.1]
        exact hrange.2.trans (by decide)
      exact decide_eq_true ⟨Rat.den_intCast z, by exact_mod_cast habs⟩
    rw [if_pos hsafe, (range_ok (u := ())).2 hrange]
    rfl

/-- **A checked amount is the exact one.** -/
theorem checked_near {x : Option ℤ} {z n : ℤ} (h : Near x z) (hz : 0 ≤ z) :
    checked x = .ok n ↔ n = z ∧ z ≤ MAX_COMMERCIAL_MINOR := by
  rcases h with rfl | ⟨hlarge, hx⟩
  · rw [checked_some]
    exact and_congr_right fun _ => ⟨And.right, fun h => ⟨hz, h⟩⟩
  · have hmax : MAX_COMMERCIAL_MINOR < 2 ^ 53 := by decide
    refine ⟨fun hok => ?_, fun hok => absurd hok.2 (by omega)⟩
    cases x with
    | none => exact nomatch hok
    | some w =>
      have := hx w rfl
      have := (checked_some.1 hok).2.2
      omega

theorem checkedMultiply_ok {a b : ℤ} (h : 0 ≤ a * b) (n : ℤ) :
    checkedMultiply a b = .ok n ↔ n = a * b ∧ a * b ≤ MAX_COMMERCIAL_MINOR :=
  checked_near (toDouble_near h) h

theorem checkedAdd_ok {a b : ℤ} (h : 0 ≤ a + b) (n : ℤ) :
    checkedAdd a b = .ok n ↔ n = a + b ∧ a + b ≤ MAX_COMMERCIAL_MINOR :=
  checked_near (toDouble_near h) h

/-! ## Prices -/

/-- `/^\d+(?:\.\d{1,2})?$/`. -/
def isPrice (value : Units) : Bool :=
  value.takeWhile isDigit ≠ [] &&
    match value.dropWhile isDigit with
    | [] => true
    | u :: fraction => u = 46 && fraction.all isDigit && (fraction.length = 1 || fraction.length = 2)

/-- The parts before and after the point, the second filled up to two digits. -/
def priceParts (value : Units) : Units × Units :=
  let fraction := (value.dropWhile (· ≠ 46)).drop 1
  (value.takeWhile (· ≠ 46), fraction ++ List.replicate (2 - fraction.length) 48)

def parseMinor (value : Units) : Except OfferError ℤ :=
  if isPrice value then
    let whole := toDouble (readNumber (priceParts value).1)
    let hundreds := whole.bind fun w => toDouble (w * 100)
    checked (hundreds.bind fun h => toDouble (h + readNumber (priceParts value).2))
  else .error .unitPrice

/-- The hundredths that a price names. -/
def minorOf (value : Units) : ℤ :=
  readNumber (priceParts value).1 * 100 + readNumber (priceParts value).2

theorem minorOf_nonneg (value : Units) : 0 ≤ minorOf value := by
  unfold minorOf
  omega

theorem parseMinor_ok {value : Units} (n : ℤ) : parseMinor value = .ok n ↔
    n = minorOf value ∧ isPrice value = true ∧ minorOf value ≤ MAX_COMMERCIAL_MINOR := by
  unfold parseMinor
  cases isPrice value with
  | false => exact ⟨nofun, fun h => nomatch h.2.1⟩
  | true =>
    have hwhole := toDouble_near (Int.natCast_nonneg (readNumber (priceParts value).1))
    have hhundreds := hwhole.then (· * 100) (fun w _ => by omega) (by omega)
    have hminor := hhundreds.then (· + readNumber (priceParts value).2) (fun w _ => by omega)
      (minorOf_nonneg value)
    rw [if_pos rfl]
    refine (checked_near hminor (minorOf_nonneg value)).trans ?_
    exact and_congr_right fun _ => ⟨fun h => ⟨rfl, h⟩, And.right⟩

/-- `Math.floor(minor / 100)` of an amount below `2 ^ 53`, whose quotient rounds to no next integer,
and the rest in two digits. -/
def money (minor : ℤ) : Units :=
  numeral (minor / 100).toNat ++ encode "." ++ (numeral (minor % 100).toNat).leftpad 2 48

theorem price_parts {s t : Units} (hs : ∀ u ∈ s, isDigit u = true) (hne : s ≠ [])
    (ht : ∀ u ∈ t, isDigit u = true) (hlen : t.length = 2) :
    isPrice (s ++ encode "." ++ t) = true ∧ priceParts (s ++ encode "." ++ t) = (s, t) := by
  have hpoint : encode "." = [46] := by decide
  have htext : s ++ encode "." ++ t = s ++ 46 :: t := by rw [hpoint, List.append_assoc]; rfl
  have hno : ∀ u ∈ s, decide (u ≠ 46) = true := fun u hu => decide_eq_true fun heq => by
    have := hs u hu
    rw [heq] at this
    exact absurd this (by decide)
  rw [htext]
  constructor
  · unfold isPrice
    rw [takeWhile_digits hs (by simp; decide), dropWhile_digits hs (by simp; decide)]
    simp [hne, hlen, List.all_eq_true.2 ht]
  · unfold priceParts
    rw [List.takeWhile_append_of_pos hno, List.dropWhile_append_of_pos hno]
    simp [hlen]

/-- **A printed amount is read back.** -/
theorem parseMinor_money {n : ℤ} (h : InRange n) : parseMinor (money n) = .ok n := by
  obtain ⟨hprice, hparts⟩ := @price_parts (numeral (n / 100).toNat)
    ((numeral (n % 100).toNat).leftpad 2 48) (numeral_isDigit _) (numeral_ne_nil _) leftpad_digits
    (by
      have := @numeral_length_le (n % 100).toNat 2 (by decide) (by omega)
      rw [List.leftpad, List.length_append, List.length_replicate]
      omega)
  have hminor : minorOf (money n) = n := by
    unfold minorOf money
    rw [hparts]
    dsimp only
    rw [readNumber_numeral, readNumber_leftpad]
    have := h.1
    omega
  exact (parseMinor_ok n).2 ⟨hminor.symm, hprice, hminor.symm ▸ h.2⟩

/-! ## Lines -/

/-- A number that is not finite is `none`, and a rate that is `null` is `none` too. -/
structure OfferTotalLine where
  quantity : Option ℚ
  unitPrice : Units
  vatRateBps : Option (Option ℚ)
  vatIncluded : Bool

structure LineAmounts where
  lineSubtotal : Units
  lineVat : Units
  lineTotal : Units

structure Sums where
  subtotalMinor : ℤ
  vatMinor : ℤ
  totalMinor : ℤ

/-- The amounts of an offer; the currency is always `RUB`. -/
structure OfferAmounts where
  subtotal : Units
  vatTotal : Units
  total : Units
  lines : List LineAmounts

def checkQuantity : Option ℚ → Except OfferError ℤ
  | some q => if isSafeInteger q = false ∨ q ≤ 0 then .error .quantity else .ok q.num
  | none => .error .quantity

/-- `BigInt(line.vatRateBps ?? 0)` after the check of the rate. -/
def checkRate : Option (Option ℚ) → Except OfferError ℤ
  | none => .ok 0
  | some (some q) =>
    if isSafeInteger q = false ∨ q < 0 ∨ 10000 < q then .error .vatRateBps else .ok q.num
  | some none => .error .vatRateBps

/-- `BigInt(value)`. -/
def toBigInt : Option ℤ → Except OfferError ℤ
  | some n => .ok n
  | none => .error .notInteger

/-- The tax of a base, halves up. -/
def vatOf (base rate denominator : ℤ) : ℤ :=
  (base * rate + denominator.tdiv 2).tdiv denominator

def lineAmounts (sums : Sums) (line : OfferTotalLine) : Except OfferError (LineAmounts × Sums) := do
  let quantity ← checkQuantity line.quantity
  let unitMinor ← parseMinor line.unitPrice
  let rate ← checkRate line.vatRateBps
  let base ← checkedMultiply unitMinor quantity
  let denominator := if line.vatIncluded then 10000 + rate else 10000
  let vat ← toBigInt (toDouble (vatOf base rate denominator))
  assertCommercialMoneyRange vat
  -- the difference of two amounts in the range is exact
  let subtotal := if line.vatIncluded then base - vat else base
  let total ← checkedAdd subtotal vat
  let subtotalMinor ← checkedAdd sums.subtotalMinor subtotal
  let vatMinor ← checkedAdd sums.vatMinor vat
  let totalMinor ← checkedAdd sums.totalMinor total
  return (⟨money subtotal, money vat, money total⟩, ⟨subtotalMinor, vatMinor, totalMinor⟩)

def mapLines : Sums → List OfferTotalLine → Except OfferError (List LineAmounts × Sums)
  | sums, [] => .ok ([], sums)
  | sums, line :: lines => do
    let (amounts, sums) ← lineAmounts sums line
    let (rest, sums) ← mapLines sums lines
    return (amounts :: rest, sums)

def calculateOfferAmounts (lines : List OfferTotalLine) : Except OfferError OfferAmounts := do
  let (amounts, sums) ← mapLines ⟨0, 0, 0⟩ lines
  return ⟨money sums.subtotalMinor, money sums.vatMinor, money sums.totalMinor, amounts⟩

/-! ## Exact amounts -/

namespace OfferTotalLine

variable (line : OfferTotalLine)

def units : ℤ := (line.quantity.getD 0).num

def rate : ℤ := ((line.vatRateBps.getD (some 0)).getD 0).num

/-- The price of the line, its tax included or not. -/
def base : ℤ := minorOf line.unitPrice * line.units

def denominator : ℤ := if line.vatIncluded then 10000 + line.rate else 10000

/-- The tax to the nearest hundredth, halves up. -/
def vat : ℤ := mathRound ((line.base * line.rate : ℚ) / line.denominator)

def subtotal : ℤ := if line.vatIncluded then line.base - line.vat else line.base

def total : ℤ := if line.vatIncluded then line.base else line.base + line.vat

def printed : LineAmounts := ⟨money line.subtotal, money line.vat, money line.total⟩

/-- The quantity is a positive safe integer, the rate null or up to 10000, the price a decimal. -/
structure Valid : Prop where
  quantity : ∃ q ∈ line.quantity, isSafeInteger q = true ∧ 0 < q
  rate : ∀ r ∈ line.vatRateBps, ∃ q ∈ r, isSafeInteger q = true ∧ 0 ≤ q ∧ q ≤ 10000
  price : isPrice line.unitPrice = true

/-- Every amount of the line is in the range. -/
structure Fits : Prop where
  unit : minorOf line.unitPrice ≤ MAX_COMMERCIAL_MINOR
  base : line.base ≤ MAX_COMMERCIAL_MINOR
  vat : line.vat ≤ MAX_COMMERCIAL_MINOR
  total : line.total ≤ MAX_COMMERCIAL_MINOR

end OfferTotalLine

theorem mathRound_div {x d : ℤ} (hx : 0 ≤ x) (hd : 0 < d) :
    (x + d.tdiv 2).tdiv d = mathRound ((x : ℚ) / d) := by
  have hhalf : d.tdiv 2 = d / 2 := Int.tdiv_eq_ediv_of_nonneg hd.le
  rw [hhalf, Int.tdiv_eq_ediv_of_nonneg (by omega)]
  have hle := Int.mul_ediv_self_le (x := x + d / 2) hd.ne'
  have hlt := Int.lt_mul_ediv_self_add (x := x + d / 2) hd
  generalize (x + d / 2) / d = q at hle hlt
  symm
  have hdq : (0 : ℚ) < d := by exact_mod_cast hd
  have hlow : (2 * (d * q) : ℚ) ≤ 2 * x + d := by
    have : 2 * (d * q) ≤ 2 * x + d := by omega
    exact_mod_cast this
  have hhigh : (2 * x + d : ℚ) < 2 * (d * q) + 2 * d := by
    have : 2 * x + d < 2 * (d * q) + 2 * d := by omega
    exact_mod_cast this
  refine Int.floor_eq_iff.2 ⟨?_, ?_⟩
  · rw [← sub_le_iff_le_add, le_div_iff₀ hdq]
    linarith
  · rw [← lt_sub_iff_add_lt, div_lt_iff₀ hdq]
    linarith

theorem checkQuantity_ok {q : Option ℚ} (n : ℤ) : checkQuantity q = .ok n ↔
    n = (q.getD 0).num ∧ ∃ x ∈ q, isSafeInteger x = true ∧ 0 < x := by
  cases q with
  | none => exact ⟨nofun, fun ⟨_, _, h, _⟩ => nomatch h⟩
  | some q =>
    refine guard_ok.trans (and_congr_right fun _ => ?_)
    simp

theorem checkRate_ok {r : Option (Option ℚ)} (n : ℤ) : checkRate r = .ok n ↔
    n = ((r.getD (some 0)).getD 0).num ∧
      ∀ o ∈ r, ∃ x ∈ o, isSafeInteger x = true ∧ 0 ≤ x ∧ x ≤ 10000 := by
  match r with
  | none => exact ⟨fun h => ⟨(Except.ok.inj h).symm, nofun⟩, fun h => h.1 ▸ rfl⟩
  | some none => exact ⟨nofun, fun h => (h.2 none rfl).elim fun _ hx => nomatch hx.1⟩
  | some (some q) =>
    refine guard_ok.trans (and_congr_right fun _ => ?_)
    simp

/-! ## The calculation -/

namespace OfferTotalLine

variable {line : OfferTotalLine}

theorem Valid.units_pos (h : line.Valid) : 0 < line.units := by
  obtain ⟨q, hq, -, hpos⟩ := h.quantity
  unfold units
  rw [Option.mem_def.1 hq]
  exact Rat.num_pos.2 hpos

theorem Valid.rate_nonneg (h : line.Valid) : 0 ≤ line.rate := by
  unfold OfferTotalLine.rate
  cases hrate : line.vatRateBps with
  | none => decide
  | some r =>
    obtain ⟨q, hq, -, hle, -⟩ := h.rate r hrate
    rw [Option.getD_some, Option.mem_def.1 hq]
    exact Rat.num_nonneg.2 hle

theorem Valid.base_nonneg (h : line.Valid) : 0 ≤ line.base :=
  mul_nonneg (minorOf_nonneg _) h.units_pos.le

theorem Valid.denominator_pos (h : line.Valid) : 0 < line.denominator := by
  have := h.rate_nonneg
  unfold denominator
  split <;> omega

theorem Valid.vat_eq (h : line.Valid) :
    vatOf line.base line.rate line.denominator = line.vat := by
  unfold vatOf vat
  rw [mathRound_div (mul_nonneg h.base_nonneg h.rate_nonneg) h.denominator_pos, Int.cast_mul]

theorem Valid.vat_nonneg (h : line.Valid) : 0 ≤ line.vat := by
  have hx := mul_nonneg h.base_nonneg h.rate_nonneg
  have hd := h.denominator_pos
  rw [← h.vat_eq, vatOf]
  exact Int.tdiv_nonneg (add_nonneg hx (Int.tdiv_nonneg hd.le (by decide))) hd.le

/-- The tax that a price includes is no more than the price. -/
theorem Valid.subtotal_nonneg (h : line.Valid) : 0 ≤ line.subtotal := by
  have hbase := h.base_nonneg
  unfold subtotal
  split
  · rename_i hincluded
    have hd := h.denominator_pos
    have hle : line.base * line.rate + line.denominator.tdiv 2 <
        (line.base + 1) * line.denominator := by
      have hdenominator : line.denominator = 10000 + line.rate := if_pos hincluded
      have hhalf : line.denominator.tdiv 2 < line.denominator := by
        rw [Int.tdiv_eq_ediv_of_nonneg hd.le]
        omega
      nlinarith
    have hlt := Int.ediv_lt_of_lt_mul hd hle
    rw [← h.vat_eq, vatOf, Int.tdiv_eq_ediv_of_nonneg (add_nonneg
      (mul_nonneg hbase h.rate_nonneg) (Int.tdiv_nonneg hd.le (by decide)))]
    omega
  · exact hbase

theorem subtotal_add_vat : line.subtotal + line.vat = line.total := by
  unfold subtotal total
  split <;> omega

theorem Valid.total_nonneg (h : line.Valid) : 0 ≤ line.total :=
  subtotal_add_vat ▸ add_nonneg h.subtotal_nonneg h.vat_nonneg

end OfferTotalLine

namespace Sums

def columns (lines : List OfferTotalLine) : Sums :=
  ⟨(lines.map (·.subtotal)).sum, (lines.map (·.vat)).sum, (lines.map (·.total)).sum⟩

def add (s t : Sums) : Sums :=
  ⟨s.subtotalMinor + t.subtotalMinor, s.vatMinor + t.vatMinor, s.totalMinor + t.totalMinor⟩

structure InRange (s : Sums) : Prop where
  subtotal : Offers.InRange s.subtotalMinor
  vat : Offers.InRange s.vatMinor
  total : Offers.InRange s.totalMinor

theorem columns_cons (line : OfferTotalLine) (lines : List OfferTotalLine) :
    columns (line :: lines) = add (columns [line]) (columns lines) := by
  simp [columns, add]

theorem add_nil (s : Sums) : s.add (columns []) = s := by
  simp [columns, add]

theorem nil_add (s : Sums) : (columns []).add s = s := by
  simp [columns, add]

theorem add_assoc (s t u : Sums) : (s.add t).add u = s.add (t.add u) := by
  simp [add, Int.add_assoc]

end Sums

/-- A step that succeeds with one value under one condition. -/
theorem step_iff {α β ε : Type} {x : Except ε α} {z : α} {P : Prop} (hx : ∀ n, x = .ok n ↔ n = z ∧ P)
    {f : α → Except ε β} {out : β} : (x >>= f) = .ok out ↔ P ∧ f z = .ok out := by
  rw [bind_eq_ok]
  constructor
  · rintro ⟨n, hn, hout⟩
    obtain ⟨rfl, hP⟩ := (hx n).1 hn
    exact ⟨hP, hout⟩
  · exact fun h => ⟨z, (hx z).2 ⟨rfl, h.1⟩, h.2⟩

/-- The tax through a double into a big integer, and its check. -/
theorem vat_iff {α : Type} {v : ℤ} (hv : 0 ≤ v) {f : ℤ → Except OfferError α} {out : α} :
    (do
      let vat ← toBigInt (toDouble v)
      assertCommercialMoneyRange vat
      f vat) = .ok out ↔ v ≤ MAX_COMMERCIAL_MINOR ∧ f v = .ok out := by
  rcases toDouble_near hv with heq | ⟨hlarge, hall⟩
  · rw [heq]
    exact @step_iff _ _ _ (assertCommercialMoneyRange v) () (v ≤ MAX_COMMERCIAL_MINOR)
      (fun _ => range_ok.trans ⟨fun h => ⟨rfl, h.2⟩, fun h => ⟨hv, h.2⟩⟩) (fun _ => f v) out
  · have hmax : MAX_COMMERCIAL_MINOR < 2 ^ 53 := by decide
    refine ⟨fun h => ?_, fun h => absurd h.1 (by omega)⟩
    obtain ⟨w, hw, h⟩ := bind_eq_ok.1 h
    obtain ⟨_, hrange, -⟩ := bind_eq_ok.1 h
    cases hx : toDouble v with
    | none =>
      rw [hx] at hw
      exact nomatch hw
    | some x =>
      rw [hx] at hw
      obtain rfl := Except.ok.inj hw
      have := hall x hx
      have := (range_ok.1 hrange).2
      omega

theorem sums_ok {sums : Sums} (hs : sums.InRange) {line : OfferTotalLine} (hv : line.Valid)
    {out : LineAmounts × Sums} : (do
      let total ← checkedAdd line.subtotal line.vat
      let subtotalMinor ← checkedAdd sums.subtotalMinor line.subtotal
      let vatMinor ← checkedAdd sums.vatMinor line.vat
      let totalMinor ← checkedAdd sums.totalMinor total
      return (⟨money line.subtotal, money line.vat, money total⟩,
        ⟨subtotalMinor, vatMinor, totalMinor⟩) : Except OfferError (LineAmounts × Sums)) = .ok out ↔
      line.total ≤ MAX_COMMERCIAL_MINOR ∧ (sums.add (.columns [line])).InRange ∧
        out = (line.printed, sums.add (.columns [line])) := by
  have hsubtotal := add_nonneg hs.subtotal.1 hv.subtotal_nonneg
  have hvat := add_nonneg hs.vat.1 hv.vat_nonneg
  have htotal := add_nonneg hs.total.1 hv.total_nonneg
  have hsum := line.subtotal_add_vat
  have hcolumns : Sums.columns [line] = ⟨line.subtotal, line.vat, line.total⟩ := by
    simp [Sums.columns]
  rw [step_iff (checkedAdd_ok (hsum ▸ hv.total_nonneg)), step_iff (checkedAdd_ok hsubtotal),
    step_iff (checkedAdd_ok hvat), hsum, step_iff (checkedAdd_ok htotal), pure_eq_ok, hcolumns]
  constructor
  · rintro ⟨h, hs, hv, ht, rfl⟩
    exact ⟨h, ⟨⟨hsubtotal, hs⟩, ⟨hvat, hv⟩, ⟨htotal, ht⟩⟩, rfl⟩
  · rintro ⟨h, hr, rfl⟩
    exact ⟨h, hr.subtotal.2, hr.vat.2, hr.total.2, rfl⟩

/-- **A line is taken exactly where all its amounts, and the sums with them, are in the range.** -/
theorem lineAmounts_ok {sums : Sums} (hs : sums.InRange) {line : OfferTotalLine}
    {out : LineAmounts × Sums} : lineAmounts sums line = .ok out ↔
      line.Valid ∧ line.Fits ∧ (sums.add (.columns [line])).InRange ∧
        out = (line.printed, sums.add (.columns [line])) := by
  unfold lineAmounts
  rw [step_iff (z := line.units) checkQuantity_ok, step_iff parseMinor_ok,
    step_iff (z := line.rate) checkRate_ok]
  by_cases hv : line.Valid
  · have hvat : vatOf (minorOf line.unitPrice * line.units) line.rate
        (if line.vatIncluded then 10000 + line.rate else 10000) = line.vat := hv.vat_eq
    rw [step_iff (checkedMultiply_ok hv.base_nonneg), vat_iff (hvat ▸ hv.vat_nonneg), hvat]
    refine (and_congr_right fun _ => and_congr_right fun _ => and_congr_right fun _ =>
      and_congr_right fun _ => and_congr_right fun _ => sums_ok hs hv).trans ?_
    constructor
    · rintro ⟨-, ⟨-, hunit⟩, -, hbase, hle, htotal, h⟩
      exact ⟨hv, ⟨hunit, hbase, hle, htotal⟩, h⟩
    · rintro ⟨-, hfits, h⟩
      exact ⟨hv.quantity, ⟨hv.price, hfits.unit⟩, hv.rate, hfits.base, hfits.vat, hfits.total, h⟩
  · exact ⟨fun h => absurd ⟨h.1, h.2.2.1, h.2.1.1⟩ hv, fun h => absurd h.1 hv⟩

def RunningSums (sums : Sums) (lines : List OfferTotalLine) : Prop :=
  ∀ first, first <+: lines → (sums.add (.columns first)).InRange

theorem runningSums_cons {sums : Sums} (hs : sums.InRange) {line : OfferTotalLine}
    {lines : List OfferTotalLine} : RunningSums sums (line :: lines) ↔
      RunningSums (sums.add (.columns [line])) lines := by
  constructor
  · intro h first hfirst
    rw [Sums.add_assoc, ← Sums.columns_cons]
    exact h _ (List.cons_prefix_cons.2 ⟨rfl, hfirst⟩)
  · intro h first hfirst
    cases first with
    | nil => rwa [Sums.add_nil]
    | cons l first =>
      obtain ⟨rfl, hrest⟩ := List.cons_prefix_cons.1 hfirst
      rw [Sums.columns_cons, ← Sums.add_assoc]
      exact h _ hrest

theorem mapLines_ok {lines : List OfferTotalLine} {sums : Sums} (hs : sums.InRange)
    {out : List LineAmounts × Sums} : mapLines sums lines = .ok out ↔
      (∀ line ∈ lines, line.Valid ∧ line.Fits) ∧ RunningSums sums lines ∧
        out = (lines.map (·.printed), sums.add (.columns lines)) := by
  induction lines generalizing sums out with
  | nil =>
    have hrunning : RunningSums sums [] := fun first hfirst => by
      rwa [List.prefix_nil.1 hfirst, Sums.add_nil]
    rw [Sums.add_nil]
    exact ⟨fun h => ⟨nofun, hrunning, (Except.ok.inj h).symm⟩, fun h => h.2.2 ▸ rfl⟩
  | cons line lines ih =>
    rw [mapLines, bind_eq_ok, List.forall_mem_cons, runningSums_cons hs, Sums.columns_cons line lines,
      ← Sums.add_assoc]
    constructor
    · rintro ⟨_, hline, h⟩
      obtain ⟨hvalid, hfits, hnext, rfl⟩ := (lineAmounts_ok hs).1 hline
      obtain ⟨_, hrest, h⟩ := bind_eq_ok.1 h
      obtain ⟨hall, hrunning, rfl⟩ := (ih hnext).1 hrest
      exact ⟨⟨⟨hvalid, hfits⟩, hall⟩, hrunning, (pure_eq_ok.1 h).symm⟩
    · rintro ⟨⟨⟨hvalid, hfits⟩, hall⟩, hrunning, rfl⟩
      have hnext := hrunning [] List.nil_prefix
      rw [Sums.add_nil] at hnext
      refine ⟨_, (lineAmounts_ok hs).2 ⟨hvalid, hfits, hnext, rfl⟩, ?_⟩
      exact bind_eq_ok.2 ⟨_, (ih hnext).2 ⟨hall, hrunning, rfl⟩, rfl⟩

theorem calculateOfferAmounts_ok {lines : List OfferTotalLine} {out : OfferAmounts} :
    calculateOfferAmounts lines = .ok out ↔
      (∀ line ∈ lines, line.Valid ∧ line.Fits) ∧ RunningSums (.columns []) lines ∧
        out = ⟨money (Sums.columns lines).subtotalMinor, money (Sums.columns lines).vatMinor,
          money (Sums.columns lines).totalMinor, lines.map (·.printed)⟩ := by
  have hzero : InRange 0 := ⟨le_rfl, by decide⟩
  have hmap := fun out => @mapLines_ok lines (.columns []) ⟨hzero, hzero, hzero⟩ out
  rw [Sums.nil_add] at hmap
  unfold calculateOfferAmounts
  rw [bind_eq_ok]
  constructor
  · rintro ⟨_, hlines, h⟩
    obtain ⟨hall, hrunning, rfl⟩ := (hmap _).1 hlines
    exact ⟨hall, hrunning, (pure_eq_ok.1 h).symm⟩
  · rintro ⟨hall, hrunning, rfl⟩
    exact ⟨_, (hmap _).2 ⟨hall, hrunning, rfl⟩, rfl⟩

/-- **Offer amounts are exact.** -/
theorem offer_amounts_exact (lines : List OfferTotalLine) :
    ((∃ out, calculateOfferAmounts lines = .ok out) ↔
      (∀ line ∈ lines, line.Valid ∧ line.Fits) ∧ RunningSums (.columns []) lines) ∧
    ∀ out, calculateOfferAmounts lines = .ok out →
      out.lines = lines.map (·.printed) ∧
      (∀ line ∈ lines, line.subtotal + line.vat = line.total ∧
        (line.vatIncluded = true → line.total = line.base) ∧
        (line.vatIncluded = false → line.subtotal = line.base) ∧
        parseMinor line.printed.lineSubtotal = .ok line.subtotal ∧
        parseMinor line.printed.lineVat = .ok line.vat ∧
        parseMinor line.printed.lineTotal = .ok line.total) ∧
      parseMinor out.subtotal = .ok (lines.map (·.subtotal)).sum ∧
      parseMinor out.vatTotal = .ok (lines.map (·.vat)).sum ∧
      parseMinor out.total = .ok (lines.map (·.total)).sum := by
  constructor
  · constructor
    · rintro ⟨out, h⟩
      have := calculateOfferAmounts_ok.1 h
      exact ⟨this.1, this.2.1⟩
    · exact fun h => ⟨_, calculateOfferAmounts_ok.2 ⟨h.1, h.2, rfl⟩⟩
  · intro out h
    obtain ⟨hall, hrunning, rfl⟩ := calculateOfferAmounts_ok.1 h
    refine ⟨rfl, fun line hline => ?_, ?_⟩
    · obtain ⟨hvalid, hfits⟩ := hall line hline
      have hsum := line.subtotal_add_vat
      have hvat := hvalid.vat_nonneg
      have hsubtotal : InRange line.subtotal :=
        ⟨hvalid.subtotal_nonneg, by have := hfits.total; omega⟩
      exact ⟨hsum, fun h => if_pos h, fun h => if_neg (by simp [h]), parseMinor_money hsubtotal,
        parseMinor_money ⟨hvat, hfits.vat⟩, parseMinor_money ⟨hvalid.total_nonneg, hfits.total⟩⟩
    · have hsums := hrunning lines List.prefix_rfl
      rw [Sums.nil_add] at hsums
      exact ⟨parseMinor_money hsums.subtotal, parseMinor_money hsums.vat,
        parseMinor_money hsums.total⟩

end Markiro.Offers
