import Markiro.Domain.Gs1

/-!
# Numbers and their texts

What `Number(text)` reads and what a template writes of a number, in exact arithmetic: a number is a
rational, and one with finitely many decimals has a text.
-/

namespace Markiro

open Utf16

/-! ## Reading -/

def readSign : Units → Bool × Units
  | [] => (false, [])
  | u :: rest => if u = 45 then (true, rest) else if u = 43 then (false, rest) else (false, u :: rest)

/-- The exponent part of a decimal literal. -/
def readExponent : Units → Option ℤ
  | [] => some 0
  | u :: rest =>
    if u = 101 ∨ u = 69 then
      let (negative, digits) := readSign rest
      if digits = [] ∨ digits.all isDigit = false then none
      else some (if negative then -(readNumber digits : ℤ) else readNumber digits)
    else none

/-- The fraction part of a decimal literal and what follows it. -/
def readFraction : Units → Units × Units
  | [] => ([], [])
  | u :: rest => if u = 46 then (rest.takeWhile isDigit, rest.dropWhile isDigit) else ([], u :: rest)

/-- A decimal literal without a sign. -/
def readDecimal (s : Units) : Option ℚ :=
  let whole := s.takeWhile isDigit
  let (fraction, rest) := readFraction (s.dropWhile isDigit)
  if whole = [] ∧ fraction = [] then none
  else (readExponent rest).map fun e =>
    (readNumber (whole ++ fraction) : ℚ) * (10 : ℚ) ^ (e - (fraction.length : ℤ))

def hexValue (u : UInt16) : Option ℕ :=
  if isDigit u then some (digitOf u)
  else if 65 ≤ u ∧ u ≤ 70 then some (u.toNat - 55)
  else if 97 ≤ u ∧ u ≤ 102 then some (u.toNat - 87)
  else none

/-- The base that `0x`, `0o` or `0b` announces. -/
def radixOf (s : Units) : Option ℕ :=
  match s with
  | 48 :: u :: _ =>
    if u = 120 ∨ u = 88 then some 16
    else if u = 111 ∨ u = 79 then some 8
    else if u = 98 ∨ u = 66 then some 2
    else none
  | _ => none

/-- A whole number in a base. -/
def readRadix (base : ℕ) (digits : Units) : Option ℚ :=
  let values := digits.map hexValue
  if digits = [] ∨ values.any (fun v => v.all fun d => decide (base ≤ d)) then none
  else some (values.foldl (fun n v => n * base + v.getD 0) 0 : ℕ)

/-- `Number(text)` where it is finite. -/
def numberOf (text : Units) : Option ℚ :=
  let s := ecmaTrim text
  if s = [] then some 0
  else
    match radixOf s with
    | some base => readRadix base (s.drop 2)
    | none =>
      let (negative, digits) := readSign s
      (readDecimal digits).map fun q => if negative then -q else q

/-! ## Writing -/

/-- How many decimals a number has, when they are finitely many. -/
def decimals (q : ℚ) : Option ℕ :=
  (List.range (Nat.log2 q.den + 1)).find? fun k => decide (10 ^ k % q.den = 0)

def exponentText (m k : ℕ) : Units :=
  let digits := (numeral m).rdropWhile (· = 48)
  let exponent : ℤ := ((numeral m).length : ℤ) - k - 1
  digits.take 1 ++ (if digits.length = 1 then [] else encode "." ++ digits.drop 1) ++ encode "e" ++
    (if exponent < 0 then encode "-" else encode "+") ++ numeral exponent.natAbs

/-- A number not below 0: `m` has its digits, `k` of them decimals. From `1e21` on and below `1e-6`
it has an exponent. -/
def unsignedText (m k : ℕ) : Units :=
  if m = 0 ∨ m < 10 ^ (21 + k) ∧ 10 ^ k ≤ m * 10 ^ 6 then
    if k = 0 then numeral m
    else numeral (m / 10 ^ k) ++ encode "." ++ (numeral (m % 10 ^ k)).leftpad k 48
  else exponentText m k

/-- The text of a number with finitely many decimals, as all numbers of the language have. -/
def numberText (q : ℚ) : Units :=
  match decimals q with
  | none => []
  | some k =>
    (if q < 0 then encode "-" else []) ++ unsignedText (q.num.natAbs * (10 ^ k / q.den)) k

/-- `Math.round`: halves go up. -/
def mathRound (q : ℚ) : ℤ := ⌊q + 1 / 2⌋

def maxSafeInteger : ℕ := 2 ^ 53 - 1

def isSafeInteger (q : ℚ) : Bool := decide (q.den = 1 ∧ |q| ≤ maxSafeInteger)

end Markiro
