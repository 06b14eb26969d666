import Markiro.Host.License
import Markiro.Sscc.Codec

/-!
# The taxpayer number

`isValidInn` and `normalizeInn` of `inn.ts`, which the host's `inn.rs` ports. The two give one
answer for every text. A changed digit shows, unless it takes the weighed sum from 0 to 10 modulo 11
or back: both remainders give the check digit 0.
-/

namespace Markiro

open Utf16

/-! ## The cloud's functions -/

def innTen : List ℕ := [2, 4, 10, 3, 5, 9, 4, 6, 8]

def innTwelveFirst : List ℕ := [7, 2, 4, 10, 3, 5, 9, 4, 6, 8]

def innTwelveSecond : List ℕ := [3, 7, 2, 4, 10, 3, 5, 9, 4, 6, 8]

/-- The sum of the digits under the weights; a digit that is missing counts 0. -/
def innSum (digits weights : List ℕ) : ℕ :=
  (weights.mapIdx fun index weight => weight * digits.getD index 0).sum

def innCheck (digits weights : List ℕ) : ℕ := innSum digits weights % 11 % 10

/-- Exactly 10 or 12 digits whose check digits hold; nothing is trimmed. -/
def isValidInn (value : Units) : Bool :=
  (isDigits 10 value || isDigits 12 value) &&
    let digits := value.map digitOf
    if digits.length = 10 then innCheck digits innTen == digits.getD 9 0
    else innCheck digits innTwelveFirst == digits.getD 10 0 &&
      innCheck digits innTwelveSecond == digits.getD 11 0

def normalizeInn (value : Units) : Option Units :=
  let trimmed := ecmaTrim value
  if isValidInn trimmed then some trimmed else none

/-! ## One answer -/

theorem innSum_cons (digits weights : List ℕ) (d w : ℕ) :
    innSum (d :: digits) (w :: weights) = w * d + innSum digits weights := by
  rw [innSum, List.mapIdx_cons, List.sum_cons]
  rfl

theorem innSum_zip (digits weights : List ℕ) :
    innSum digits weights = ((weights.zip digits).map fun x => x.1 * x.2).sum := by
  induction weights generalizing digits with
  | nil => rfl
  | cons w weights ih =>
    cases digits with
    | nil =>
      have hzero : ∀ ws : List ℕ, innSum [] ws = 0 := by
        intro ws
        rw [innSum, List.sum_eq_zero]
        intro x hx
        obtain ⟨i, _, rfl⟩ := List.mem_mapIdx.1 hx
        simp
      rw [hzero, List.zip_nil_right]
      rfl
    | cons d digits => rw [innSum_cons, ih, List.zip_cons_cons, List.map_cons, List.sum_cons]

theorem innCheck_eq (digits weights : List ℕ) :
    innCheck digits weights = License.innCheckDigit digits weights := by
  rw [innCheck, innSum_zip, License.innCheckDigit]

theorem innIsValid_eq (value : String) : License.innIsValid value = isValidInn (encode value) := by
  by_cases hall : ∀ c ∈ value.toList, c.isDigit = true
  · have hunits : encode value = value.toList.map unitOf := encodeChars_digits hall
    have hdigits : (encode value).all isDigit = true := by
      rw [hunits, List.all_map, List.all_eq_true]
      exact fun c hc => isDigit_unitOf (hall c hc)
    have hvalues : (encode value).map digitOf = value.toList.map fun c => c.toNat - '0'.toNat := by
      rw [hunits, List.map_map]
      exact List.map_congr_left fun c hc => digitOf_unitOf (hall c hc)
    have hlength : (encode value).length = value.toList.length := by rw [hunits, List.length_map]
    rw [License.innIsValid, isValidInn, isDigits, isDigits, hdigits, hvalues,
      List.all_eq_true.2 hall, hlength]
    simp only [List.length_map, Bool.and_true, Bool.true_and, innCheck_eq]
    split
    · next h => simp [h, innTen]
    · next h => simp [h, innTwelveFirst, innTwelveSecond]
    · next h10 h12 =>
      have h10 : value.toList.length ≠ 10 := h10
      have h12 : value.toList.length ≠ 12 := h12
      simp [h10, h12]
  · have hrust : value.toList.all Char.isDigit = false := by
      rw [Bool.eq_false_iff]
      exact fun h => hall (List.all_eq_true.1 h)
    have hcloud : (encode value).all isDigit = false := by
      rw [Bool.eq_false_iff]
      intro h
      obtain ⟨ps, hps, heq⟩ := exists_digits (List.all_eq_true.1 h)
      rw [encode] at heq
      exact hall (encodeChars_injective heq ▸ hps)
    rw [License.innIsValid, hrust, isValidInn, isDigits, isDigits, hcloud, Bool.and_false,
      Bool.and_false]
    rfl

theorem digit_not_blank {u : UInt16} (h : isDigit u = true) : isEcmaWhitespace u = false := by
  simp only [isDigit, Bool.and_eq_true, decide_eq_true_eq, UInt16.le_iff_toNat_le] at h
  have hlow : 48 ≤ u.toNat := h.1
  have hhigh : u.toNat ≤ 57 := h.2
  rw [Bool.eq_false_iff]
  simp only [isEcmaWhitespace, ne_eq, Bool.or_eq_true, Bool.and_eq_true, decide_eq_true_eq,
    beq_iff_eq]
  omega

/-- **The two normalizations agree.** Of every text, the host and the cloud make the same INN or
none, and the INN they make is its own normal form. -/
theorem inn_ports_agree (value : String) :
    (License.normalizeInn value).map encode = normalizeInn (encode value) ∧
    ∀ inn, License.normalizeInn value = some inn → License.normalizeInn inn = some inn := by
  have heq (s : String) : License.normalizeInn s =
      if License.innIsValid (hostTrim s) then some (hostTrim s) else none := rfl
  refine ⟨?_, fun inn h => ?_⟩
  · rw [heq, normalizeInn, ecmaTrim_encode, innIsValid_eq]
    split
    · rfl
    · rfl
  · rw [heq] at h
    obtain ⟨hvalid, hsome⟩ := Option.ite_none_right_eq_some.1 h
    obtain rfl := Option.some.inj hsome
    -- An INN has digits only, so nothing of it is trimmed.
    have hunits : ecmaTrim (encode (hostTrim value)) = encode (hostTrim value) := by
      rw [innIsValid_eq, isValidInn, Bool.and_eq_true, Bool.or_eq_true, isDigits_iff,
        isDigits_iff] at hvalid
      have hdigits : ∀ u ∈ encode (hostTrim value), isEcmaWhitespace u = false := fun u hu =>
        digit_not_blank (hvalid.1.elim (fun h => h.2 u hu) fun h => h.2 u hu)
      exact trimBy_eq_self ⟨fun u hu => hdigits u (List.mem_of_mem_head? hu),
        fun u hu => hdigits u (List.mem_of_getLast? hu)⟩
    have hself : hostTrim (hostTrim value) = hostTrim value := by
      rw [ecmaTrim_encode] at hunits
      exact String.toList_injective (encodeChars_injective hunits)
    rw [heq, hself, if_pos hvalid]

/-! ## A changed digit -/

/-- The weighed sums that the check digits of an INN of this length are made of. -/
def innWeights (length : ℕ) : List (List ℕ) :=
  if length = 10 then [innTen] else [innTwelveFirst, innTwelveSecond]

theorem innSum_change {l m weights : List ℕ} (hlt : l.length < weights.length) :
    ∃ rest, ∃ w ∈ weights, ∀ y, innSum (l ++ y :: m) weights = rest + w * y := by
  induction l generalizing weights with
  | nil =>
    cases weights with
    | nil => exact absurd hlt (Nat.not_lt_zero _)
    | cons w weights =>
      exact ⟨innSum m weights, w, List.mem_cons_self, fun y => by
        rw [List.nil_append, innSum_cons, Nat.add_comm]⟩
  | cons a l ih =>
    cases weights with
    | nil => exact absurd hlt (Nat.not_lt_zero _)
    | cons v weights =>
      obtain ⟨rest, w, hw, hsum⟩ := ih (Nat.lt_of_succ_lt_succ hlt)
      exact ⟨v * a + rest, w, List.mem_cons_of_mem _ hw, fun y => by
        rw [List.cons_append, innSum_cons, hsum, Nat.add_assoc]⟩

theorem innSum_beyond {l weights : List ℕ} (hle : weights.length ≤ l.length) (m m' : List ℕ) :
    innSum (l ++ m) weights = innSum (l ++ m') weights := by
  induction weights generalizing l with
  | nil => rfl
  | cons w weights ih =>
    cases l with
    | nil => exact absurd hle (Nat.not_succ_le_zero _)
    | cons a l =>
      rw [List.cons_append, List.cons_append, innSum_cons, innSum_cons,
        ih (Nat.le_of_succ_le_succ hle)]

/-- Where two numbers of one check digit differ in one digit, it is under the weights and the sums
are 0 and 10 modulo 11. -/
theorem check_change {l m weights : List ℕ} {x y : ℕ} (hx : x < 10) (hy : y < 10) (hne : x ≠ y)
    (hprime : ∀ w ∈ weights, Nat.Coprime 11 w) (hle : l.length ≤ weights.length)
    (hcx : innCheck (l ++ x :: m) weights = (l ++ x :: m).getD weights.length 0)
    (hcy : innCheck (l ++ y :: m) weights = (l ++ y :: m).getD weights.length 0) :
    l.length < weights.length ∧
      (innSum (l ++ x :: m) weights % 11 = 0 ∧ innSum (l ++ y :: m) weights % 11 = 10 ∨
        innSum (l ++ x :: m) weights % 11 = 10 ∧ innSum (l ++ y :: m) weights % 11 = 0) := by
  rcases Nat.lt_or_eq_of_le hle with hlt | heq
  · refine ⟨hlt, ?_⟩
    have hsame : (l ++ x :: m).getD weights.length 0 = (l ++ y :: m).getD weights.length 0 := by
      obtain ⟨k, hk⟩ := Nat.exists_eq_add_of_lt hlt
      rw [List.getD_append_right _ _ _ _ hle, List.getD_append_right _ _ _ _ hle,
        show weights.length - l.length = k + 1 by omega, List.getD_cons_succ, List.getD_cons_succ]
    obtain ⟨rest, w, hw, hsum⟩ := @innSum_change l m weights hlt
    have hdiffer : innSum (l ++ x :: m) weights % 11 ≠ innSum (l ++ y :: m) weights % 11 := by
      intro hmod
      rw [hsum, hsum] at hmod
      have hxy := Nat.ModEq.cancel_left_of_coprime (hprime w hw)
        (Nat.ModEq.add_left_cancel' rest hmod)
      exact hne (Nat.ModEq.eq_of_lt_of_lt hxy (by omega) (by omega))
    rw [innCheck] at hcx hcy
    omega
  · -- The digit that changed is the check digit of the same sum.
    have hsum := innSum_beyond heq.ge (x :: m) (y :: m)
    rw [innCheck, hsum, ← innCheck, hcy, ← heq, List.getD_append_right _ _ _ _ le_rfl,
      List.getD_append_right _ _ _ _ le_rfl, Nat.sub_self] at hcx
    exact absurd hcx.symm hne

theorem isValidInn_checks {value : Units} (h : isValidInn value = true) :
    (value.length = 10 ∨ value.length = 12) ∧ (∀ u ∈ value, isDigit u = true) ∧
      ∀ weights ∈ innWeights value.length,
        innCheck (value.map digitOf) weights = (value.map digitOf).getD weights.length 0 := by
  simp only [isValidInn, Bool.and_eq_true, Bool.or_eq_true, isDigits_iff, List.length_map] at h
  obtain ⟨hdigits, hchecks⟩ := h
  refine ⟨hdigits.imp And.left And.left, hdigits.elim And.right And.right, fun weights hw => ?_⟩
  rw [innWeights] at hw
  split at hw
  · next h10 =>
    rw [if_pos h10, beq_iff_eq] at hchecks
    rw [List.mem_singleton.1 hw]
    exact hchecks
  · next h10 =>
    rw [if_neg h10, Bool.and_eq_true, beq_iff_eq, beq_iff_eq] at hchecks
    rcases List.mem_cons.1 hw with rfl | hw
    · exact hchecks.1
    · rw [List.mem_singleton.1 hw]
      exact hchecks.2

/-- **A changed digit shows.** Two valid INNs that differ in one digit differ in none of their check
digits, and every weighed sum of the one is 0 and of the other 10 modulo 11. -/
theorem inn_change_shows {pre post : Units} {u v : UInt16} (hne : u ≠ v)
    (hu : isValidInn (pre ++ u :: post) = true) (hv : isValidInn (pre ++ v :: post) = true) :
    ∀ weights ∈ innWeights (pre ++ u :: post).length,
      let a := innSum ((pre ++ u :: post).map digitOf) weights % 11
      let b := innSum ((pre ++ v :: post).map digitOf) weights % 11
      pre.length < weights.length ∧ (a = 0 ∧ b = 10 ∨ a = 10 ∧ b = 0) := by
  obtain ⟨hlength, hdigits, hchecks⟩ := isValidInn_checks hu
  obtain ⟨-, hdigits', hchecks'⟩ := isValidInn_checks hv
  have hdigit (w : UInt16) (hw : isDigit w = true) : 48 ≤ w.toNat ∧ w.toNat ≤ 57 := by
    simp only [isDigit, Bool.and_eq_true, decide_eq_true_eq, UInt16.le_iff_toNat_le] at hw
    exact hw
  have hu' := hdigit u (hdigits u (by simp))
  have hv' := hdigit v (hdigits' v (by simp))
  have hdiffer : digitOf u ≠ digitOf v := by
    intro heq
    rw [digitOf, digitOf] at heq
    exact hne (UInt16.toNat_inj.1 (by omega))
  have hpre : pre.length < (pre ++ u :: post).length := by simp
  have hsame : (pre ++ v :: post).length = (pre ++ u :: post).length := by simp
  rw [hsame] at hchecks'
  have hcheck (weights : List ℕ) (hw : weights ∈ innWeights (pre ++ u :: post).length)
      (hprime : ∀ w ∈ weights, Nat.Coprime 11 w) (hle : pre.length ≤ weights.length) :
      let a := innSum ((pre ++ u :: post).map digitOf) weights % 11
      let b := innSum ((pre ++ v :: post).map digitOf) weights % 11
      pre.length < weights.length ∧ (a = 0 ∧ b = 10 ∨ a = 10 ∧ b = 0) := by
    have ha := hchecks weights hw
    have hb := hchecks' weights hw
    simp only [List.map_append, List.map_cons] at ha hb ⊢
    have hchange := check_change (by rw [digitOf]; omega) (by rw [digitOf]; omega) hdiffer hprime
      (by rwa [List.length_map]) ha hb
    rwa [List.length_map] at hchange
  rcases hlength with h10 | h12
  · rw [h10] at hpre hcheck ⊢
    intro weights hw
    obtain rfl := List.mem_singleton.1 hw
    exact hcheck _ hw (by decide) (Nat.le_of_lt_succ hpre)
  · rw [h12] at hpre hcheck ⊢
    have hsecond := hcheck innTwelveSecond (by decide) (by decide) (Nat.le_of_lt_succ hpre)
    intro weights hw
    rcases List.mem_cons.1 hw with rfl | hw
    · exact hcheck _ (by decide) (by decide) (Nat.le_of_lt_succ hsecond.1)
    · obtain rfl := List.mem_singleton.1 hw
      exact hsecond

/-- Ten zeros, and the same with a 1 under the weight 10. -/
theorem inn_change_shows_zeros :
    isValidInn (encode "0000000000") = true ∧ isValidInn (encode "0010000000") = true ∧
      innSum ((encode "0010000000").map digitOf) innTen % 11 = 10 := by
  have hzeros : isValidInn (encode "00" ++ 48 :: encode "0000000") = true := by decide
  have hone : isValidInn (encode "00" ++ 49 :: encode "0000000") = true := by decide
  refine ⟨hzeros, hone, ?_⟩
  have hshows := (inn_change_shows (by decide) hzeros hone innTen (by decide)).2
  rcases hshows with h | h
  · exact h.2
  · exact absurd h.1 (by decide)

end Markiro
