import Mathlib

/-!
# Bits of packed bytes

The bits of a list of bytes, each byte's highest first: setting one changes it alone (`get_set`),
setting several sets their union (`get_foldl_set`), and eight bits packed into a byte are read from
it (`isSet_pack`).
-/

namespace Bits

/-! ## Bits of a byte -/

/-- Whether a bit of a byte is set, the highest first. -/
def isSet (v bit : ℕ) : Bool := v &&& (0x80 >>> bit) != 0

theorem mask_eq {bit : ℕ} (h : bit < 8) : 0x80 >>> bit = 2 ^ (7 - bit) := by
  have hall : ∀ bit < 8, 0x80 >>> bit = 2 ^ (7 - bit) := by decide
  exact hall bit h

theorem isSet_eq_testBit (v : ℕ) {bit : ℕ} (h : bit < 8) : isSet v bit = v.testBit (7 - bit) := by
  rw [isSet, mask_eq h, Nat.and_two_pow]
  cases v.testBit (7 - bit) with
  | false =>
    show (0 * 2 ^ (7 - bit) != 0) = false
    rw [Nat.zero_mul]
    rfl
  | true =>
    have hpos := Nat.two_pow_pos (7 - bit)
    rw [bne_iff_ne]
    show 1 * 2 ^ (7 - bit) ≠ 0
    omega

@[simp] theorem isSet_zero (bit : ℕ) : isSet 0 bit = false := by
  rw [isSet, Nat.zero_and]
  rfl

theorem isSet_or (v w : ℕ) {bit : ℕ} (h : bit < 8) :
    isSet (v ||| w) bit = (isSet v bit || isSet w bit) := by
  rw [isSet_eq_testBit _ h, isSet_eq_testBit _ h, isSet_eq_testBit _ h, Nat.testBit_or]

theorem isSet_mask {bit bit' : ℕ} (h : bit < 8) (h' : bit' < 8) :
    isSet (0x80 >>> bit) bit' = decide (bit = bit') := by
  rw [isSet_eq_testBit _ h', mask_eq h, Nat.testBit_two_pow]
  exact decide_eq_decide.2 (by omega)

theorem isSet_complement (v : ℕ) {bit : ℕ} (h : bit < 8) :
    isSet (v ^^^ 0xff) bit = !isSet v bit := by
  rw [isSet_eq_testBit _ h, isSet_eq_testBit _ h, Nat.testBit_xor,
    show 0xff = 2 ^ 8 - 1 from rfl, Nat.testBit_two_pow_sub_one, decide_eq_true (by omega),
    Bool.xor_true]

/-! ## Packing -/

/-- The byte of eight bits, the highest first. -/
def pack (f : ℕ → Bool) : ℕ :=
  (List.range 8).foldl (fun byte bit => if f bit then byte ||| 1 <<< (7 - bit) else byte) 0

theorem isSet_pack_upTo (f : ℕ → Bool) {n : ℕ} (hn : n ≤ 8) {bit : ℕ} (h : bit < 8) :
    isSet
    ((List.range n).foldl (fun byte bit => if f bit then byte ||| 1 <<< (7 - bit) else byte) 0)
      bit = (decide (bit < n) && f bit) := by
  induction n with
  | zero => simp
  | succ n ih =>
    have hshift : 1 <<< (7 - n) = 0x80 >>> n := by
      rw [mask_eq (by omega), Nat.one_shiftLeft]
    rw [List.range_succ, List.foldl_append, List.foldl_cons, List.foldl_nil]
    by_cases hf : f n = true
    · rw [if_pos hf, isSet_or _ _ h, ih (by omega), hshift, isSet_mask (by omega) h]
      by_cases hbit : n = bit
      · subst hbit
        simp [hf]
      · have hiff : bit < n + 1 ↔ bit < n := by omega
        simp [hbit, hiff]
    · rw [if_neg hf, ih (by omega)]
      by_cases hbit : n = bit
      · subst hbit
        simp [hf]
      · have hiff : bit < n + 1 ↔ bit < n := by omega
        simp [hiff]

theorem isSet_pack (f : ℕ → Bool) {bit : ℕ} (h : bit < 8) : isSet (pack f) bit = f bit := by
  rw [pack, isSet_pack_upTo f le_rfl h, decide_eq_true h, Bool.true_and]

theorem pack_lt (f : ℕ → Bool) : pack f < 256 := by
  have hall : ∀ n ≤ 8, (List.range n).foldl
      (fun byte bit => if f bit then byte ||| 1 <<< (7 - bit) else byte) 0 < 2 ^ 8 := by
    intro n hn
    induction n with
    | zero =>
      show 0 < 2 ^ 8
      decide
    | succ n ih =>
      rw [List.range_succ, List.foldl_append, List.foldl_cons, List.foldl_nil]
      split
      · refine Nat.or_lt_two_pow (ih (by omega)) ?_
        rw [Nat.one_shiftLeft]
        exact Nat.pow_lt_pow_right (by decide) (by omega)
      · exact ih (by omega)
  exact hall 8 le_rfl

/-! ## Bits of a list of bytes -/

/-- A bit of a list of bytes; beyond its end no bit is set. -/
def get (bytes : List UInt8) (i : ℕ) : Bool := isSet (bytes.getD (i / 8) 0).toNat (i % 8)

/-- The list with a bit set; beyond its end nothing changes. -/
def set (bytes : List UInt8) (i : ℕ) : List UInt8 :=
  bytes.set (i / 8) (bytes.getD (i / 8) 0 ||| UInt8.ofNat (0x80 >>> (i % 8)))

@[simp] theorem length_set (bytes : List UInt8) (i : ℕ) : (set bytes i).length = bytes.length :=
  List.length_set

theorem get_replicate (n i : ℕ) : get (List.replicate n 0) i = false := by
  have hbyte : (List.replicate n (0 : UInt8)).getD (i / 8) 0 = 0 := by
    rw [List.getD_eq_getElem?_getD, List.getElem?_replicate]
    split <;> rfl
  rw [get, hbyte]
  exact isSet_zero _

/-- **Setting a bit changes it alone.** -/
theorem get_set (bytes : List UInt8) (i j : ℕ) :
    get (set bytes i) j = (get bytes j || decide (i = j ∧ i < 8 * bytes.length)) := by
  have hi : i % 8 < 8 := Nat.mod_lt _ (by decide)
  have hj : j % 8 < 8 := Nat.mod_lt _ (by decide)
  by_cases hbyte : i / 8 = j / 8
  · by_cases hlt : i / 8 < bytes.length
    · have hmask : (UInt8.ofNat (0x80 >>> (i % 8))).toNat = 0x80 >>> (i % 8) := by
        rw [UInt8.toNat_ofNat', Nat.mod_eq_of_lt]
        rw [mask_eq hi]
        exact Nat.pow_lt_pow_right (by decide) (by omega)
      have hiff : i % 8 = j % 8 ↔ i = j ∧ i < 8 * bytes.length := by omega
      rw [get, get, set, ← hbyte, List.getD_eq_getElem?_getD, List.getElem?_set_self hlt,
        Option.getD_some, UInt8.toNat_or, isSet_or _ _ hj, hmask, isSet_mask hi hj,
        decide_eq_decide.2 hiff]
    · have hset : set bytes i = bytes := List.set_eq_of_length_le (not_lt.1 hlt)
      have hnot : ¬(i = j ∧ i < 8 * bytes.length) := by omega
      rw [hset, decide_eq_false hnot, Bool.or_false]
  · have hne : ¬(i = j ∧ i < 8 * bytes.length) := fun h => hbyte (by rw [h.1])
    rw [decide_eq_false hne, Bool.or_false, get, get, set, List.getD_eq_getElem?_getD,
      List.getElem?_set_ne hbyte, List.getD_eq_getElem?_getD]

@[simp] theorem length_foldl_set (bytes : List UInt8) (is : List ℕ) :
    (is.foldl set bytes).length = bytes.length := by
  induction is generalizing bytes with
  | nil => rfl
  | cons i is ih => rw [List.foldl_cons, ih, length_set]

/-- **Setting several bits sets their union.** -/
theorem get_foldl_set (bytes : List UInt8) (is : List ℕ) (j : ℕ) :
    get (is.foldl set bytes) j = (get bytes j || decide (j ∈ is ∧ j < 8 * bytes.length)) := by
  induction is generalizing bytes with
  | nil => simp
  | cons i is ih =>
    rw [List.foldl_cons, ih, get_set, length_set, Bool.or_assoc]
    refine congrArg (get bytes j || ·) ?_
    by_cases hij : i = j
    · subst hij
      simp
    · simp [hij, Ne.symm hij]

end Bits
