import Mathlib

/-!
# Decimal text of fixed width

Numbers written with leading zeros, and the byte order of texts made of such columns. Texts of
one width compare column by column (`append_lt_append`), and a column of zero-padded digits
compares as its number does (`fixed_lt`), so the text order of a record of numbers is the
lexicographic order of the numbers.
-/

namespace Text

/-- The decimal digits of `n`, at least `w` of them: shorter ones get leading zeros. -/
def pad (w n : ℕ) : List Char := (Nat.toDigits 10 n).leftpad w '0'

def fixed : ℕ → ℕ → List Char
  | 0, _ => []
  | w + 1, n => fixed w (n / 10) ++ [Nat.digitChar (n % 10)]

@[simp] theorem fixed_length (w n : ℕ) : (fixed w n).length = w := by
  induction w generalizing n with
  | zero => rfl
  | succ w ih => simp [fixed, ih]

theorem fixed_zero (w : ℕ) : fixed w 0 = List.replicate w '0' := by
  induction w with
  | zero => rfl
  | succ w ih =>
    rw [fixed, ih, List.replicate_succ']
    rfl

/-- A number that fits its column is padded to exactly the column's width. -/
theorem pad_eq_fixed {w n : ℕ} (hw : 0 < w) (h : n < 10 ^ w) : pad w n = fixed w n := by
  induction w generalizing n with
  | zero => omega
  | succ w ih =>
    by_cases hn : n < 10
    · rw [pad, Nat.toDigits_of_lt_base hn, fixed, Nat.div_eq_of_lt hn, Nat.mod_eq_of_lt hn,
        fixed_zero]
      simp [List.leftpad]
    · have hw' : 0 < w := by
        rcases Nat.eq_zero_or_pos w with rfl | hw'
        · omega
        · exact hw'
      have hdiv : n / 10 < 10 ^ w := by
        rw [Nat.pow_succ] at h
        exact Nat.div_lt_of_lt_mul (by omega)
      rw [fixed, ← ih hw' hdiv, pad, pad, Nat.toDigits_of_base_le (by decide) (by omega)]
      simp [List.leftpad]

@[simp] theorem pad_length {w n : ℕ} (hw : 0 < w) (h : n < 10 ^ w) : (pad w n).length = w := by
  rw [pad_eq_fixed hw h, fixed_length]

/-! ## Order -/

/-- Texts whose first columns have one width compare by those columns first. -/
theorem append_lt_append {a a' b b' : List Char} (h : a.length = a'.length) :
    a ++ b < a' ++ b' ↔ a < a' ∨ a = a' ∧ b < b' := by
  induction a generalizing a' with
  | nil =>
    cases a' with
    | nil => simp
    | cons c a' => simp at h
  | cons c a ih =>
    cases a' with
    | nil => simp at h
    | cons c' a' =>
      have hl : a.length = a'.length := by simpa using h
      rw [List.cons_append, List.cons_append, List.cons_lt_cons_iff, List.cons_lt_cons_iff, ih hl]
      constructor
      · rintro (hc | ⟨rfl, ha | ⟨rfl, hb⟩⟩)
        · exact .inl (.inl hc)
        · exact .inl (.inr ⟨rfl, ha⟩)
        · exact .inr ⟨rfl, hb⟩
      · rintro ((hc | ⟨rfl, ha⟩) | ⟨hac, hb⟩)
        · exact .inl hc
        · exact .inr ⟨rfl, .inl ha⟩
        · obtain ⟨rfl, rfl⟩ := List.cons.inj hac
          exact .inr ⟨rfl, .inr ⟨rfl, hb⟩⟩

theorem digitChar_lt : ∀ m < 10, ∀ n < 10, (Nat.digitChar m < Nat.digitChar n ↔ m < n) := by
  decide

theorem digitChar_inj : ∀ m < 10, ∀ n < 10, Nat.digitChar m = Nat.digitChar n → m = n := by
  decide

theorem fixed_injective {w m n : ℕ} (hm : m < 10 ^ w) (hn : n < 10 ^ w)
    (h : fixed w m = fixed w n) : m = n := by
  induction w generalizing m n with
  | zero => simp at hm hn; omega
  | succ w ih =>
    obtain ⟨h1, h2⟩ := List.append_inj h (by simp)
    have hd := digitChar_inj _ (Nat.mod_lt m (by decide)) _ (Nat.mod_lt n (by decide))
      (List.cons.inj h2).1
    rw [Nat.pow_succ] at hm hn
    have hq := ih (Nat.div_lt_of_lt_mul (by omega)) (Nat.div_lt_of_lt_mul (by omega)) h1
    omega

/-- Zero-padded columns compare as their numbers. -/
theorem fixed_lt {w m n : ℕ} (hm : m < 10 ^ w) (hn : n < 10 ^ w) :
    fixed w m < fixed w n ↔ m < n := by
  induction w generalizing m n with
  | zero =>
    simp at hm hn
    simp [hm, hn, fixed]
  | succ w ih =>
    rw [Nat.pow_succ] at hm hn
    have hm' : m / 10 < 10 ^ w := Nat.div_lt_of_lt_mul (by omega)
    have hn' : n / 10 < 10 ^ w := Nat.div_lt_of_lt_mul (by omega)
    rw [fixed, fixed, append_lt_append (by simp), ih hm' hn', List.cons_lt_cons_iff,
      digitChar_lt _ (Nat.mod_lt m (by decide)) _ (Nat.mod_lt n (by decide))]
    constructor
    · rintro (hq | ⟨hq, hd | ⟨-, h⟩⟩)
      · omega
      · have := fixed_injective hm' hn' hq
        omega
      · exact absurd h (List.lt_irrefl _)
    · intro h
      rcases Nat.lt_or_ge (m / 10) (n / 10) with hq | hq
      · exact .inl hq
      · have he : m / 10 = n / 10 := by omega
        exact .inr ⟨by rw [he], .inl (by omega)⟩

theorem pad_lt {w m n : ℕ} (hw : 0 < w) (hm : m < 10 ^ w) (hn : n < 10 ^ w) :
    pad w m < pad w n ↔ m < n := by
  rw [pad_eq_fixed hw hm, pad_eq_fixed hw hn, fixed_lt hm hn]

theorem pad_injective {w m n : ℕ} (hw : 0 < w) (hm : m < 10 ^ w) (hn : n < 10 ^ w)
    (h : pad w m = pad w n) : m = n := by
  rw [pad_eq_fixed hw hm, pad_eq_fixed hw hn] at h
  exact fixed_injective hm hn h

theorem pad_append_lt {w m n : ℕ} {b b' : List Char} (hw : 0 < w) (hm : m < 10 ^ w)
    (hn : n < 10 ^ w) : pad w m ++ b < pad w n ++ b' ↔ m < n ∨ m = n ∧ b < b' := by
  rw [append_lt_append (by simp [hw, hm, hn]), pad_lt hw hm hn]
  refine or_congr_right (and_congr_left fun _ => ⟨pad_injective hw hm hn, ?_⟩)
  rintro rfl
  rfl

/-! ## Reading a column -/

/-- The number a column of digits writes; none when a character is no digit. -/
def readDigits (cs : List Char) : Option ℕ :=
  if cs.all Char.isDigit then some (Nat.ofDigitChars 10 cs 0) else none

theorem fixed_isDigit (w n : ℕ) : ∀ c ∈ fixed w n, c.isDigit = true := by
  induction w generalizing n with
  | zero => intro c hc; cases hc
  | succ w ih =>
    intro c hc
    rcases List.mem_append.1 hc with hc | hc
    · exact ih _ c hc
    · rw [List.mem_singleton.1 hc]
      have : ∀ d < 10, (Nat.digitChar d).isDigit = true := by decide
      exact this _ (Nat.mod_lt n (by decide))

theorem ofDigitChars_fixed {w n : ℕ} (h : n < 10 ^ w) :
    Nat.ofDigitChars 10 (fixed w n) 0 = n := by
  induction w generalizing n with
  | zero => simp at h; simp [h, fixed]
  | succ w ih =>
    rw [Nat.pow_succ] at h
    rw [fixed, Nat.ofDigitChars_append, ih (Nat.div_lt_of_lt_mul (by omega)),
      Nat.ofDigitChars_cons_digitChar_of_lt_ten (Nat.mod_lt n (by decide)), Nat.ofDigitChars_nil]
    omega

/-- A column of digits is the column of the number it writes, which fits it. -/
theorem fixed_ofDigitChars {cs : List Char} (h : ∀ c ∈ cs, c.isDigit = true) :
    Nat.ofDigitChars 10 cs 0 < 10 ^ cs.length ∧
      fixed cs.length (Nat.ofDigitChars 10 cs 0) = cs := by
  induction cs using List.reverseRecOn with
  | nil => exact ⟨by decide, rfl⟩
  | append_singleton cs c ih =>
    obtain ⟨hlt, hfixed⟩ := ih fun d hd => h d (List.mem_append_left _ hd)
    have hc : ∃ d < 10, c = Nat.digitChar d := by
      have hc := h c (List.mem_append_right _ (List.mem_singleton.2 rfl))
      simp only [Char.isDigit, Bool.and_eq_true, decide_eq_true_eq] at hc
      have h1 : 48 ≤ c.toNat := UInt32.le_iff_toNat_le.1 hc.1
      have h2 : c.toNat ≤ 57 := UInt32.le_iff_toNat_le.1 hc.2
      refine ⟨c.toNat - 48, by omega, Char.toNat_inj.1 ?_⟩
      rw [Nat.toNat_digitChar_of_lt_ten (by omega)]
      omega
    obtain ⟨d, hd, rfl⟩ := hc
    rw [Nat.ofDigitChars_append, Nat.ofDigitChars_cons_digitChar_of_lt_ten hd, Nat.ofDigitChars_nil,
      List.length_append, List.length_singleton, Nat.pow_succ]
    refine ⟨by omega, ?_⟩
    rw [fixed, show (10 * Nat.ofDigitChars 10 cs 0 + d) / 10 = Nat.ofDigitChars 10 cs 0 by omega,
      show (10 * Nat.ofDigitChars 10 cs 0 + d) % 10 = d by omega, hfixed]

theorem readDigits_pad {w n : ℕ} (hw : 0 < w) (h : n < 10 ^ w) :
    readDigits (pad w n) = some n := by
  rw [pad_eq_fixed hw h, readDigits, if_pos, ofDigitChars_fixed h]
  exact List.all_eq_true.2 (fixed_isDigit w n)

end Text
