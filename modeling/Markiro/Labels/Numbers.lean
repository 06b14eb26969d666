import Markiro.Domain.Numbers

/-!
# The text of a number is read back

`numberOf` reads what `numberText` writes (`numberOf_numberText`), and the text has none of the units
that the printer languages give a meaning to.
-/

namespace Markiro

open Utf16

/-! ## Digits -/

section Digits

variable {s t : Units}

theorem readNumber_foldl (t : Units) (n : ℕ) :
    t.foldl (fun n u => 10 * n + digitOf u) n = n * 10 ^ t.length + readNumber t := by
  induction t generalizing n with
  | nil => simp [readNumber]
  | cons u t ih =>
    rw [readNumber, List.foldl_cons, List.foldl_cons, ih, ih (10 * 0 + digitOf u), List.length_cons,
      pow_succ]
    ring

theorem readNumber_append (s t : Units) :
    readNumber (s ++ t) = readNumber s * 10 ^ t.length + readNumber t := by
  rw [readNumber, List.foldl_append, readNumber_foldl]
  rfl

theorem readNumber_zeros (n : ℕ) : readNumber (List.replicate n 48) = 0 := by
  induction n with
  | zero => rfl
  | succ n ih =>
    rw [List.replicate_succ, ← List.singleton_append, readNumber_append, ih]
    simp [readNumber, digitOf]

theorem takeWhile_digits {rest : Units} (hs : ∀ u ∈ s, isDigit u = true)
    (hrest : ∀ u ∈ rest.head?, isDigit u = false) : (s ++ rest).takeWhile isDigit = s := by
  rw [List.takeWhile_append_of_pos hs]
  cases rest with
  | nil => simp
  | cons u rest => rw [List.takeWhile_cons_of_neg (by simp [hrest u rfl]), List.append_nil]

theorem dropWhile_digits {rest : Units} (hs : ∀ u ∈ s, isDigit u = true)
    (hrest : ∀ u ∈ rest.head?, isDigit u = false) : (s ++ rest).dropWhile isDigit = rest := by
  rw [List.dropWhile_append_of_pos hs]
  exact dropWhile_eq_self hrest

end Digits

/-! ## Decimal literals -/

section Literals

variable {whole fraction exponent : Units} {e : ℤ}

theorem readExponent_head (h : readExponent exponent = some e) :
    ∀ u ∈ exponent.head?, isDigit u = false ∧ u ≠ 46 := by
  cases exponent with
  | nil => simp
  | cons u rest =>
    intro v hv
    obtain rfl : u = v := by simpa using hv
    rw [readExponent] at h
    split at h
    · rename_i hu
      rcases hu with rfl | rfl
      · decide
      · decide
    · cases h

theorem readDecimal_whole (hw : ∀ u ∈ whole, isDigit u = true) (hne : whole ≠ [])
    (he : readExponent exponent = some e) :
    readDecimal (whole ++ exponent) = some (readNumber whole * (10 : ℚ) ^ e) := by
  have hhead := readExponent_head he
  have hfraction : readFraction exponent = ([], exponent) := by
    cases exponent with
    | nil => rfl
    | cons u rest => rw [readFraction, if_neg (hhead u rfl).2]
  rw [readDecimal, takeWhile_digits hw fun u hu => (hhead u hu).1,
    dropWhile_digits hw fun u hu => (hhead u hu).1, hfraction]
  simp [hne, he]

theorem readDecimal_fraction (hw : ∀ u ∈ whole, isDigit u = true) (hne : whole ≠ [])
    (hf : ∀ u ∈ fraction, isDigit u = true) (he : readExponent exponent = some e) :
    readDecimal (whole ++ 46 :: (fraction ++ exponent)) =
      some (readNumber (whole ++ fraction) * (10 : ℚ) ^ (e - (fraction.length : ℤ))) := by
  have hpoint : ∀ u ∈ (46 :: (fraction ++ exponent)).head?, isDigit u = false := by
    intro u hu
    obtain rfl : 46 = u := by simpa using hu
    decide
  have hhead : ∀ u ∈ exponent.head?, isDigit u = false := fun u hu => (readExponent_head he u hu).1
  rw [readDecimal, takeWhile_digits hw hpoint, dropWhile_digits hw hpoint, readFraction, if_pos rfl,
    takeWhile_digits hf hhead, dropWhile_digits hf hhead]
  simp [hne, he]

theorem readExponent_numeral (e : ℤ) :
    readExponent (101 :: ((if e < 0 then [45] else [43]) ++ numeral e.natAbs)) = some e := by
  have hdigits := numeral_isDigit e.natAbs
  have hall : (numeral e.natAbs).all isDigit = true := List.all_eq_true.2 hdigits
  have hsign : readSign ((if e < 0 then [45] else [43]) ++ numeral e.natAbs) =
      (decide (e < 0), numeral e.natAbs) := by
    by_cases he : e < 0
    · simp [he, readSign]
    · simp [he, readSign]
  rw [readExponent, if_pos (.inl rfl), hsign]
  simp only [numeral_ne_nil, hall, false_or, Bool.true_eq_false, if_false, readNumber_numeral]
  by_cases he : e < 0
  · simp only [he, decide_true, if_true, Option.some.injEq]
    omega
  · simp only [he, decide_false, Bool.false_eq_true, if_false, Option.some.injEq]
    omega

end Literals

/-! ## Numbers not below 0 -/

section Unsigned

variable {m k : ℕ}

theorem numeral_eq_append (m : ℕ) : ∃ z, numeral m =
    (numeral m).rdropWhile (· = 48) ++ List.replicate z 48 := by
  refine ⟨((numeral m).rtakeWhile (· = 48)).length, ?_⟩
  have hall : ∀ u ∈ (numeral m).rtakeWhile (· = (48 : UInt16)), u = 48 := by
    intro u hu
    simpa using List.mem_rtakeWhile_imp hu
  rw [← List.eq_replicate_of_mem hall, List.rdropWhile_append_rtakeWhile]

theorem mem_rdropWhile {u : UInt16} (h : u ∈ (numeral m).rdropWhile (· = 48)) :
    isDigit u = true :=
  numeral_isDigit m u ((List.rdropWhile_prefix _ _).subset h)

theorem rdropWhile_ne_nil (hm : m ≠ 0) : (numeral m).rdropWhile (· = 48) ≠ [] := by
  intro hnil
  obtain ⟨z, hz⟩ := numeral_eq_append m
  rw [hnil, List.nil_append] at hz
  have hvalue := readNumber_numeral m
  rw [hz, readNumber_zeros] at hvalue
  exact hm hvalue.symm

theorem readDecimal_exponentText (hm : m ≠ 0) :
    readDecimal (exponentText m k) = some ((m : ℚ) / 10 ^ k) := by
  obtain ⟨z, hz⟩ := numeral_eq_append m
  have hvalue := readNumber_numeral m
  have hlength := congrArg List.length hz
  rw [hz, readNumber_append, List.length_replicate, readNumber_zeros, Nat.add_zero] at hvalue
  rw [List.length_append, List.length_replicate] at hlength
  have hmem := fun u => @mem_rdropWhile m u
  have hne := rdropWhile_ne_nil hm
  unfold exponentText
  simp only
  generalize (numeral m).rdropWhile (· = (48 : UInt16)) = digits at *
  obtain ⟨d, rest, rfl⟩ := List.exists_cons_of_ne_nil hne
  have hd : ∀ u ∈ [d], isDigit u = true := fun u hu => hmem u (by simp_all)
  have hrest : ∀ u ∈ rest, isDigit u = true := fun u hu => hmem u (List.mem_cons_of_mem _ hu)
  have hexp := readExponent_numeral (((numeral m).length : ℤ) - k - 1)
  have h101 : encode "e" = [101] := by decide
  have h45 : encode "-" = [45] := by decide
  have h43 : encode "+" = [43] := by decide
  have h46 : encode "." = [46] := by decide
  have hvalue' : (m : ℚ) = (readNumber (d :: rest) : ℚ) * 10 ^ z := by
    rw [← hvalue]
    push_cast
    ring
  have hten : (10 : ℚ) ≠ 0 := by norm_num
  rw [h101, h45, h43, h46, hvalue']
  generalize hx : ((numeral m).length : ℤ) - k - 1 = x at hexp ⊢
  cases rest with
  | nil =>
    have hshift : x = (z : ℤ) - k := by
      rw [← hx, hlength, List.length_singleton]
      push_cast
      ring
    have htext := readDecimal_whole hd (by simp) hexp
    rw [show (10 : ℚ) ^ x = 10 ^ z / 10 ^ k by
      rw [hshift, zpow_sub₀ hten, zpow_natCast, zpow_natCast], ← mul_div_assoc] at htext
    simpa using htext
  | cons r rest =>
    have hshift : x - ((r :: rest).length : ℤ) = (z : ℤ) - k := by
      rw [← hx, hlength]
      simp only [List.length_cons]
      push_cast
      ring
    have htext := readDecimal_fraction hd (by simp) hrest hexp
    rw [hshift, zpow_sub₀ hten, zpow_natCast, zpow_natCast, ← mul_div_assoc] at htext
    simpa using htext

theorem leftpad_digits {n w : ℕ} :
    ∀ u ∈ (numeral n).leftpad w 48, isDigit u = true := by
  intro u hu
  rw [List.leftpad, List.mem_append] at hu
  rcases hu with hu | hu
  · rw [List.eq_of_mem_replicate hu]
    decide
  · exact numeral_isDigit n u hu

theorem readNumber_leftpad (n w : ℕ) : readNumber ((numeral n).leftpad w 48) = n := by
  rw [List.leftpad, readNumber_append, readNumber_zeros, Nat.zero_mul, Nat.zero_add,
    readNumber_numeral]

theorem numeral_length_le {n w : ℕ} (hw : 0 < w) (hn : n < 10 ^ w) : (numeral n).length ≤ w := by
  rw [numeral, encodeChars_digits (toDigits_digits n), List.length_map,
    Nat.length_toDigits_le_iff (by decide) hw]
  exact hn

/-- **An unsigned text is read as its number.** -/
theorem readDecimal_unsignedText (m k : ℕ) :
    readDecimal (unsignedText m k) = some ((m : ℚ) / 10 ^ k) := by
  unfold unsignedText
  split
  · split
    · rename_i hk
      have h := @readDecimal_whole (numeral m) [] 0 (numeral_isDigit m) (numeral_ne_nil m) rfl
      rw [List.append_nil, readNumber_numeral] at h
      simpa [hk] using h
    · rename_i hk
      have hmod : m % 10 ^ k < 10 ^ k := Nat.mod_lt _ (by positivity)
      have hlength : ((numeral (m % 10 ^ k)).leftpad k 48).length = k := by
        rw [List.length_leftpad, max_eq_left]
        exact numeral_length_le (by omega) hmod
      have h := @readDecimal_fraction (numeral (m / 10 ^ k)) ((numeral (m % 10 ^ k)).leftpad k 48)
        [] 0 (numeral_isDigit _) (numeral_ne_nil _) leftpad_digits rfl
      rw [readNumber_append, readNumber_numeral, readNumber_leftpad, hlength, Nat.mul_comm,
        Nat.div_add_mod, zero_sub, zpow_neg, zpow_natCast, ← div_eq_mul_inv, List.append_nil] at h
      have h46 : encode "." = [46] := by decide
      rw [h46, List.append_assoc]
      exact h
  · rename_i hm
    rw [not_or] at hm
    exact readDecimal_exponentText hm.1

end Unsigned

/-! ## Numbers -/

def isNumberUnit (u : UInt16) : Bool := isDigit u || u == 43 || u == 45 || u == 46 || u == 101

theorem isNumberUnit_of_isDigit {u : UInt16} (h : isDigit u = true) : isNumberUnit u = true := by
  simp [isNumberUnit, h]

theorem unsignedText_units (m k : ℕ) :
    unsignedText m k ≠ [] ∧ ∀ u ∈ unsignedText m k, isNumberUnit u = true := by
  have h101 : encode "e" = [101] := by decide
  have h45 : encode "-" = [45] := by decide
  have h43 : encode "+" = [43] := by decide
  have h46 : encode "." = [46] := by decide
  have hdigit : ∀ n, ∀ u ∈ numeral n, isNumberUnit u = true := fun n u hu =>
    isNumberUnit_of_isDigit (numeral_isDigit n u hu)
  unfold unsignedText
  split
  · split
    · exact ⟨numeral_ne_nil m, hdigit m⟩
    · refine ⟨by simp [numeral_ne_nil], fun u hu => ?_⟩
      rw [h46, List.mem_append, List.mem_append, List.mem_singleton] at hu
      rcases hu with (hu | rfl) | hu
      · exact hdigit _ u hu
      · decide
      · exact isNumberUnit_of_isDigit (leftpad_digits u hu)
  · refine ⟨by simp [exponentText, h101], fun u hu => ?_⟩
    unfold exponentText at hu
    simp only [h101, h45, h43, h46, List.mem_append] at hu
    rcases hu with (((hu | hu) | hu) | hu) | hu
    · exact isNumberUnit_of_isDigit (mem_rdropWhile (List.mem_of_mem_take hu))
    · split at hu
      · cases hu
      · rcases List.mem_append.1 hu with hu | hu
        · rw [List.mem_singleton.1 hu]
          decide
        · exact isNumberUnit_of_isDigit (mem_rdropWhile (List.mem_of_mem_drop hu))
    · rw [List.mem_singleton.1 hu]
      decide
    · split at hu
      · rw [List.mem_singleton.1 hu]
        decide
      · rw [List.mem_singleton.1 hu]
        decide
    · exact hdigit _ u hu

theorem unsignedText_head (m k : ℕ) :
    ∃ u rest, unsignedText m k = u :: rest ∧ isDigit u = true := by
  have hnumeral : ∀ n, ∃ u rest, numeral n = u :: rest ∧ isDigit u = true := by
    intro n
    obtain ⟨u, rest, hn⟩ := List.exists_cons_of_ne_nil (numeral_ne_nil n)
    exact ⟨u, rest, hn, numeral_isDigit n u (by rw [hn]; simp)⟩
  unfold unsignedText
  split
  · split
    · exact hnumeral m
    · obtain ⟨u, rest, hn, hu⟩ := hnumeral (m / 10 ^ k)
      rw [hn]
      exact ⟨u, _, rfl, hu⟩
  · rename_i hm
    rw [not_or] at hm
    obtain ⟨u, rest, hn⟩ := List.exists_cons_of_ne_nil (rdropWhile_ne_nil hm.1)
    have hu : isDigit u = true := mem_rdropWhile (by rw [hn]; simp)
    unfold exponentText
    rw [hn]
    exact ⟨u, _, rfl, hu⟩

theorem isNumberUnit_bounds {u : UInt16} (h : isNumberUnit u = true) :
    43 ≤ u.toNat ∧ u.toNat ≤ 57 ∧ u.toNat ≠ 44 ∧ u.toNat ≠ 47 ∨ u.toNat = 101 := by
  simp only [isNumberUnit, isDigit, Bool.or_eq_true, Bool.and_eq_true, decide_eq_true_eq,
    beq_iff_eq, ← UInt16.toNat_inj, UInt16.le_iff_toNat_le] at h
  have h43 : (43 : UInt16).toNat = 43 := rfl
  have h45 : (45 : UInt16).toNat = 45 := rfl
  have h46 : (46 : UInt16).toNat = 46 := rfl
  have h48 : (48 : UInt16).toNat = 48 := rfl
  have h57 : (57 : UInt16).toNat = 57 := rfl
  have h101 : (101 : UInt16).toNat = 101 := rfl
  omega

theorem isNumberUnit_not_blank {u : UInt16} (h : isNumberUnit u = true) :
    isEcmaWhitespace u = false := by
  have hu := isNumberUnit_bounds h
  simp only [isEcmaWhitespace, Bool.or_eq_false_iff, Bool.and_eq_false_iff,
    decide_eq_false_iff_not, beq_eq_false_iff_ne]
  omega

theorem ecmaTrim_eq_self {s : Units} (h : ∀ u ∈ s, isEcmaWhitespace u = false) :
    ecmaTrim s = s :=
  trimBy_eq_self ⟨fun u hu => h u (List.mem_of_mem_head? hu),
    fun u hu => h u (List.mem_of_getLast? hu)⟩

theorem radixOf_eq_none {s : Units} (h : ∀ u ∈ s, isNumberUnit u = true) : radixOf s = none := by
  unfold radixOf
  split
  · rename_i u rest
    have hu := isNumberUnit_bounds (h u (by simp))
    have hne : ∀ v : UInt16, u.toNat ≠ v.toNat → u ≠ v := fun v hv he => hv (he ▸ rfl)
    have h1 := hne 120 (by show u.toNat ≠ 120; omega)
    have h2 := hne 88 (by show u.toNat ≠ 88; omega)
    have h3 := hne 111 (by show u.toNat ≠ 111; omega)
    have h4 := hne 79 (by show u.toNat ≠ 79; omega)
    have h5 := hne 98 (by show u.toNat ≠ 98; omega)
    have h6 := hne 66 (by show u.toNat ≠ 66; omega)
    simp [h1, h2, h3, h4, h5, h6]
  · rfl

theorem eq_of_decimals {q : ℚ} {k : ℕ} (h : decimals q = some k) :
    q = (if q < 0 then -1 else 1) * (((q.num.natAbs * (10 ^ k / q.den) : ℕ) : ℚ) / 10 ^ k) := by
  have hdvd : q.den ∣ 10 ^ k := Nat.dvd_of_mod_eq_zero (by simpa using List.find?_some h)
  have hden : (q.den : ℚ) ≠ 0 := by exact_mod_cast q.den_ne_zero
  have hnum : (q.num : ℚ) = (if q < 0 then -1 else 1) * (q.num.natAbs : ℚ) := by
    rw [Nat.cast_natAbs]
    split
    · rename_i hq
      rw [abs_of_neg (Rat.num_neg.2 hq)]
      push_cast
      ring
    · rename_i hq
      rw [abs_of_nonneg (Rat.num_nonneg.2 (not_lt.1 hq)), one_mul]
  have hcast : ((10 ^ k / q.den : ℕ) : ℚ) = 10 ^ k / q.den := by
    rw [Nat.cast_div hdvd hden]
    push_cast
    rfl
  have hten : (10 : ℚ) ^ k ≠ 0 := by positivity
  conv_lhs => rw [← Rat.num_div_den q, hnum]
  rw [Nat.cast_mul, hcast]
  field_simp

theorem numberText_units {q : ℚ} (h : decimals q ≠ none) :
    numberText q ≠ [] ∧ ∀ u ∈ numberText q, isNumberUnit u = true := by
  obtain ⟨k, hk⟩ := Option.ne_none_iff_exists'.1 h
  obtain ⟨hne, hall⟩ := unsignedText_units (q.num.natAbs * (10 ^ k / q.den)) k
  rw [numberText, hk]
  refine ⟨by simp [hne], fun u hu => ?_⟩
  rcases List.mem_append.1 hu with hu | hu
  · split at hu
    · have h45 : encode "-" = [45] := by decide
      rw [h45, List.mem_singleton] at hu
      rw [hu]
      decide
    · cases hu
  · exact hall u hu

/-- **The text of a number is read as the number.** -/
theorem numberOf_numberText {q : ℚ} (h : decimals q ≠ none) : numberOf (numberText q) = some q := by
  obtain ⟨hne, hall⟩ := numberText_units h
  rw [numberOf, ecmaTrim_eq_self fun u hu => isNumberUnit_not_blank (hall u hu)]
  simp only [hne, if_false, radixOf_eq_none hall]
  obtain ⟨k, hk⟩ := Option.ne_none_iff_exists'.1 h
  have hq := eq_of_decimals hk
  have hread := readDecimal_unsignedText (q.num.natAbs * (10 ^ k / q.den)) k
  obtain ⟨u, rest, htext, hu⟩ := unsignedText_head (q.num.natAbs * (10 ^ k / q.den)) k
  have hsign : readSign (numberText q) =
      (decide (q < 0), unsignedText (q.num.natAbs * (10 ^ k / q.den)) k) := by
    rw [numberText, hk]
    have h45 : encode "-" = [45] := by decide
    by_cases hneg : q < 0
    · simp [hneg, h45, readSign]
    · have h1 : u ≠ 45 := by
        rintro rfl
        exact absurd hu (by decide)
      have h2 : u ≠ 43 := by
        rintro rfl
        exact absurd hu (by decide)
      simp [hneg, htext, readSign, h1, h2]
  rw [hsign]
  simp only [hread, Option.map_some, Option.some.injEq]
  by_cases hneg : q < 0
  · simp only [hneg, decide_true, if_true] at hq ⊢
    rw [← neg_one_mul]
    exact hq.symm
  · simp only [hneg, decide_false, Bool.false_eq_true, if_false] at hq ⊢
    rw [one_mul] at hq
    exact hq.symm

@[simp] theorem decimals_intCast (z : ℤ) : decimals (z : ℚ) = some 0 := by
  simp [decimals]

end Markiro
