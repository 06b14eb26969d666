import Markiro.Domain.Gs1
import Markiro.Host.OfficePallets

/-!
# One SSCC codec

The domain package writes and reads SSCCs in TypeScript, the host in Rust. Both come to one form: a
body of 17 digits, the extension, the prefix and the padded serial, and its check digit
(`withCheck`).
-/

namespace Markiro

open Utf16 Text

/-! ## Digits in both languages -/

section Digits

variable {cs : List Char}

theorem gs1CheckDigit_digits (h : ∀ c ∈ cs, c.isDigit = true) :
    gs1CheckDigit (encodeChars cs) = checkDigit cs := by
  unfold gs1CheckDigit checkDigit
  rw [encodeChars_digits h, ← List.map_reverse, List.zipIdx_map, List.map_map]
  have hterm : ∀ x ∈ cs.reverse.zipIdx,
      ((fun x : UInt16 × ℕ => if x.2 % 2 = 0 then digitOf x.1 * 3 else digitOf x.1) ∘
        Prod.map unitOf id) x = (x.1.toNat - '0'.toNat) * if x.2 % 2 = 0 then 3 else 1 := by
    rintro ⟨c, i⟩ hx
    have hc : c ∈ cs := List.mem_reverse.1 (List.fst_mem_of_mem_zipIdx hx)
    simp only [Function.comp, Prod.map, id, digitOf_unitOf (h c hc)]
    split <;> simp
  rw [List.map_congr_left hterm]

theorem digitChar_isDigit : ∀ d < 10, (Nat.digitChar d).isDigit = true := by decide

theorem digitChar_toNat : ∀ d < 10, (Nat.digitChar d).toNat - '0'.toNat = d := by decide

theorem toDigits_isDigit {n : ℕ} (hn : n < 10) : ∀ c ∈ Nat.toDigits 10 n, c.isDigit = true := by
  rw [Nat.toDigits_of_lt_base hn]
  intro c hc
  rw [List.mem_singleton.1 hc]
  exact digitChar_isDigit n hn

theorem digitChar_of_isDigit {c : Char} (h : c.isDigit = true) :
    c.toNat - '0'.toNat < 10 ∧ Nat.digitChar (c.toNat - '0'.toNat) = c := by
  obtain ⟨h1, h2⟩ := isDigit_toNat h
  have h0 : '0'.toNat = 48 := rfl
  refine ⟨by omega, Char.toNat_inj.1 ?_⟩
  rw [Nat.toNat_digitChar_of_lt_ten (by omega)]
  omega

theorem checkDigit_lt (body : List Char) : checkDigit body < 10 := Nat.mod_lt _ (by decide)

end Digits

/-! ## The common form -/

def withCheck (body : List Char) : List Char := body ++ [Nat.digitChar (checkDigit body)]

/-- Seventeen digits. -/
structure IsBody (body : List Char) : Prop where
  length : body.length = 17
  digits : ∀ c ∈ body, c.isDigit = true

section Common

variable {body : List Char}

theorem IsBody.withCheck_digits (h : IsBody body) : ∀ c ∈ withCheck body, c.isDigit = true := by
  intro c hc
  rcases List.mem_append.1 hc with hc | hc
  · exact h.digits c hc
  · rw [List.mem_singleton.1 hc]
    exact digitChar_isDigit _ (checkDigit_lt body)

theorem IsBody.withCheck_length (h : IsBody body) : (withCheck body).length = 18 := by
  rw [withCheck, List.length_append, h.length]
  rfl

theorem hasValidCheckDigit_concat {c : Char} (h : ∀ d ∈ body, d.isDigit = true)
    (hc : c.isDigit = true) (hne : body ≠ []) :
    hasValidCheckDigit (encodeChars (body ++ [c])) = true ↔
      checkDigit body = c.toNat - '0'.toNat := by
  have hall : ∀ d ∈ body ++ [c], d.isDigit = true := by
    intro d hd
    rcases List.mem_append.1 hd with hd | hd
    · exact h d hd
    · exact List.mem_singleton.1 hd ▸ hc
  have hunits : (encodeChars (body ++ [c])).all isDigit = true := by
    rw [encodeChars_digits hall, List.all_eq_true]
    intro u hu
    obtain ⟨d, hd, rfl⟩ := List.mem_map.1 hu
    exact isDigit_unitOf (hall d hd)
  have hlen : 2 ≤ (encodeChars (body ++ [c])).length := by
    have := List.length_pos_of_ne_nil hne
    rw [encodeChars_digits hall, List.length_map, List.length_append, List.length_singleton]
    omega
  have hlast : (encodeChars (body ++ [c])).getLast? = some (unitOf c) := by
    rw [encodeChars_digits hall, List.map_append]
    exact List.getLast?_concat
  have hdrop : (encodeChars (body ++ [c])).dropLast = encodeChars body := by
    rw [encodeChars_digits hall, encodeChars_digits h, List.map_append]
    exact List.dropLast_concat
  rw [hasValidCheckDigit, decide_eq_true hlen, hlast, hdrop, hunits, gs1CheckDigit_digits h]
  simp [digitOf_unitOf hc]

/-- **A valid SSCC is a body and its check digit.** -/
theorem isValidSscc_iff {x : Units} :
    isValidSscc x = true ↔ ∃ body, IsBody body ∧ x = encodeChars (withCheck body) := by
  constructor
  · intro h
    rw [isValidSscc, Bool.and_eq_true] at h
    obtain ⟨hdigits, hcheck⟩ := h
    simp only [isDigits, Bool.and_eq_true, decide_eq_true_eq, List.all_eq_true] at hdigits
    obtain ⟨cs, hcs, rfl⟩ := exists_digits hdigits.2
    have hlen : cs.length = 18 := by simpa [encodeChars_digits hcs] using hdigits.1
    obtain ⟨body, c, rfl⟩ : ∃ body c, cs = body ++ [c] :=
      ⟨cs.dropLast, cs.getLast (by rintro rfl; simp at hlen),
        (List.dropLast_append_getLast _).symm⟩
    have hbody : IsBody body :=
      ⟨by simpa using hlen, fun d hd => hcs d (List.mem_append_left _ hd)⟩
    have hc : c.isDigit = true := hcs c (by simp)
    have hne : body ≠ [] := by
      rintro rfl
      simp at hlen
    refine ⟨body, hbody, ?_⟩
    rw [withCheck, (hasValidCheckDigit_concat hbody.digits hc hne).1 hcheck,
      (digitChar_of_isDigit hc).2]
  · rintro ⟨body, hbody, rfl⟩
    have hne : body ≠ [] := by
      rintro rfl
      exact absurd hbody.length (by decide)
    have hd := digitChar_isDigit _ (checkDigit_lt body)
    have hvalid := (hasValidCheckDigit_concat hbody.digits hd hne).2
      (digitChar_toNat _ (checkDigit_lt body)).symm
    have hdigits : isDigits 18 (encodeChars (withCheck body)) = true := by
      rw [encodeChars_digits hbody.withCheck_digits, isDigits, List.length_map,
        hbody.withCheck_length]
      simp only [decide_true, Bool.true_and, List.all_eq_true]
      intro u hu
      obtain ⟨c, hc, rfl⟩ := List.mem_map.1 hu
      exact isDigit_unitOf (hbody.withCheck_digits c hc)
    rw [isValidSscc, hdigits, withCheck, hvalid]
    rfl

end Common

/-! ## Writing and reading -/

structure SsccFields where
  extension : ℕ
  issuer : List Char
  serial : ℕ
  extension_lt : extension < 10
  issuer_digits : ∀ c ∈ issuer, c.isDigit = true
  issuer_ge : 4 ≤ issuer.length
  issuer_le : issuer.length ≤ 12
  serial_lt : serial < 10 ^ (16 - issuer.length)

namespace SsccFields

variable (f : SsccFields)

def body : List Char :=
  Nat.toDigits 10 f.extension ++ f.issuer ++ pad (16 - f.issuer.length) f.serial

theorem pad_length : (pad (16 - f.issuer.length) f.serial).length = 16 - f.issuer.length := by
  have := f.issuer_le
  exact Text.pad_length (by omega) f.serial_lt

theorem isBody : IsBody f.body := by
  have h12 := f.issuer_le
  constructor
  · rw [body, List.length_append, List.length_append, Nat.toDigits_of_lt_base f.extension_lt,
      f.pad_length, List.length_singleton]
    omega
  · intro c hc
    rcases List.mem_append.1 hc with hc | hc
    · rcases List.mem_append.1 hc with hc | hc
      · exact toDigits_isDigit f.extension_lt c hc
      · exact f.issuer_digits c hc
    · rw [pad_eq_fixed (by omega) f.serial_lt] at hc
      exact fixed_isDigit _ _ c hc

theorem issuer_units : (encodeChars f.issuer).length = f.issuer.length := by
  rw [encodeChars_digits f.issuer_digits, List.length_map]

theorem byteLen_issuer : byteLen (String.ofList f.issuer) = f.issuer.length := by
  rw [byteLen_of_allDigits]
  · rw [String.toList_ofList]
  · rw [allDigits, String.toList_ofList, List.all_eq_true]
    exact f.issuer_digits

theorem ssccBody_eq : ssccBody f.extension (String.ofList f.issuer) f.serial = f.body := by
  rw [ssccBody, f.byteLen_issuer, String.toList_ofList, body]

end SsccFields

theorem leftpad_numeral {w n : ℕ} (hw : 0 < w) (hn : n < 10 ^ w) :
    (numeral n).leftpad w 48 = encodeChars (pad w n) := by
  have hdigits : ∀ c ∈ Nat.toDigits 10 n, c.isDigit = true := by
    intro c hc
    have hmem : c ∈ fixed w n := by
      rw [← pad_eq_fixed hw hn, pad, List.leftpad]
      exact List.mem_append_right _ hc
    exact fixed_isDigit w n c hmem
  have hzeros (k : ℕ) : encodeChars (List.replicate k '0') = List.replicate k 48 := by
    induction k with
    | zero => rfl
    | succ k ih =>
      rw [List.replicate_succ, encodeChars_cons, ih, List.replicate_succ]
      rfl
  rw [numeral, pad, List.leftpad, List.leftpad, encodeChars_append, hzeros,
    encodeChars_digits hdigits, List.length_map]

theorem buildSscc_fields (f : SsccFields) :
    buildSscc f.extension (encodeChars f.issuer) f.serial = .ok
    (encodeChars (withCheck f.body)) := by
  have h4 := f.issuer_ge
  have h12 := f.issuer_le
  have hall : (encodeChars f.issuer).all isDigit = true := by
    rw [encodeChars_digits f.issuer_digits, List.all_eq_true]
    intro u hu
    obtain ⟨c, hc, rfl⟩ := List.mem_map.1 hu
    exact isDigit_unitOf (f.issuer_digits c hc)
  have hcapacity : ssccSerialCapacity (encodeChars f.issuer) = .ok (10 ^ (16 - f.issuer.length)) := by
    rw [ssccSerialCapacity, f.issuer_units, if_pos ⟨hall, h4, h12⟩]
  have hext : ¬ (((f.extension : ℕ) : ℚ).isInt = false ∨ ((f.extension : ℕ) : ℚ) < 0 ∨
      9 < ((f.extension : ℕ) : ℚ)) := by
    have hlt : ((f.extension : ℕ) : ℚ) ≤ 9 := by exact_mod_cast Nat.lt_succ_iff.1 f.extension_lt
    rintro (h | h | h)
    · simp [Rat.isInt] at h
    · exact absurd h (not_lt.2 (Nat.cast_nonneg _))
    · exact absurd h (not_lt.2 hlt)
  have hser : ¬ (((f.serial : ℕ) : ℚ).isInt = false ∨ ((f.serial : ℕ) : ℚ) < 0 ∨
      ((10 ^ (16 - f.issuer.length) : ℕ) : ℚ) ≤ ((f.serial : ℕ) : ℚ)) := by
    rintro (h | h | h)
    · simp [Rat.isInt] at h
    · exact absurd h (not_lt.2 (Nat.cast_nonneg _))
    · exact absurd (Nat.cast_le.1 h) (not_le.2 f.serial_lt)
  have hbody : numeral f.extension ++ encodeChars f.issuer ++
      (numeral f.serial).leftpad (16 - (encodeChars f.issuer).length) 48 = encodeChars f.body := by
    rw [f.issuer_units, leftpad_numeral (by omega) f.serial_lt, numeral, SsccFields.body,
      encodeChars_append, encodeChars_append]
  rw [buildSscc, if_neg hext, hcapacity]
  simp only [bind, Except.bind]
  rw [if_neg hser]
  simp only [Rat.num_natCast, Int.toNat_natCast, hbody]
  rw [gs1CheckDigit_digits f.isBody.digits, numeral, Nat.toDigits_of_lt_base (checkDigit_lt _),
    withCheck, encodeChars_append]

theorem buildSscc_ok {e s : ℚ} {p x : Units} (h : buildSscc e p s = .ok x) :
    ∃ f : SsccFields, e = f.extension ∧ p = encodeChars f.issuer ∧ s = f.serial := by
  unfold buildSscc at h
  split at h
  · cases h
  next hext =>
    simp only [not_or, Bool.not_eq_false, not_lt] at hext
    obtain ⟨hint, h0, h9⟩ := hext
    unfold ssccSerialCapacity at h
    split at h
    next hp =>
      simp only [bind, Except.bind] at h
      split at h
      · cases h
      next hser =>
        simp only [not_or, Bool.not_eq_false, not_lt, not_le] at hser
        obtain ⟨hsint, hs0, hslt⟩ := hser
        obtain ⟨ps, hps, rfl⟩ := exists_digits (List.all_eq_true.1 hp.1)
        rw [encodeChars_digits hps, List.length_map] at hp hslt
        have he := eq_natCast_of_isInt hint h0
        have hs := eq_natCast_of_isInt hsint hs0
        rw [he] at h9
        rw [hs] at hslt
        have h9' : e.num.toNat ≤ 9 := by exact_mod_cast h9
        exact ⟨⟨e.num.toNat, ps, s.num.toNat, by omega, hps, hp.2.1, hp.2.2,
          Nat.cast_lt.1 hslt⟩, he, rfl, hs⟩
    · cases h

theorem SsccFields.body_injective {f g : SsccFields} (hlen : f.issuer.length = g.issuer.length)
    (h : f.body = g.body) :
    f.extension = g.extension ∧ f.issuer = g.issuer ∧ f.serial = g.serial := by
  have h12 := f.issuer_le
  unfold body at h
  rw [Nat.toDigits_of_lt_base f.extension_lt, Nat.toDigits_of_lt_base g.extension_lt] at h
  obtain ⟨h1, h2⟩ := List.append_inj h (by simp [hlen])
  obtain ⟨h3, h4⟩ := List.cons.inj h1
  refine ⟨digitChar_inj _ f.extension_lt _ g.extension_lt h3, h4, ?_⟩
  rw [hlen] at h2
  exact pad_injective (by omega) (hlen ▸ f.serial_lt) g.serial_lt h2

theorem IsBody.exists_fields {body : List Char} {w : ℕ} (h : IsBody body) (h4 : 4 ≤ w)
    (h12 : w ≤ 12) : ∃ f : SsccFields, f.issuer.length = w ∧ f.body = body := by
  have hlen := h.length
  have hdigits (l : List Char) (hl : l ⊆ body) : ∀ c ∈ l, c.isDigit = true :=
    fun c hc => h.digits c (hl hc)
  have h1 := fixed_ofDigitChars (hdigits (body.take 1) (List.take_subset _ _))
  have h2 := fixed_ofDigitChars (hdigits (body.drop (1 + w)) (List.drop_subset _ _))
  have hl1 : (body.take 1).length = 1 := by rw [List.length_take]; omega
  have hl2 : (body.drop (1 + w)).length = 16 - w := by rw [List.length_drop]; omega
  have hl : ((body.drop 1).take w).length = w := by
    rw [List.length_take, List.length_drop]
    omega
  rw [hl1] at h1
  rw [hl2] at h2
  have hpad : pad (16 - w) (Nat.ofDigitChars 10 (body.drop (1 + w)) 0) = body.drop (1 + w) := by
    rw [pad_eq_fixed (by omega) h2.1, h2.2]
  have hext : Nat.toDigits 10 (Nat.ofDigitChars 10 (body.take 1) 0) = body.take 1 := by
    have hlt : Nat.ofDigitChars 10 (body.take 1) 0 < 10 := h1.1
    have hfixed : fixed 1 (Nat.ofDigitChars 10 (body.take 1) 0) =
        [Nat.digitChar (Nat.ofDigitChars 10 (body.take 1) 0)] := by
      rw [fixed, Nat.mod_eq_of_lt hlt]
      rfl
    rw [Nat.toDigits_of_lt_base hlt, ← hfixed, h1.2]
  refine ⟨⟨Nat.ofDigitChars 10 (body.take 1) 0, (body.drop 1).take w,
    Nat.ofDigitChars 10 (body.drop (1 + w)) 0, h1.1, ?_, by omega, by omega, ?_⟩, hl, ?_⟩
  · exact hdigits _ fun c hc => List.mem_of_mem_drop (List.mem_of_mem_take hc)
  · rw [hl]
    exact h2.1
  · rw [SsccFields.body]
    simp only [hl, hpad, hext]
    rw [List.append_assoc, ← List.drop_drop, List.take_append_drop, List.take_append_drop]

theorem parseSscc_fields (f : SsccFields) :
    parseSscc (encodeChars (withCheck f.body)) f.issuer.length =
      .ok (some ⟨f.extension, encodeChars f.issuer, f.serial⟩) := by
  have h4 := f.issuer_ge
  have h12 := f.issuer_le
  have hvalid : isValidSscc (encodeChars (withCheck f.body)) = true :=
    isValidSscc_iff.2 ⟨_, f.isBody, rfl⟩
  have hrange : ¬ (((f.issuer.length : ℕ) : ℚ).isInt = false ∨ ((f.issuer.length : ℕ) : ℚ) < 4 ∨
      12 < ((f.issuer.length : ℕ) : ℚ)) := by
    have hge : (4 : ℚ) ≤ f.issuer.length := by exact_mod_cast h4
    have hle : (f.issuer.length : ℚ) ≤ 12 := by exact_mod_cast h12
    rintro (h | h | h)
    · simp [Rat.isInt] at h
    · exact absurd h (not_lt.2 hge)
    · exact absurd h (not_lt.2 hle)
  have hext := toDigits_isDigit f.extension_lt
  have hpad : ∀ c ∈ pad (16 - f.issuer.length) f.serial, c.isDigit = true := by
    rw [pad_eq_fixed (by omega) f.serial_lt]
    exact fixed_isDigit _ _
  -- The units in their columns.
  have hunits : encodeChars (withCheck f.body) = encodeChars (Nat.toDigits 10 f.extension) ++
      (encodeChars f.issuer ++ (encodeChars (pad (16 - f.issuer.length) f.serial) ++
        encodeChars [Nat.digitChar (checkDigit f.body)])) := by
    rw [withCheck, encodeChars_append, SsccFields.body, encodeChars_append, encodeChars_append]
    simp only [List.append_assoc]
  have hl1 : (encodeChars (Nat.toDigits 10 f.extension)).length = 1 := by
    rw [encodeChars_digits hext, List.length_map, Nat.toDigits_of_lt_base f.extension_lt]
    rfl
  have hl3 : (encodeChars (pad (16 - f.issuer.length) f.serial)).length = 16 - f.issuer.length := by
    rw [encodeChars_digits hpad, List.length_map, f.pad_length]
  have hl2 := f.issuer_units
  have htake : (encodeChars (withCheck f.body)).take 1 = encodeChars (Nat.toDigits 10 f.extension) := by
    rw [hunits, List.take_left' hl1]
  have hissuer : ((encodeChars (withCheck f.body)).drop 1).take f.issuer.length =
      encodeChars f.issuer := by
    rw [hunits, List.drop_left' hl1, List.take_left' hl2]
  have hserial : ((encodeChars (withCheck f.body)).take 17).drop (1 + f.issuer.length) =
      encodeChars (pad (16 - f.issuer.length) f.serial) := by
    rw [List.drop_take, hunits, ← List.drop_drop, List.drop_left' hl1, List.drop_left' hl2,
      List.take_left' (by omega)]
  rw [parseSscc, hvalid, if_neg (by decide), if_neg hrange]
  simp only [Rat.num_natCast, Int.toNat_natCast, htake, hissuer, hserial]
  rw [readNumber_digits hext, readNumber_digits hpad, Nat.ofDigitChars_ten_toDigits,
    pad_eq_fixed (by omega) f.serial_lt, ofDigitChars_fixed f.serial_lt]

/-! ## The host's writer -/

theorem allDigits_iff {s : String} : allDigits s = true ↔ ∀ c ∈ s.toList, c.isDigit = true :=
  List.all_eq_true

def SsccFields.ofHost (e : ℕ) (p : String) (n : ℕ) (he : e < 10) (hp : prefixOk p = true)
    (hn : n < serialCapacity p) : SsccFields where
  extension := e
  issuer := p.toList
  serial := n
  extension_lt := he
  issuer_digits := by
    simp only [prefixOk, Bool.and_eq_true] at hp
    exact allDigits_iff.1 hp.2
  issuer_ge := by
    simp only [prefixOk, Bool.and_eq_true, decide_eq_true_eq] at hp
    rw [← byteLen_of_allDigits hp.2]
    exact hp.1.1
  issuer_le := by
    simp only [prefixOk, Bool.and_eq_true, decide_eq_true_eq] at hp
    rw [← byteLen_of_allDigits hp.2]
    exact hp.1.2
  serial_lt := by
    simp only [prefixOk, Bool.and_eq_true, decide_eq_true_eq] at hp
    rw [← byteLen_of_allDigits hp.2]
    exact hn

theorem SsccFields.of_encode (f : SsccFields) {p : String} (h : encode p = encodeChars f.issuer) :
    p = String.ofList f.issuer ∧ prefixOk p = true ∧ f.serial < serialCapacity p := by
  have hp : p.toList = f.issuer := encodeChars_injective h
  have hdigits : allDigits p = true := by
    rw [allDigits_iff, hp]
    exact f.issuer_digits
  have hlen : byteLen p = f.issuer.length := by rw [byteLen_of_allDigits hdigits, hp]
  refine ⟨?_, ?_, ?_⟩
  · rw [← hp, String.ofList_toList]
  · simp only [prefixOk, hdigits, hlen, Bool.and_true, decide_eq_true_eq]
    exact ⟨f.issuer_ge, f.issuer_le⟩
  · rw [serialCapacity, hlen]
    exact f.serial_lt

/-- What `buildSscc` answers of a digit and what the host takes. -/
theorem buildSscc_ok_iff {e n : ℕ} {p : String} {x : Units} (he : e < 10) :
    buildSscc e (encode p) n = .ok x ↔ prefixOk p = true ∧ n < serialCapacity p ∧
      x = encodeChars (withCheck (ssccBody e p n)) := by
  constructor
  · intro h
    obtain ⟨f, hf, hp, hn⟩ := buildSscc_ok h
    have hf : e = f.extension := Nat.cast_injective hf
    have hn : n = f.serial := Nat.cast_injective hn
    obtain ⟨rfl, hok, hlt⟩ := f.of_encode hp
    rw [hf, hp, hn, buildSscc_fields] at h
    refine ⟨hok, hn ▸ hlt, ?_⟩
    rw [hf, hn, f.ssccBody_eq]
    exact (Except.ok.inj h).symm
  · rintro ⟨hp, hn, rfl⟩
    have hbody := (SsccFields.ofHost e p n he hp hn).ssccBody_eq
    simp only [SsccFields.ofHost, String.ofList_toList] at hbody
    rw [hbody]
    exact buildSscc_fields (SsccFields.ofHost e p n he hp hn)

theorem buildPalletSscc_eq (p : String) (n : ℕ) :
    (buildPalletSscc p n).map encode = (buildSscc 1 (encode p) n).toOption := by
  have hiff {x : Units} := @buildSscc_ok_iff 1 n p x (by decide)
  rw [Nat.cast_one] at hiff
  by_cases h : prefixOk p = true ∧ n < serialCapacity p
  · rw [hiff.2 ⟨h.1, h.2, rfl⟩, buildPalletSscc, if_pos h]
    simp only [Option.map_some, Except.toOption, encode, String.toList_ofList, withCheck]
    rw [Nat.toDigits_of_lt_base (checkDigit_lt _)]
  · rw [buildPalletSscc, if_neg h]
    cases hb : buildSscc 1 (encode p) n with
    | error e => rfl
    | ok x =>
      obtain ⟨hp, hn, -⟩ := hiff.1 hb
      exact absurd ⟨hp, hn⟩ h

theorem namesSerial_iff {sscc p : String} {e n : ℕ} (he : e < 10) (hp : prefixOk p = true) :
    namesSerial sscc e p n = true ↔
      ∃ x, buildSscc e (encode p) n = .ok x ∧ (encode sscc).take 17 = x.take 17 := by
  have hbody (hn : n < serialCapacity p) : IsBody (ssccBody e p n) := by
    have hfields := (SsccFields.ofHost e p n he hp hn).ssccBody_eq
    simp only [SsccFields.ofHost, String.ofList_toList] at hfields
    rw [hfields]
    exact (SsccFields.ofHost e p n he hp hn).isBody
  have htake (hn : n < serialCapacity p) :
      (encodeChars (withCheck (ssccBody e p n))).take 17 = encodeChars (ssccBody e p n) := by
    rw [withCheck, encodeChars_append, List.take_left']
    rw [encodeChars_digits (hbody hn).digits, List.length_map, (hbody hn).length]
  simp only [namesSerial, Bool.and_eq_true, decide_eq_true_eq]
  constructor
  · rintro ⟨⟨hn, -⟩, hstart⟩
    refine ⟨_, (buildSscc_ok_iff he).2 ⟨hp, hn, rfl⟩, ?_⟩
    rw [htake hn, encode, ← List.take_append_drop 17 sscc.toList, hstart, encodeChars_append,
      List.take_left']
    rw [encodeChars_digits (hbody hn).digits, List.length_map, (hbody hn).length]
  · rintro ⟨x, hx, hstart⟩
    obtain ⟨-, hn, rfl⟩ := (buildSscc_ok_iff he).1 hx
    rw [htake hn] at hstart
    have hsplit : encodeChars sscc.toList = encodeChars (ssccBody e p n) ++ (encode sscc).drop 17 := by
      rw [← hstart, List.take_append_drop, encode]
    obtain ⟨rest, hrest, -⟩ := encodeChars_eq_append hsplit
    have hlen := (hbody hn).length
    rw [hrest, List.take_left' hlen, List.length_append]
    exact ⟨⟨hn, by omega⟩, rfl⟩

/-! ## Scans -/

/-- What a scanner may put before the digits. -/
def wrappers : List String := ["", "00", "(00)", "]C1", "]C100", "]C1(00)"]

section Scans

variable {raw x : Units}

theorem isValidSscc_head (h : isValidSscc x = true) :
    x.length = 18 ∧ ∃ u rest, x = u :: rest ∧ isDigit u = true := by
  rw [isValidSscc, Bool.and_eq_true] at h
  simp only [isDigits, Bool.and_eq_true, decide_eq_true_eq, List.all_eq_true] at h
  cases x with
  | nil => simp at h
  | cons u rest => exact ⟨h.1.1, u, rest, rfl, h.1.2 u List.mem_cons_self⟩

theorem eq_append_drop {w : String} {n : ℕ} (hn : (encode w).length = n)
    (h : (encode w).isPrefixOf raw = true) : raw = encode w ++ raw.drop n := by
  obtain ⟨t, rfl⟩ := List.isPrefixOf_iff_prefix.1 h
  rw [List.drop_left' hn]

theorem withoutSsccAi_spec (rest : Units) :
    ∃ w ∈ ["", "00", "(00)"], rest = encode w ++ withoutSsccAi rest := by
  unfold withoutSsccAi
  split
  next h => exact ⟨"(00)", by simp, eq_append_drop rfl h⟩
  split
  next h => exact ⟨"00", by simp, eq_append_drop rfl h.2⟩
  · exact ⟨"", by simp, rfl⟩

/-- **The scans of an SSCC are its digits after one of the wrappers.** -/
theorem parseScannedSscc_iff : parseScannedSscc raw false = some x ↔
    isValidSscc x = true ∧ ∃ w ∈ wrappers, raw = encode w ++ x := by
  constructor
  · intro h
    unfold parseScannedSscc at h
    simp only [Bool.false_and, Bool.false_eq_true, if_false] at h
    split at h
    · cases h
    split at h
    next haim =>
      obtain ⟨w, hw, hrest⟩ := withoutSsccAi_spec (raw.drop 3)
      obtain ⟨hvalid, hsome⟩ := Option.ite_none_right_eq_some.1 h
      obtain rfl := Option.some.inj hsome
      refine ⟨hvalid, "]C1" ++ w, ?_, ?_⟩
      · simp only [List.mem_cons, List.not_mem_nil, or_false] at hw
        rcases hw with rfl | rfl | rfl <;> decide
      · rw [encode, String.toList_append, encodeChars_append, List.append_assoc]
        exact (eq_append_drop rfl haim).trans (congrArg _ hrest)
    next =>
      obtain ⟨w, hw, hrest⟩ := withoutSsccAi_spec raw
      obtain ⟨hvalid, hsome⟩ := Option.ite_none_right_eq_some.1 h
      obtain rfl := Option.some.inj hsome
      refine ⟨hvalid, w, ?_, hrest⟩
      simp only [List.mem_cons, List.not_mem_nil, or_false] at hw
      rcases hw with rfl | rfl | rfl <;> decide
  · rintro ⟨hx, w, hw, rfl⟩
    obtain ⟨hlen, u, rest, rfl, hu⟩ := isValidSscc_head hx
    have hbracket : (93 == u) = false ∧ (40 == u) = false := by
      constructor
      all_goals
        rw [beq_eq_false_iff_ne]
        rintro rfl
        exact absurd hu (by decide)
    simp only [wrappers, List.mem_cons, List.not_mem_nil, or_false] at hw
    rcases hw with rfl | rfl | rfl | rfl | rfl | rfl <;>
    simp [parseScannedSscc, withoutSsccAi, encode, encodeChars, encodeChar, List.isPrefixOf,
      hbracket, hx, hlen]

end Scans

/-! ## The host's reader -/

section Host

variable {raw t : String} {body : List Char}

def hostValid (t : String) : Prop := digits 18 t = true ∧
  some (checkDigit (t.toList.take 17)) = (t.toList[17]?).map fun c => c.toNat - '0'.toNat

theorem hostValid_iff : hostValid t ↔ isValidSscc (encode t) = true := by
  rw [isValidSscc_iff]
  constructor
  · rintro ⟨hdigits, hcheck⟩
    simp only [digits, Bool.and_eq_true, decide_eq_true_eq] at hdigits
    obtain ⟨hlen, hall⟩ := hdigits
    rw [byteLen_of_allDigits hall] at hlen
    have hlast : t.toList[17]? = some (t.toList.get ⟨17, by omega⟩) :=
      List.getElem?_eq_getElem (by omega)
    have hc : (t.toList.get ⟨17, by omega⟩).isDigit = true :=
      allDigits_iff.1 hall _ (List.get_mem _ _)
    rw [hlast, Option.map_some, Option.some.injEq] at hcheck
    refine ⟨t.toList.take 17, ⟨by rw [List.length_take]; omega, ?_⟩, ?_⟩
    · exact fun c hc => allDigits_iff.1 hall c (List.mem_of_mem_take hc)
    · rw [withCheck, hcheck, (digitChar_of_isDigit hc).2, encode]
      congr 1
      have hdrop : t.toList.drop 17 = [t.toList.get ⟨17, by omega⟩] := by
        rw [List.drop_eq_getElem_cons (by omega), List.drop_eq_nil_of_le (by omega)]
        rfl
      rw [← hdrop, List.take_append_drop]
  · rintro ⟨body, hbody, ht⟩
    have ht : t.toList = withCheck body := encodeChars_injective ht
    have hall : allDigits t = true := by
      rw [allDigits_iff, ht]
      exact hbody.withCheck_digits
    refine ⟨?_, ?_⟩
    · rw [digits, byteLen_of_allDigits hall, hall, ht, hbody.withCheck_length]
      rfl
    · rw [ht, withCheck, List.take_left' hbody.length, List.getElem?_append_right (by rw [hbody.length]),
        hbody.length]
      simp only [Nat.sub_self, List.getElem?_cons_zero, Option.map_some,
        digitChar_toNat _ (checkDigit_lt body)]

theorem stripStart_eq_some {start s rest : String} :
    stripStart start s = some rest ↔ s = start ++ rest := by
  rw [stripStart]
  constructor
  · intro h
    obtain ⟨hstart, hsome⟩ := Option.ite_none_right_eq_some.1 h
    obtain rfl := Option.some.inj hsome
    obtain ⟨r, hr⟩ := List.isPrefixOf_iff_prefix.1 hstart
    apply String.toList_injective
    rw [String.toList_append, String.toList_ofList, ← hr, List.drop_left]
  · rintro rfl
    rw [String.toList_append, if_pos (List.isPrefixOf_iff_prefix.2 (List.prefix_append _ _)),
      List.drop_left, String.ofList_toList]

theorem stripStart_of_head {start s : String} {c d : Char} {cs ds : List Char}
    (hstart : start.toList = c :: cs) (hs : s.toList = d :: ds) (h : c ≠ d) :
    stripStart start s = none := by
  rw [stripStart, hstart, hs]
  simp [List.isPrefixOf, h]

theorem byteLen_append (s r : String) : byteLen (s ++ r) = byteLen s + byteLen r := by
  rw [byteLen, String.toList_append, List.map_append, List.sum_append]
  rfl

/-- The host's text after its trimming. -/
def hostTrim (raw : String) : String :=
  trimMatches (fun c => (isWhitespace c && c != '\x85') || c == '\ufeff') raw

theorem unwrapSscc_spec {r : String} (h : unwrapSscc r = some t) : ∃ w ∈ wrappers, r = w ++ t := by
  unfold unwrapSscc at h
  dsimp only at h
  generalize hs : (stripStart "]C1" r).getD r = s at h
  have hinner : ∃ w ∈ ["", "00", "(00)"], s = w ++ t := by
    cases hb : stripStart "(00)" s with
    | some rest =>
      rw [hb] at h
      obtain rfl := Option.some.inj h
      exact ⟨"(00)", by simp, stripStart_eq_some.1 hb⟩
    | none =>
      rw [hb] at h
      simp only at h
      split at h
      · exact ⟨"00", by simp, stripStart_eq_some.1 h⟩
      · obtain rfl := Option.some.inj h
        exact ⟨"", by simp, by simp⟩
  obtain ⟨w, hw, rfl⟩ := hinner
  simp only [List.mem_cons, List.not_mem_nil, or_false] at hw
  cases haim : stripStart "]C1" r with
  | some rest =>
    rw [haim, Option.getD_some] at hs
    refine ⟨"]C1" ++ w, ?_, ?_⟩
    · rcases hw with rfl | rfl | rfl <;> decide
    · rw [stripStart_eq_some.1 haim, hs, String.append_assoc]
  | none =>
    rw [haim, Option.getD_none] at hs
    refine ⟨w, ?_, hs⟩
    rcases hw with rfl | rfl | rfl <;> decide

theorem unwrapSscc_wrap {w : String} {c : Char} {cs : List Char} (ht : t.toList = c :: cs)
    (hc : c.isDigit = true) (hlen : byteLen t = 18) (hw : w ∈ wrappers) :
    unwrapSscc (w ++ t) = some t := by
  have h1 : ']' ≠ c := by
    rintro rfl
    exact absurd hc (by decide)
  have h2 : '(' ≠ c := by
    rintro rfl
    exact absurd hc (by decide)
  have haim : stripStart "]C1" t = none := stripStart_of_head rfl ht h1
  have hbrackets : stripStart "(00)" t = none := stripStart_of_head rfl ht h2
  have hzeros : ("00" ++ t).toList = '0' :: '0' :: t.toList := by rw [String.toList_append]; rfl
  have hbracket : ("(00)" ++ t).toList = '(' :: '0' :: '0' :: ')' :: t.toList := by
    rw [String.toList_append]
    rfl
  have haim2 : stripStart "]C1" ("00" ++ t) = none := stripStart_of_head rfl hzeros (by decide)
  have haim3 : stripStart "]C1" ("(00)" ++ t) = none := stripStart_of_head rfl hbracket (by decide)
  have hbr2 : stripStart "(00)" ("00" ++ t) = none := stripStart_of_head rfl hzeros (by decide)
  have hstrip (a b : String) : stripStart a (a ++ b) = some b := stripStart_eq_some.2 rfl
  have hlen20 : byteLen ("00" ++ t) = 20 := by
    rw [byteLen_append, hlen]
    rfl
  simp only [wrappers, List.mem_cons, List.not_mem_nil, or_false] at hw
  rcases hw with rfl | rfl | rfl | rfl | rfl | rfl
  · simp [unwrapSscc, haim, hbrackets, hlen]
  · simp [unwrapSscc, haim2, hbr2, hlen20, hstrip]
  · simp [unwrapSscc, haim3, hstrip]
  · simp [unwrapSscc, hstrip, hbrackets, hlen]
  · rw [show "]C100" ++ t = "]C1" ++ ("00" ++ t) by rw [← String.append_assoc]; rfl]
    simp [unwrapSscc, hstrip, hbr2, hlen20]
  · rw [show "]C1(00)" ++ t = "]C1" ++ ("(00)" ++ t) by rw [← String.append_assoc]; rfl]
    simp [unwrapSscc, hstrip]

theorem normalizeSscc_iff : normalizeSscc raw = some t ↔
    hostValid t ∧ ∃ w ∈ wrappers, hostTrim raw = w ++ t := by
  constructor
  · intro h
    unfold normalizeSscc at h
    simp only at h
    split at h
    · cases h
    split at h
    · cases h
    next r hr =>
      obtain ⟨hvalid, hsome⟩ := Option.ite_none_right_eq_some.1 h
      obtain rfl := Option.some.inj hsome
      exact ⟨hvalid, unwrapSscc_spec hr⟩
  · rintro ⟨hvalid, w, hw, htrim⟩
    have hdigits := hvalid.1
    simp only [digits, Bool.and_eq_true, decide_eq_true_eq] at hdigits
    obtain ⟨hlen, hall⟩ := hdigits
    obtain ⟨c, cs, ht⟩ : ∃ c cs, t.toList = c :: cs := by
      cases hl : t.toList with
      | nil =>
        rw [byteLen, hl] at hlen
        cases hlen
      | cons c cs => exact ⟨c, cs, rfl⟩
    have hc : c.isDigit = true := allDigits_iff.1 hall c (by rw [ht]; exact List.mem_cons_self)
    have hshort : ¬ 25 < byteLen (w ++ t) := by
      have hle : ∀ w ∈ wrappers, byteLen w ≤ 7 := by decide
      have := hle w hw
      rw [byteLen_append]
      omega
    have hunwrap := unwrapSscc_wrap ht hc hlen hw
    rw [normalizeSscc, show trimMatches _ raw = w ++ t from htrim, if_neg hshort, hunwrap]
    exact if_pos hvalid

/-- The host trims what ECMAScript trims. -/
theorem ecma_agree :
    Utf16.Agree isEcmaWhitespace fun c => (isWhitespace c && c != '\x85') || c == '\ufeff' := by
  have hcode (c d : Char) : c = d ↔ c.toNat = d.toNat := Char.toNat_inj.symm
  refine ⟨?_, ?_, ?_⟩
  · intro c hc
    have h85 : '\x85'.toNat = 133 := rfl
    have hfeff : '\ufeff'.toNat = 0xfeff := rfl
    rw [Bool.eq_iff_iff]
    simp only [isEcmaWhitespace, isWhitespace, toNat_unit hc, Bool.or_eq_true, Bool.and_eq_true,
      decide_eq_true_eq, beq_iff_eq, bne_iff_ne, ne_eq, hcode, h85, hfeff]
    omega
  · intro u hlow hhigh
    rw [Bool.eq_false_iff]
    simp only [isEcmaWhitespace, ne_eq, Bool.or_eq_true, Bool.and_eq_true, decide_eq_true_eq,
      beq_iff_eq]
    omega
  · intro c hc
    have hfeff : '\ufeff'.toNat = 0xfeff := rfl
    rw [Bool.eq_false_iff]
    simp only [isWhitespace, ne_eq, Bool.or_eq_true, Bool.and_eq_true, decide_eq_true_eq,
      beq_iff_eq, hcode, hfeff]
    omega

theorem ecmaTrim_encode (raw : String) : ecmaTrim (encode raw) = encode (hostTrim raw) := by
  rw [ecmaTrim, encode, ecma_agree.trimBy, encode, hostTrim, trimMatches, String.toList_ofList]
  rfl

theorem normalizeSscc_eq (raw : String) :
    (normalizeSscc raw).map encode = parseScannedSscc (ecmaTrim (encode raw)) false := by
  apply Option.ext
  intro x
  rw [Option.map_eq_some_iff, parseScannedSscc_iff, ecmaTrim_encode]
  constructor
  · rintro ⟨t, ht, rfl⟩
    obtain ⟨hvalid, w, hw, htrim⟩ := normalizeSscc_iff.1 ht
    refine ⟨hostValid_iff.1 hvalid, w, hw, ?_⟩
    rw [htrim, encode, String.toList_append, encodeChars_append]
    rfl
  · rintro ⟨hvalid, w, hw, htrim⟩
    obtain ⟨rest, hrest, rfl⟩ := encodeChars_eq_append htrim
    have hx : encode (String.ofList rest) = encodeChars rest := by rw [encode, String.toList_ofList]
    refine ⟨String.ofList rest, normalizeSscc_iff.2 ⟨hostValid_iff.2 (hx ▸ hvalid), w, hw, ?_⟩, hx⟩
    apply String.toList_injective
    rw [String.toList_append, String.toList_ofList, hrest]

end Host

/-! ## The codec -/

/-- The domain of `buildSscc`: a digit, a prefix of 4 to 12 digits, a serial that fits. -/
structure SsccArgs (e : ℕ) (p : Units) (n : ℕ) : Prop where
  extension : e ≤ 9
  digits : p.all isDigit = true
  ge : 4 ≤ p.length
  le : p.length ≤ 12
  serial : n < 10 ^ (16 - p.length)

theorem SsccArgs.fields {e n : ℕ} {p : Units} (h : SsccArgs e p n) :
    ∃ f : SsccFields, e = f.extension ∧ p = encodeChars f.issuer ∧ n = f.serial := by
  obtain ⟨ps, hps, rfl⟩ := exists_digits (List.all_eq_true.1 h.digits)
  have hlen : (encodeChars ps).length = ps.length := by rw [encodeChars_digits hps, List.length_map]
  have h4 := hlen ▸ h.ge
  have h12 := hlen ▸ h.le
  have hn := hlen ▸ h.serial
  exact ⟨⟨e, ps, n, Nat.lt_succ_of_le h.extension, hps, h4, h12, hn⟩, rfl, rfl, rfl⟩

theorem parseSscc_buildSscc {e n : ℕ} {p : Units} (h : SsccArgs e p n) :
    ∃ x, buildSscc e p n = .ok x ∧ parseSscc x p.length = .ok (some ⟨e, p, n⟩) := by
  obtain ⟨f, rfl, rfl, rfl⟩ := h.fields
  refine ⟨_, buildSscc_fields f, ?_⟩
  rw [f.issuer_units]
  exact parseSscc_fields f

theorem buildSscc_parseSscc {x : Units} {w : ℕ} (hx : isValidSscc x = true) (h4 : 4 ≤ w)
    (h12 : w ≤ 12) : ∃ q : ParsedSscc, parseSscc x w = .ok (some q) ∧
      buildSscc q.extensionDigit q.gs1Prefix q.serial = .ok x ∧ q.serial < 2 ^ 53 := by
  obtain ⟨body, hbody, rfl⟩ := isValidSscc_iff.1 hx
  obtain ⟨f, rfl, rfl⟩ := hbody.exists_fields h4 h12
  refine ⟨_, parseSscc_fields f, buildSscc_fields f, ?_⟩
  calc f.serial < 10 ^ (16 - f.issuer.length) := f.serial_lt
    _ ≤ 10 ^ 12 := Nat.pow_le_pow_right (by decide) (by omega)
    _ < 2 ^ 53 := by decide

theorem buildSscc_injective {e s e' s' : ℚ} {p p' x : Units} (h : buildSscc e p s = .ok x)
    (h' : buildSscc e' p' s' = .ok x) (hlen : p.length = p'.length) : e = e' ∧ p = p' ∧ s = s' := by
  obtain ⟨f, rfl, rfl, rfl⟩ := buildSscc_ok h
  obtain ⟨g, rfl, rfl, rfl⟩ := buildSscc_ok h'
  rw [buildSscc_fields] at h h'
  rw [f.issuer_units, g.issuer_units] at hlen
  have hcheck : withCheck f.body = withCheck g.body :=
    encodeChars_injective ((Except.ok.inj h).trans (Except.ok.inj h').symm)
  have hbody : f.body = g.body :=
    (List.append_inj hcheck (by rw [f.isBody.length, g.isBody.length])).1
  obtain ⟨he, hp, hs⟩ := SsccFields.body_injective hlen hbody
  exact ⟨by rw [he], by rw [hp], by rw [hs]⟩

theorem formatSscc_scanned {x : Units} (hx : isValidSscc x = true) :
    (∃ y, formatSsccWithAi x = .ok y ∧ parseScannedSscc y false = some x) ∧
      ∃ y, formatSsccHri x = .ok y ∧ parseScannedSscc y false = some x := by
  have hdigits : isDigits 18 x = true := by
    rw [isValidSscc, Bool.and_eq_true] at hx
    exact hx.1
  have hbare : ¬ (x.length = 20 ∧ (encode "00").isPrefixOf x = true) := by
    rintro ⟨hlen, -⟩
    have := (isValidSscc_head hx).1
    omega
  constructor
  · refine ⟨encode "00" ++ x, by rw [formatSsccWithAi, hdigits]; rfl, ?_⟩
    exact parseScannedSscc_iff.2 ⟨hx, "00", by decide, rfl⟩
  · refine ⟨encode "(00)" ++ x, ?_, parseScannedSscc_iff.2 ⟨hx, "(00)", by decide, rfl⟩⟩
    rw [formatSsccHri, if_neg hbare, hdigits]
    rfl

theorem exists_wrapper {raw x : Units} : (∃ w ∈ wrappers, raw = encode w ++ x) ↔
    ∃ symbology ∈ ["", "]C1"], ∃ ai ∈ ["", "00", "(00)"],
      raw = encode symbology ++ encode ai ++ x := by
  simp only [wrappers, List.mem_cons, List.not_mem_nil, or_false, exists_eq_or_imp,
    exists_eq_left, or_assoc]
  exact Iff.rfl

/-- **One codec in two languages.** Reading undoes writing and writing undoes reading without loss
of precision, `buildSscc` is injective for one length of prefix, the host writes and recognises the
same SSCCs, a scan is an SSCC after one of six wrappers, and the host reads the scans the domain
reads, without their edge whitespace. -/
theorem one_sscc_codec :
    (∀ e p n, SsccArgs e p n → ∃ x, buildSscc e p n = .ok x ∧
      parseSscc x p.length = .ok (some ⟨e, p, n⟩)) ∧
    (∀ x (w : ℕ), isValidSscc x = true → 4 ≤ w → w ≤ 12 → ∃ q : ParsedSscc,
      parseSscc x w = .ok (some q) ∧ buildSscc q.extensionDigit q.gs1Prefix q.serial = .ok x ∧
        q.serial < 2 ^ 53) ∧
    (∀ e s e' s' p p' x, buildSscc e p s = .ok x → buildSscc e' p' s' = .ok x →
      p.length = p'.length → e = e' ∧ p = p' ∧ s = s') ∧
    (∀ (p : String) (n : ℕ),
      (buildPalletSscc p n).map encode = (buildSscc 1 (encode p) n).toOption) ∧
    (∀ (sscc p : String) (e n : ℕ), e ≤ 9 → prefixOk p = true →
      (namesSerial sscc e p n = true ↔
        ∃ x, buildSscc e (encode p) n = .ok x ∧ (encode sscc).take 17 = x.take 17)) ∧
    (∀ raw x, parseScannedSscc raw false = some x ↔ isValidSscc x = true ∧
      ∃ symbology ∈ ["", "]C1"], ∃ ai ∈ ["", "00", "(00)"],
        raw = encode symbology ++ encode ai ++ x) ∧
    (∀ raw, (normalizeSscc raw).map encode = parseScannedSscc (ecmaTrim (encode raw)) false) ∧
    ∀ x, isValidSscc x = true → (∃ y, formatSsccWithAi x = .ok y ∧ parseScannedSscc y false = some x) ∧
      ∃ y, formatSsccHri x = .ok y ∧ parseScannedSscc y false = some x := by
  refine ⟨fun _ _ _ h => parseSscc_buildSscc h, fun _ _ hx h4 h12 => buildSscc_parseSscc hx h4 h12,
    fun _ _ _ _ _ _ _ h h' hlen => buildSscc_injective h h' hlen, buildPalletSscc_eq, ?_, ?_,
    normalizeSscc_eq, fun _ hx => formatSscc_scanned hx⟩
  · intro sscc p e n he hp
    exact namesSerial_iff (Nat.lt_succ_of_le he) hp
  · intro raw x
    rw [parseScannedSscc_iff, exists_wrapper]

theorem one_sscc_codec_sample :
    (∃ x, buildSscc (1 : ℕ) (encode "460700001") (42 : ℕ) = .ok x ∧
      parseSscc x (encode "460700001").length = .ok (some ⟨1, encode "460700001", 42⟩)) :=
  one_sscc_codec.1 1 (encode "460700001") 42
    ⟨by decide, by decide, by decide, by decide, by decide⟩

end Markiro
