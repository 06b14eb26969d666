import Mathlib

/-!
# Texts of 16-bit units

The strings of a language that counts in UTF-16 units: any sequence of units, with surrogates that
pair up or not. `encode` gives the units of a Unicode text; it is injective, and what is said of
characters below the surrogates is said of their units.
-/

namespace Utf16

/-- A sequence of 16-bit units. -/
abbrev Units := List UInt16

instance : LawfulBEq Units := List.instLawfulBEq

-- A statement about the units of a text is decided along the text, not over all 2^16 units.
instance (priority := high) decidableForallUnit (p : UInt16 → Prop) [DecidablePred p]
    (s : Units) : Decidable (∀ u ∈ s, p u) := List.decidableBAll p s

instance (priority := high) decidableForallOptionUnit (p : UInt16 → Prop) [DecidablePred p]
    (o : Option UInt16) : Decidable (∀ u ∈ o, p u) := Option.decidableForallMem o

/-- The units of one character: itself, or a high and a low surrogate. -/
def encodeChar (c : Char) : Units :=
  if c.toNat < 0x10000 then [UInt16.ofNat c.toNat]
  else
    [UInt16.ofNat (0xd800 + (c.toNat - 0x10000) / 0x400),
      UInt16.ofNat (0xdc00 + (c.toNat - 0x10000) % 0x400)]

def encodeChars (cs : List Char) : Units := cs.flatMap encodeChar

/-- The units of a Unicode text. -/
def encode (s : String) : Units := encodeChars s.toList

/-- An ASCII digit. -/
def isDigit (u : UInt16) : Bool := 48 ≤ u && u ≤ 57

def isHighSurrogate (u : UInt16) : Bool := 0xd800 ≤ u && u ≤ 0xdbff

def isLowSurrogate (u : UInt16) : Bool := 0xdc00 ≤ u && u ≤ 0xdfff

/-! ## Cutting at a separator -/

def upTo (index : Option ℕ) (s : Units) : Units :=
  match index with
  | none => s
  | some i => s.take i

def after (index : Option ℕ) (s : Units) : Units :=
  match index with
  | none => []
  | some i => s.drop (i + 1)

section Cut

variable {u : UInt16} {s a b : Units}

theorem idxOf?_append (h : u ∉ a) : (a ++ u :: b).idxOf? u = some a.length := by
  induction a with
  | nil => simp [List.idxOf?, List.findIdx?_cons]
  | cons x a ih =>
    have hx : (x == u) = false := by
      rw [beq_eq_false_iff_ne]
      rintro rfl
      exact h List.mem_cons_self
    have ha := ih fun hu => h (List.mem_cons_of_mem _ hu)
    rw [List.idxOf?] at ha
    rw [List.idxOf?, List.cons_append, List.findIdx?_cons, hx, ha]
    rfl

@[simp] theorem upTo_append : upTo (some a.length) (a ++ u :: b) = a := List.take_left

@[simp] theorem after_append : after (some a.length) (a ++ u :: b) = b := by
  rw [after, List.drop_append]
  simp

theorem idxOf?_cases (u : UInt16) (s : Units) :
    (u ∉ s ∧ s.idxOf? u = none) ∨
      ∃ a b, s = a ++ u :: b ∧ u ∉ a ∧ s.idxOf? u = some a.length := by
  by_cases h : u ∈ s
  · obtain ⟨a, b, rfl, ha⟩ := List.eq_append_cons_of_mem h
    exact .inr ⟨a, b, rfl, ha, idxOf?_append ha⟩
  · exact .inl ⟨h, List.idxOf?_eq_none_iff.2 h⟩

end Cut

/-! ## Trimming -/

/-- The text without the units of `p` at its two ends. -/
def trimBy (p : UInt16 → Bool) (s : Units) : Units := (s.dropWhile p).rdropWhile p

/-- No unit of `p` stands at either end. -/
def Bare (p : UInt16 → Bool) (s : Units) : Prop :=
  (∀ u ∈ s.head?, p u = false) ∧ ∀ u ∈ s.getLast?, p u = false

section Trim

variable {p : UInt16 → Bool} {s w a b : Units}

theorem rdropWhile_append (hne : w ≠ []) (hlast : ∀ u ∈ w.getLast?, p u = false) :
    (w ++ s).rdropWhile p = w ++ s.rdropWhile p := by
  have hw : w.reverse.dropWhile p = w.reverse := by
    obtain ⟨u, hu⟩ := List.getLast?_isSome.2 hne |> Option.isSome_iff_exists.1
    rw [List.getLast?_eq_head?_reverse] at hu hlast
    obtain ⟨t, ht⟩ := List.head?_eq_some_iff.1 hu
    rw [ht, List.dropWhile_cons_of_neg]
    simp [hlast u hu]
  rw [List.rdropWhile, List.rdropWhile, List.reverse_append, List.dropWhile_append, hw]
  split
  next hnil =>
    rw [List.isEmpty_iff.1 hnil]
    simp
  · simp

theorem dropWhile_eq_self (h : ∀ u ∈ s.head?, p u = false) : s.dropWhile p = s := by
  cases s with
  | nil => rfl
  | cons u s => rw [List.dropWhile_cons_of_neg (by simp [h u rfl])]

theorem trimBy_bare (s : Units) : Bare p (trimBy p s) := by
  constructor
  · intro u hu
    -- The trimmed text is a start of the text without its leading units of `p`.
    obtain ⟨t, ht⟩ := List.rdropWhile_prefix p (s.dropWhile p)
    have hhead : u ∈ (s.dropWhile p).head? := by
      rw [← ht, List.head?_append]
      rw [trimBy] at hu
      rw [Option.mem_def.1 hu]
      rfl
    have := List.head?_dropWhile_not p s
    rw [Option.mem_def.1 hhead] at this
    exact this
  · intro u hu
    have hne : trimBy p s ≠ [] := by
      rintro hnil
      rw [hnil] at hu
      cases hu
    have := List.rdropWhile_last_not p (s.dropWhile p) hne
    rw [List.getLast?_eq_some_getLast hne, Option.mem_def, Option.some.injEq] at hu
    rw [← hu]
    simpa [trimBy] using this

theorem trimBy_wrap (ha : ∀ u ∈ a, p u = true) (hb : ∀ u ∈ b, p u = true) (h : Bare p s) :
    trimBy p (a ++ s ++ b) = s := by
  have hb' : b.rdropWhile p = [] := List.rdropWhile_eq_nil_iff.2 hb
  rw [trimBy, List.append_assoc, List.dropWhile_append_of_pos ha]
  by_cases hs : s = []
  · subst hs
    rw [List.nil_append, List.dropWhile_eq_nil_iff.2 hb]
    rfl
  · have hhead : ∀ u ∈ (s ++ b).head?, p u = false := by
      cases s with
      | nil => exact absurd rfl hs
      | cons x s => exact h.1
    rw [dropWhile_eq_self hhead, rdropWhile_append hs h.2, hb', List.append_nil]

theorem trimBy_eq_self (h : Bare p s) : trimBy p s = s := by
  have := trimBy_wrap (a := []) (b := []) (by simp) (by simp) h
  simpa using this

theorem exists_trimBy (p : UInt16 → Bool) (s : Units) :
    ∃ a b, (∀ u ∈ a, p u = true) ∧ (∀ u ∈ b, p u = true) ∧ s = a ++ trimBy p s ++ b := by
  refine ⟨s.takeWhile p, (s.dropWhile p).rtakeWhile p, ?_, ?_, ?_⟩
  · exact fun u hu => List.mem_takeWhile_imp hu
  · exact fun u hu => List.mem_rtakeWhile_imp hu
  · rw [List.append_assoc, trimBy, List.rdropWhile_append_rtakeWhile,
      List.takeWhile_append_dropWhile]

end Trim

/-! ## The units of characters -/

section Encode

variable {c : Char} {s cs ds : List Char}

@[simp] theorem encodeChars_nil : encodeChars [] = [] := rfl

@[simp] theorem encodeChars_cons (c : Char) (cs : List Char) :
    encodeChars (c :: cs) = encodeChar c ++ encodeChars cs := rfl

@[simp] theorem encodeChars_append (cs ds : List Char) :
    encodeChars (cs ++ ds) = encodeChars cs ++ encodeChars ds := List.flatMap_append

theorem encodeChar_of_lt (h : c.toNat < 0x10000) : encodeChar c = [UInt16.ofNat c.toNat] := by
  rw [encodeChar, if_pos h]

theorem not_surrogate (c : Char) : c.toNat < 0xd800 ∨ 0xe000 ≤ c.toNat ∧ c.toNat < 0x110000 := by
  rcases c.valid with h | h
  · exact .inl h
  · exact .inr ⟨by have := h.1; simp only [Char.toNat]; omega, h.2⟩

theorem toNat_unit (h : c.toNat < 0x10000) : (UInt16.ofNat c.toNat).toNat = c.toNat := by
  simp only [UInt16.toNat_ofNat']
  omega

theorem encodeChar_of_le (h : 0x10000 ≤ c.toNat) : ∃ u v, encodeChar c = [u, v] ∧
    u.toNat = 0xd800 + (c.toNat - 0x10000) / 0x400 ∧
    v.toNat = 0xdc00 + (c.toNat - 0x10000) % 0x400 ∧ u.toNat < 0xdc00 := by
  rcases not_surrogate c with hc | ⟨-, hc⟩
  · omega
  refine ⟨_, _, by rw [encodeChar, if_neg (by omega)], ?_, ?_, ?_⟩ <;>
  · simp only [UInt16.toNat_ofNat']
    omega

theorem encodeChar_ne_nil (c : Char) : encodeChar c ≠ [] := by
  unfold encodeChar
  split <;> simp

/-- The units of a character begin no other character's. -/
theorem encodeChar_append_inj {d : Char} {a b : Units} (h : encodeChar c ++ a = encodeChar d ++ b) :
    c = d ∧ a = b := by
  rcases Nat.lt_or_ge c.toNat 0x10000 with hc | hc
  · rw [encodeChar_of_lt hc] at h
    rcases Nat.lt_or_ge d.toNat 0x10000 with hd | hd
    · rw [encodeChar_of_lt hd] at h
      obtain ⟨hu, hrest⟩ := List.cons.inj h
      refine ⟨Char.toNat_inj.1 ?_, hrest⟩
      rw [← toNat_unit hc, hu, toNat_unit hd]
    · obtain ⟨u, v, hd', hu, -, hlt⟩ := encodeChar_of_le hd
      rw [hd'] at h
      have hfirst := congrArg UInt16.toNat (List.cons.inj h).1
      rw [toNat_unit hc] at hfirst
      rcases not_surrogate c with hs | hs <;> omega
  · obtain ⟨u, v, hc', hu, hv, hlt⟩ := encodeChar_of_le hc
    rw [hc'] at h
    rcases Nat.lt_or_ge d.toNat 0x10000 with hd | hd
    · rw [encodeChar_of_lt hd] at h
      have hfirst := congrArg UInt16.toNat (List.cons.inj h).1
      rw [toNat_unit hd] at hfirst
      rcases not_surrogate d with hs | hs <;> omega
    · obtain ⟨u', v', hd', hu', hv', -⟩ := encodeChar_of_le hd
      rw [hd'] at h
      obtain ⟨rfl, hrest⟩ := List.cons.inj h
      obtain ⟨rfl, hrest⟩ := List.cons.inj hrest
      exact ⟨Char.toNat_inj.1 (by omega), List.append_cancel_left hrest⟩

theorem encodeChars_eq_append {r : Units} (h : encodeChars cs = encodeChars ds ++ r) :
    ∃ rest, cs = ds ++ rest ∧ encodeChars rest = r := by
  induction ds generalizing cs with
  | nil => exact ⟨cs, rfl, h⟩
  | cons d ds ih =>
    cases cs with
    | nil => exact absurd h.symm (by simp [encodeChar_ne_nil])
    | cons c cs =>
      rw [encodeChars_cons, encodeChars_cons, List.append_assoc] at h
      obtain ⟨rfl, htail⟩ := encodeChar_append_inj h
      obtain ⟨rest, rfl, hr⟩ := ih htail
      exact ⟨rest, rfl, hr⟩

theorem encodeChars_injective (h : encodeChars cs = encodeChars ds) : cs = ds := by
  obtain ⟨rest, rfl, hr⟩ := encodeChars_eq_append (h.trans (List.append_nil _).symm)
  cases rest with
  | nil => rw [List.append_nil]
  | cons c rest => exact absurd hr (by simp [encodeChar_ne_nil])

/-! ### Trimming characters -/

section TrimChars

variable {p : UInt16 → Bool} {q : Char → Bool}

/-- `p` says of units what `q` says of characters: surrogates are not of `p`, and characters in two
units are not of `q`. -/
structure Agree (p : UInt16 → Bool) (q : Char → Bool) : Prop where
  single : ∀ c : Char, c.toNat < 0x10000 → p (UInt16.ofNat c.toNat) = q c
  surrogate : ∀ u : UInt16, 0xd800 ≤ u.toNat → u.toNat < 0xe000 → p u = false
  pair : ∀ c : Char, 0x10000 ≤ c.toNat → q c = false

theorem Agree.dropWhile (h : Agree p q) (cs : List Char) :
    (encodeChars cs).dropWhile p = encodeChars (cs.dropWhile q) := by
  induction cs with
  | nil => rfl
  | cons c cs ih =>
    rcases Nat.lt_or_ge c.toNat 0x10000 with hc | hc
    · rw [encodeChars_cons, encodeChar_of_lt hc, List.singleton_append, List.dropWhile_cons,
        List.dropWhile_cons, h.single c hc, ih]
      split
      · rfl
      · rw [encodeChars_cons, encodeChar_of_lt hc, List.singleton_append]
    · obtain ⟨u, v, huv, hu, -, hlt⟩ := encodeChar_of_le hc
      rw [List.dropWhile_cons, h.pair c hc, encodeChars_cons, huv, List.cons_append,
        List.dropWhile_cons, h.surrogate u (by omega) (by omega)]
      simp [huv]

theorem Agree.rdropWhile (h : Agree p q) (cs : List Char) :
    (encodeChars cs).rdropWhile p = encodeChars (cs.rdropWhile q) := by
  induction cs using List.reverseRecOn with
  | nil => rfl
  | append_singleton cs c ih =>
    rcases Nat.lt_or_ge c.toNat 0x10000 with hc | hc
    · rw [encodeChars_append, encodeChars_cons, encodeChars_nil, List.append_nil,
        encodeChar_of_lt hc, List.rdropWhile_concat, List.rdropWhile_concat, h.single c hc, ih]
      split
      · rfl
      · rw [encodeChars_append, encodeChars_cons, encodeChar_of_lt hc]
        rfl
    · obtain ⟨u, v, huv, hu, hv, hlt⟩ := encodeChar_of_le hc
      have hmod : (c.toNat - 0x10000) % 0x400 < 0x400 := Nat.mod_lt _ (by decide)
      rw [encodeChars_append, encodeChars_cons, encodeChars_nil, List.append_nil, huv,
        List.rdropWhile_concat, h.pair c hc, show [u, v] = [u] ++ [v] from rfl,
        ← List.append_assoc, List.rdropWhile_concat, h.surrogate v (by omega) (by omega)]
      simp [huv]

theorem Agree.trimBy (h : Agree p q) (cs : List Char) :
    Utf16.trimBy p (encodeChars cs) = encodeChars ((cs.dropWhile q).rdropWhile q) := by
  rw [Utf16.trimBy, h.dropWhile, h.rdropWhile]

end TrimChars

/-! ### Digits -/

/-- The unit of a character below the surrogates. -/
def unitOf (c : Char) : UInt16 := UInt16.ofNat c.toNat

theorem isDigit_toNat (h : c.isDigit = true) : 48 ≤ c.toNat ∧ c.toNat ≤ 57 := by
  simp only [Char.isDigit, Bool.and_eq_true, decide_eq_true_eq] at h
  exact ⟨UInt32.le_iff_toNat_le.1 h.1, UInt32.le_iff_toNat_le.1 h.2⟩

theorem unitOf_toNat (h : c.isDigit = true) : (unitOf c).toNat = c.toNat := by
  have := isDigit_toNat h
  exact toNat_unit (by omega)

theorem isDigit_unitOf (h : c.isDigit = true) : isDigit (unitOf c) = true := by
  have hc := isDigit_toNat h
  have hu := unitOf_toNat h
  simp only [isDigit, Bool.and_eq_true, decide_eq_true_eq, UInt16.le_iff_toNat_le, hu]
  exact hc

theorem encodeChars_digits (h : ∀ c ∈ cs, c.isDigit = true) : encodeChars cs = cs.map unitOf := by
  induction cs with
  | nil => rfl
  | cons c cs ih =>
    have hc := isDigit_toNat (h c List.mem_cons_self)
    rw [encodeChars_cons, encodeChar_of_lt (by omega), ih fun d hd => h d (List.mem_cons_of_mem _ hd)]
    rfl

theorem exists_digit {u : UInt16} (h : isDigit u = true) : ∃ c : Char, c.isDigit = true ∧
    unitOf c = u := by
  simp only [isDigit, Bool.and_eq_true, decide_eq_true_eq, UInt16.le_iff_toNat_le] at h
  have hall : ∀ n < 58, 48 ≤ n → (Char.ofNat n).isDigit = true ∧ (Char.ofNat n).toNat = n := by decide
  have hlow : 48 ≤ u.toNat := h.1
  have hhigh : u.toNat ≤ 57 := h.2
  obtain ⟨hd, hn⟩ := hall u.toNat (by omega) hlow
  exact ⟨Char.ofNat u.toNat, hd, by rw [unitOf, hn, UInt16.ofNat_toNat]⟩

theorem exists_digits {s : Units} (h : ∀ u ∈ s, isDigit u = true) :
    ∃ cs : List Char, (∀ c ∈ cs, c.isDigit = true) ∧ s = encodeChars cs := by
  induction s with
  | nil => exact ⟨[], by simp, rfl⟩
  | cons u s ih =>
    obtain ⟨c, hc, rfl⟩ := exists_digit (h u List.mem_cons_self)
    obtain ⟨cs, hcs, rfl⟩ := ih fun v hv => h v (List.mem_cons_of_mem _ hv)
    have hall : ∀ d ∈ c :: cs, d.isDigit = true := by
      rintro d (_ | ⟨_, hd⟩)
      · exact hc
      · exact hcs d hd
    refine ⟨c :: cs, hall, ?_⟩
    rw [encodeChars_digits hall, encodeChars_digits hcs]
    rfl

end Encode

end Utf16
