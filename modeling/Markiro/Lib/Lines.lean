import Markiro.Lib.Utf16

/-!
# Lines of a text and its bytes

Texts of units joined by a separator, what is replaced in them, and the bytes they are written as.
The bytes have the line feeds of the units and no others, so a text of lines that hold none has as
many as it has lines.
-/

namespace Utf16

/-- LF. -/
def lineFeed : UInt16 := 10

/-- The texts with a separator between two of them. -/
def joinWith (separator : Units) (texts : List Units) : Units :=
  (texts.intersperse separator).flatten

def replaceAll (u : UInt16) (text : Units) (s : Units) : Units :=
  s.flatMap fun v => if v = u then text else [v]

/-- The bytes of a code point in UTF-8. -/
def utf8Point (n : ℕ) : List UInt8 :=
  if n < 0x80 then [UInt8.ofNat n]
  else if n < 0x800 then [UInt8.ofNat (0xc0 + n / 0x40), UInt8.ofNat (0x80 + n % 0x40)]
  else if n < 0x10000 then
    [UInt8.ofNat (0xe0 + n / 0x1000), UInt8.ofNat (0x80 + n / 0x40 % 0x40),
      UInt8.ofNat (0x80 + n % 0x40)]
  else
    [UInt8.ofNat (0xf0 + n / 0x40000), UInt8.ofNat (0x80 + n / 0x1000 % 0x40),
      UInt8.ofNat (0x80 + n / 0x40 % 0x40), UInt8.ofNat (0x80 + n % 0x40)]

/-- The code points of a text; an unpaired surrogate is read as U+FFFD. -/
def points : Units → List ℕ
  | [] => []
  | u :: rest =>
    if isHighSurrogate u then
      match rest with
      | [] => [0xfffd]
      | v :: rest =>
        if isLowSurrogate v then
          (0x10000 + (u.toNat - 0xd800) * 0x400 + (v.toNat - 0xdc00)) :: points rest
        else 0xfffd :: points (v :: rest)
    else if isLowSurrogate u then 0xfffd :: points rest
    else u.toNat :: points rest

def utf8Bytes (s : Units) : List UInt8 := (points s).flatMap utf8Point

/-! ## Line feeds -/

section Count

variable {s : Units}

theorem count_points (s : Units) : (points s).count 10 = s.count lineFeed := by
  induction s using points.induct with
  | case1 => rfl
  | case2 u h =>
    have hu : u ≠ lineFeed := by
      rintro rfl
      exact absurd h (by decide)
    simp [points, h, hu]
  | case3 u hu v rest hv ih =>
    have h1 : u ≠ lineFeed := by
      rintro rfl
      exact absurd hu (by decide)
    have h2 : v ≠ lineFeed := by
      rintro rfl
      exact absurd hv (by decide)
    rw [points]
    simp only [hu, hv, if_true]
    rw [List.count_cons_of_ne (by omega), ih, List.count_cons_of_ne h1, List.count_cons_of_ne h2]
  | case4 u hu v rest hv ih =>
    have h1 : u ≠ lineFeed := by
      rintro rfl
      exact absurd hu (by decide)
    rw [points]
    simp only [hu, hv, if_true, Bool.false_eq_true, if_false]
    rw [List.count_cons_of_ne (by decide), ih, List.count_cons_of_ne h1]
  | case5 u rest hu hlow ih =>
    have h1 : u ≠ lineFeed := by
      rintro rfl
      exact absurd hlow (by decide)
    rw [points.eq_def]
    simp only [hu, hlow, if_true, Bool.false_eq_true, if_false]
    rw [List.count_cons_of_ne (by decide), ih, List.count_cons_of_ne h1]
  | case6 u rest hu hlow ih =>
    rw [points.eq_def]
    simp only [hu, hlow, Bool.false_eq_true, if_false]
    by_cases h1 : u = lineFeed
    · subst h1
      rw [List.count_cons_self, ← ih]
      exact List.count_cons_self
    · have h2 : u.toNat ≠ 10 := fun h => h1 (UInt16.toNat_inj.1 h)
      rw [List.count_cons_of_ne h1, List.count_cons_of_ne h2, ih]

theorem ofNat_ne_lf {n : ℕ} (h : 0x80 ≤ n) (h' : n < 0x100) : UInt8.ofNat n ≠ 10 := by
  intro he
  have := congrArg UInt8.toNat he
  rw [UInt8.toNat_ofNat'] at this
  have h10 : (10 : UInt8).toNat = 10 := rfl
  omega

theorem count_utf8Point {n : ℕ} (hn : n < 0x110000) :
    (utf8Point n).count 10 = if n = 10 then 1 else 0 := by
  unfold utf8Point
  split
  · by_cases h : n = 10
    · subst h
      rfl
    · have hne : UInt8.ofNat n ≠ 10 := by
        intro he
        have := congrArg UInt8.toNat he
        rw [UInt8.toNat_ofNat'] at this
        have h10 : (10 : UInt8).toNat = 10 := rfl
        omega
      rw [if_neg h, List.count_cons_of_ne hne]
      rfl
  · have hne : n ≠ 10 := by omega
    rw [if_neg hne, List.count_eq_zero]
    intro hmem
    split at hmem
    · simp only [List.mem_cons, List.not_mem_nil, or_false] at hmem
      rcases hmem with h | h <;> exact ofNat_ne_lf (by omega) (by omega) h.symm
    · split at hmem
      · simp only [List.mem_cons, List.not_mem_nil, or_false] at hmem
        rcases hmem with h | h | h <;> exact ofNat_ne_lf (by omega) (by omega) h.symm
      · simp only [List.mem_cons, List.not_mem_nil, or_false] at hmem
        rcases hmem with h | h | h | h <;> exact ofNat_ne_lf (by omega) (by omega) h.symm

theorem points_lt (s : Units) : ∀ n ∈ points s, n < 0x110000 := by
  have hunit : ∀ u : UInt16, u.toNat < 0x10000 := UInt16.toNat_lt
  induction s using points.induct with
  | case1 => simp [points]
  | case2 u h => simp [points, h]
  | case3 u hu v rest hv ih =>
    rw [points]
    simp only [hu, hv, if_true, List.forall_mem_cons]
    refine ⟨?_, ih⟩
    simp only [isHighSurrogate, isLowSurrogate, Bool.and_eq_true, decide_eq_true_eq,
      UInt16.le_iff_toNat_le] at hu hv
    have h1 : u.toNat ≤ 0xdbff := hu.2
    have h2 : v.toNat ≤ 0xdfff := hv.2
    omega
  | case4 u hu v rest hv ih =>
    rw [points]
    simp only [hu, hv, if_true, Bool.false_eq_true, if_false, List.forall_mem_cons]
    exact ⟨by decide, ih⟩
  | case5 u rest hu hlow ih =>
    rw [points.eq_def]
    simp only [hu, hlow, if_true, Bool.false_eq_true, if_false, List.forall_mem_cons]
    exact ⟨by decide, ih⟩
  | case6 u rest hu hlow ih =>
    rw [points.eq_def]
    simp only [hu, hlow, Bool.false_eq_true, if_false, List.forall_mem_cons]
    have := hunit u
    exact ⟨by omega, ih⟩

/-- **The bytes have the line feeds of the text.** -/
theorem count_utf8Bytes (s : Units) : (utf8Bytes s).count 10 = s.count lineFeed := by
  rw [← count_points, utf8Bytes]
  have hlt := points_lt s
  generalize points s = ns at hlt
  induction ns with
  | nil => rfl
  | cons n ns ih =>
    rw [List.flatMap_cons, List.count_append, count_utf8Point (hlt n List.mem_cons_self),
      ih fun m hm => hlt m (List.mem_cons_of_mem _ hm), List.count_cons]
    simp only [beq_iff_eq]
    omega

theorem count_join {separator : Units} {texts : List Units} (h : ∀ t ∈ texts, lineFeed ∉ t) :
    (joinWith separator texts ++ separator).count lineFeed =
      if texts = [] then separator.count lineFeed else texts.length * separator.count lineFeed := by
  have hzero : ∀ t ∈ texts, t.count lineFeed = 0 := fun t ht => List.count_eq_zero.2 (h t ht)
  induction texts with
  | nil => simp [joinWith]
  | cons t texts ih =>
    have ih := ih (fun t ht => h t (List.mem_cons_of_mem _ ht))
      fun t ht => hzero t (List.mem_cons_of_mem _ ht)
    have ht := hzero t List.mem_cons_self
    cases texts with
    | nil => simp [joinWith, ht]
    | cons t' texts =>
      rw [if_neg (by simp)] at ih ⊢
      have hjoin : joinWith separator (t :: t' :: texts) =
          t ++ separator ++ joinWith separator (t' :: texts) := by
        simp [joinWith, List.intersperse]
      rw [hjoin, List.append_assoc, List.append_assoc, List.count_append, List.count_append, ih, ht]
      simp only [List.length_cons, Nat.add_mul, Nat.one_mul]
      omega

end Count

end Utf16
