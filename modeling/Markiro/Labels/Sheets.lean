import Markiro.Domain.MonoCompose
import Markiro.Labels.MonoRaster
import Markiro.Lib.Bits

/-!
# A sheet is the union of its bitmaps

Pasting blackens the bits of a bitmap's black dots (`pastePixels_eq`), so that after any calls a page
is black exactly where a pasted bitmap is, within the least bounds of the bitmaps
(`Composed.paste`).
-/

namespace Markiro

open Utf16

/-! ## Whole numbers -/

@[simp] theorem wholeNumber_natCast (n : ℕ) : wholeNumber (n : ℚ) = n := by
  rw [wholeNumber, Int.ceil_natCast, Int.toNat_natCast]

theorem natCast_wholeNumber {q : ℚ} (h : isSafeInteger q = true) (h0 : 0 ≤ q) :
    (wholeNumber q : ℚ) = q := by
  have hq := isSafeInteger_eq h
  have hnum : 0 ≤ q.num := Rat.num_nonneg.2 h0
  have hceil : ⌈q⌉ = q.num := by
    conv_lhs => rw [hq]
    exact Int.ceil_intCast _
  have hcast : ((q.num.toNat : ℤ) : ℚ) = (q.num : ℚ) := by rw [Int.toNat_of_nonneg hnum]
  rw [wholeNumber, hceil, ← Int.cast_natCast, hcast]
  exact hq.symm

/-! ## Pixels -/

/-- The places of a bitmap's black dots among the bits of a page of `stride` bytes a row. -/
def MonoBitmap.places (b : MonoBitmap) (stride x y : ℕ) : List ℕ :=
  (List.range (wholeNumber b.height)).flatMap fun row =>
    ((List.range (wholeNumber b.width)).filter fun column => bitmapPixel b column row).map
      fun column => (y + row) * (8 * stride) + (x + column)

theorem blacken_eq (pixels : List UInt8) (stride x y : ℕ) :
    blacken pixels (y * stride + x / 8) (x % 8) = Bits.set pixels (y * (8 * stride) + x) := by
  have hplace : y * (8 * stride) = 8 * (y * stride) := by ring
  have hbyte : (y * (8 * stride) + x) / 8 = y * stride + x / 8 := by omega
  have hbit : (y * (8 * stride) + x) % 8 = x % 8 := by omega
  rw [blacken, Bits.set, hbyte, hbit]

/-- **Pasting sets the bits of a bitmap's black dots.** -/
theorem pastePixels_eq (stride : ℕ) (pixels : List UInt8) (b : MonoBitmap) (x y : ℕ) :
    pastePixels stride pixels b x y = (b.places stride x y).foldl Bits.set pixels := by
  unfold pastePixels MonoBitmap.places
  rw [List.foldl_flatMap]
  refine congrArg (fun f => List.foldl f pixels _) (funext fun pixels => funext fun row => ?_)
  rw [List.foldl_map, List.foldl_filter]
  refine congrArg (fun f => List.foldl f pixels _) (funext fun pixels => funext fun column => ?_)
  rw [blacken_eq]

theorem place_injective {n x y x' y' : ℕ} (hx : x < n) (hx' : x' < n)
    (h : y * n + x = y' * n + x') : y = y' ∧ x = x' := by
  have hdiv : ∀ {a b : ℕ}, b < n → (a * n + b) / n = a := fun {a b} hb => by
    rw [Nat.add_comm, Nat.add_mul_div_right _ _ (by omega), Nat.div_eq_of_lt hb, Nat.zero_add]
  have hy : y = y' := by
    have hrow := congrArg (· / n) h
    simp only [hdiv hx, hdiv hx'] at hrow
    exact hrow
  subst hy
  exact ⟨rfl, Nat.add_left_cancel h⟩

theorem MonoBitmap.mem_places {b : MonoBitmap} {stride x y X Y : ℕ} (hX : X < 8 * stride)
    (hwidth : x + wholeNumber b.width ≤ 8 * stride) :
    Y * (8 * stride) + X ∈ b.places stride x y ↔ ∃ column row, column < wholeNumber b.width ∧
      row < wholeNumber b.height ∧ X = x + column ∧ Y = y + row ∧
        bitmapPixel b column row = true := by
  unfold MonoBitmap.places
  simp only [List.mem_flatMap, List.mem_map, List.mem_filter, List.mem_range]
  constructor
  · rintro ⟨row, hrow, column, ⟨hcolumn, hblack⟩, hplace⟩
    have hlt : x + column < 8 * stride := by omega
    obtain ⟨hy, hx⟩ := place_injective hlt hX hplace
    exact ⟨column, row, hcolumn, hrow, hx.symm, hy.symm, hblack⟩
  · rintro ⟨column, row, hcolumn, hrow, rfl, rfl, hblack⟩
    exact ⟨row, hrow, column, ⟨hcolumn, hblack⟩, rfl⟩

theorem MonoRaster.black_iff {page : MonoRaster} {stride : ℕ} (h : page.stride = stride) (x y : ℕ) :
    page.Black x y ↔ Bits.get page.pixels (y * (8 * stride) + x) = true := by
  have hplace : y * (8 * stride) = 8 * (y * stride) := by ring
  have hbyte : (y * (8 * stride) + x) / 8 = y * stride + x / 8 := by omega
  have hbit : (y * (8 * stride) + x) % 8 = x % 8 := by omega
  have hstride : ⌈page.stride⌉.toNat = stride := by
    rw [h, Int.ceil_natCast, Int.toNat_natCast]
  rw [Bits.get, hbyte, hbit, MonoRaster.Black, MonoRaster.byteAt, hstride]
  rfl

/-! ## Pasting -/

/-- A bitmap with its place. -/
structure Paste where
  bitmap : MonoBitmap
  x : ℚ
  y : ℚ

namespace Paste

/-- Whether a pasted bitmap is black at a dot of the page. -/
def Black (p : Paste) (x y : ℕ) : Prop :=
  ∃ column row : ℕ, (column : ℚ) < p.bitmap.width ∧ (row : ℚ) < p.bitmap.height ∧
    (x : ℚ) = p.x + column ∧ (y : ℚ) = p.y + row ∧ bitmapPixel p.bitmap column row = true

/-- The rectangle a pasted bitmap takes. -/
def rect (p : Paste) : MonoRasterBounds :=
  ⟨p.x, p.y, p.x + p.bitmap.width, p.y + p.bitmap.height⟩

structure Within (p : Paste) (w h : ℕ) : Prop where
  left : (wholeNumber p.x : ℚ) = p.x
  top : (wholeNumber p.y : ℚ) = p.y
  width : (wholeNumber p.bitmap.width : ℚ) = p.bitmap.width
  height : (wholeNumber p.bitmap.height : ℚ) = p.bitmap.height
  wide : 1 ≤ wholeNumber p.bitmap.width
  tall : 1 ≤ wholeNumber p.bitmap.height
  right : wholeNumber p.x + wholeNumber p.bitmap.width ≤ w
  bottom : wholeNumber p.y + wholeNumber p.bitmap.height ≤ h

theorem Within.black_iff {p : Paste} {w h : ℕ} (hp : p.Within w h) (x y : ℕ) :
    p.Black x y ↔ ∃ column row, column < wholeNumber p.bitmap.width ∧
      row < wholeNumber p.bitmap.height ∧ x = wholeNumber p.x + column ∧
        y = wholeNumber p.y + row ∧ bitmapPixel p.bitmap column row = true := by
  unfold Black
  rw [← hp.left, ← hp.top, ← hp.width, ← hp.height]
  simp only [wholeNumber_natCast]
  norm_cast

theorem Black.mem_rect {p : Paste} {x y : ℕ} (h : p.Black x y) :
    p.rect.left ≤ x ∧ (x : ℚ) < p.rect.right ∧ p.rect.top ≤ y ∧ (y : ℚ) < p.rect.bottom := by
  obtain ⟨column, row, hcolumn, hrow, hx, hy, -⟩ := h
  have hc : (0 : ℚ) ≤ column := Nat.cast_nonneg column
  have hr : (0 : ℚ) ≤ row := Nat.cast_nonneg row
  rw [hx, hy]
  unfold rect
  dsimp only
  refine ⟨?_, ?_, ?_, ?_⟩ <;> linarith

end Paste

section Paste

variable {page : MonoRaster} {p : Paste}

def MonoRaster.paste (page : MonoRaster) (p : Paste) : Sheets Unit × MonoRaster :=
  pasteMonoBitmap page p.bitmap p.x p.y

def MonoRaster.with (page : MonoRaster) (p : Paste) : MonoRaster :=
  { page with
    requiredBounds := page.requiredBounds.including p.rect.left p.rect.top p.rect.right
      p.rect.bottom
    pixels := pastePixels (wholeNumber page.stride) page.pixels p.bitmap (wholeNumber p.x)
      (wholeNumber p.y) }

/-- What a call that returns has checked and done. -/
theorem paste_ok {width height : ℕ} (hwidth : page.widthDots = width)
    (hheight : page.heightDots = height) (h : (page.paste p).1 = .ok ()) :
    p.Within width height ∧ (page.paste p).2 = page.with p := by
  unfold MonoRaster.paste pasteMonoBitmap at h ⊢
  cases hvalid : validateMonoBitmap p.bitmap with
  | error e =>
    simp only [hvalid] at h
    cases h
  | ok u =>
    simp only [hvalid] at h ⊢
    by_cases hplace : ¬(∀ n ∈ [p.x, p.y], isSafeInteger n = true) ∨ p.x < 0 ∨ p.y < 0 ∨
        page.widthDots < p.x + p.bitmap.width ∨ page.heightDots < p.y + p.bitmap.height
    · rw [if_pos hplace] at h
      cases h
    · rw [if_neg hplace]
      simp only [not_or, not_not, not_lt] at hplace
      obtain ⟨hsafe, hx, hy, hright, hbottom⟩ := hplace
      have hfit : p.bitmap.SizesFit := by
        unfold validateMonoBitmap at hvalid
        by_contra hfit
        rw [if_pos hfit] at hvalid
        cases hvalid
      obtain ⟨hsizes, hw, hh, -⟩ := hfit
      have hl := natCast_wholeNumber (hsafe p.x (by simp)) hx
      have ht := natCast_wholeNumber (hsafe p.y (by simp)) hy
      have hwn := natCast_wholeNumber (hsizes p.bitmap.width (by simp)) (by linarith)
      have hhn := natCast_wholeNumber (hsizes p.bitmap.height (by simp)) (by linarith)
      refine ⟨⟨hl, ht, hwn, hhn, ?_, ?_, ?_, ?_⟩, rfl⟩
      · rw [← hwn] at hw
        exact_mod_cast hw
      · rw [← hhn] at hh
        exact_mod_cast hh
      · rw [hwidth, ← hl, ← hwn] at hright
        exact_mod_cast hright
      · rw [hheight, ← ht, ← hhn] at hbottom
        exact_mod_cast hbottom

/-- **A call that throws leaves the page as it was.** -/
theorem paste_error {e : SheetError} (h : (page.paste p).1 = .error e) :
    (page.paste p).2 = page := by
  unfold MonoRaster.paste pasteMonoBitmap at h ⊢
  cases hvalid : validateMonoBitmap p.bitmap with
  | error e => rfl
  | ok u =>
    simp only [hvalid] at h ⊢
    split_ifs at h ⊢
    rfl

end Paste

/-! ## Bounds -/

/-- A rectangle lies in another. -/
def MonoRasterBounds.Contains (b c : MonoRasterBounds) : Prop :=
  b.left ≤ c.left ∧ b.top ≤ c.top ∧ c.right ≤ b.right ∧ c.bottom ≤ b.bottom

/-- The least rectangle around all bitmaps pasted, all zero without any. -/
def MonoRasterBounds.Around (b : MonoRasterBounds) (done : List Paste) : Prop :=
  (done = [] → b = ⟨0, 0, 0, 0⟩) ∧ (done ≠ [] → (∀ p ∈ done, b.Contains p.rect) ∧
    ∀ c : MonoRasterBounds, (∀ p ∈ done, c.Contains p.rect) → c.Contains b)

theorem MonoRasterBounds.including_empty (p : Paste) :
    (⟨0, 0, 0, 0⟩ : MonoRasterBounds).including p.rect.left p.rect.top p.rect.right p.rect.bottom =
      p.rect := if_pos rfl

theorem MonoRasterBounds.Around.including {b : MonoRasterBounds} {done : List Paste} {p : Paste}
    (h : b.Around done) (hpos : done ≠ [] → b.right ≠ 0) :
    (b.including p.rect.left p.rect.top p.rect.right p.rect.bottom).Around (done ++ [p]) := by
  refine ⟨fun hnil => absurd hnil (by simp), fun _ => ?_⟩
  by_cases hdone : done = []
  · rw [h.1 hdone, including_empty, hdone]
    refine ⟨fun q hq => ?_, fun c hc => hc p (by simp)⟩
    rw [List.mem_singleton.1 hq]
    exact ⟨le_rfl, le_rfl, le_rfl, le_rfl⟩
  · obtain ⟨hall, hleast⟩ := h.2 hdone
    rw [MonoRasterBounds.including, if_neg (hpos hdone)]
    refine ⟨fun q hq => ?_, fun c hc => ?_⟩
    · rcases List.mem_append.1 hq with hq | hq
      · obtain ⟨h1, h2, h3, h4⟩ := hall q hq
        exact ⟨min_le_of_left_le h1, min_le_of_left_le h2, le_max_of_le_left h3,
          le_max_of_le_left h4⟩
      · rw [List.mem_singleton.1 hq]
        exact ⟨min_le_right _ _, min_le_right _ _, le_max_right _ _, le_max_right _ _⟩
    · obtain ⟨h1, h2, h3, h4⟩ := hleast c fun q hq => hc q (List.mem_append_left _ hq)
      obtain ⟨g1, g2, g3, g4⟩ := hc p (by simp)
      exact ⟨le_min h1 g1, le_min h2 g2, max_le h3 g3, max_le h4 g4⟩

/-! ## New pages -/

/-- The page `createSheetPage` makes of `w` by `h` dots, in rows of `s` bytes. -/
def blankSheet (widthMm heightMm : Float64) (w h s : ℕ) : MonoRaster where
  format := monoRasterFormat
  widthMm := widthMm
  heightMm := heightMm
  dpi := 300
  widthDots := w
  heightDots := h
  stride := s
  requiredBounds := ⟨0, 0, 0, 0⟩
  pixels := List.replicate (s * h) 0

/-- The dots of a page's sides. -/
structure SheetSize (widthMm heightMm : Float64) (w h s : ℕ) (a b : ℚ) : Prop where
  widthMm : widthMm.finite = some a
  heightMm : heightMm.finite = some b
  width : mmToDots a .dpi300 = w
  height : mmToDots b .dpi300 = h
  wide : 0 < w ∧ w ≤ 3508
  tall : 0 < h ∧ h ≤ 3508
  stride : ⌈(w / 8 : ℚ)⌉ = s
  small : s * h + monoRasterHeaderBytes ≤ monoRasterMaxBytes

theorem createSheetPage_ok {widthMm heightMm : Float64} {page : MonoRaster}
    (h : createSheetPage widthMm heightMm = .ok page) : ∃ w k s a b,
      SheetSize widthMm heightMm w k s a b ∧ page = blankSheet widthMm heightMm w k s := by
  unfold createSheetPage at h
  cases ha : widthMm.finite with
  | none =>
    simp only [ha] at h
    cases h
  | some a =>
    cases hb : heightMm.finite with
    | none =>
      simp only [ha, hb] at h
      cases h
    | some b =>
      simp only [ha, hb] at h
      split_ifs at h with hsize
      simp only [not_or, not_not, not_lt] at hsize
      obtain ⟨hdots, hsmall⟩ := hsize
      have hwide := hdots (mmToDots a .dpi300) (by simp)
      have htall := hdots (mmToDots b .dpi300) (by simp)
      obtain ⟨w, hw⟩ := Int.eq_ofNat_of_zero_le hwide.1.le
      obtain ⟨k, hk⟩ := Int.eq_ofNat_of_zero_le htall.1.le
      have hceil : 0 ≤ ⌈((w : ℤ) / 8 : ℚ)⌉ := Int.ceil_nonneg (by positivity)
      obtain ⟨s, hs⟩ := Int.eq_ofNat_of_zero_le hceil
      rw [hw] at hwide
      rw [hk] at htall
      rw [hw, hk, hs] at hsmall
      rw [Except.ok.injEq] at h
      refine ⟨w, k, s, a, b, ⟨ha, hb, hw, hk, by omega, by omega, ?_, ?_⟩, ?_⟩
      · rw [Int.cast_natCast] at hs
        exact hs
      · exact_mod_cast hsmall
      · rw [← h, hw, hk, hs]
        unfold blankSheet
        congr 1

/-! ## What the calls leave -/

structure Composed (widthMm heightMm : Float64) (w h s : ℕ) (page : MonoRaster)
    (done : List Paste) : Prop where
  metadata : page = { blankSheet widthMm heightMm w h s with
    requiredBounds := page.requiredBounds, pixels := page.pixels }
  length : page.pixels.length = s * h
  within : ∀ p ∈ done, p.Within w h
  black : ∀ x y, x < 8 * s → y < h → (page.Black x y ↔ ∃ p ∈ done, p.Black x y)
  around : page.requiredBounds.Around done
  whole : ∃ l t r b : ℕ, page.requiredBounds = ⟨l, t, r, b⟩ ∧ l ≤ r ∧ t ≤ b ∧ r ≤ w ∧ b ≤ h ∧
    (done ≠ [] → 0 < r)

section Composed

variable {widthMm heightMm : Float64} {w h s : ℕ} {a b : ℚ} {page : MonoRaster}
  {done : List Paste} {p : Paste}

theorem SheetSize.width_le (hsize : SheetSize widthMm heightMm w h s a b) : w ≤ 8 * s := by
  have hle := Int.le_ceil (w / 8 : ℚ)
  rw [hsize.stride] at hle
  have hcast : (w : ℚ) ≤ 8 * s := by
    push_cast at hle
    linarith
  exact_mod_cast hcast

theorem Composed.widthDots (hpage : Composed widthMm heightMm w h s page done) :
    page.widthDots = w := by
  rw [hpage.metadata]
  rfl

theorem Composed.heightDots (hpage : Composed widthMm heightMm w h s page done) :
    page.heightDots = h := by
  rw [hpage.metadata]
  rfl

theorem Composed.stride (hpage : Composed widthMm heightMm w h s page done) : page.stride = s := by
  rw [hpage.metadata]
  rfl

theorem composed_blank (widthMm heightMm : Float64) (w h s : ℕ) :
    Composed widthMm heightMm w h s (blankSheet widthMm heightMm w h s) [] := by
  refine ⟨rfl, List.length_replicate, by simp, fun x y _ _ => ?_, ⟨fun _ => rfl, by simp⟩, ?_⟩
  · rw [MonoRaster.black_iff rfl]
    have hzero : Bits.get (List.replicate (s * h) 0) (y * (8 * s) + x) = false :=
      Bits.get_replicate _ _
    show Bits.get (List.replicate (s * h) 0) (y * (8 * s) + x) = true ↔ _
    simp [hzero]
  · refine ⟨0, 0, 0, 0, ?_, le_rfl, le_rfl, Nat.zero_le _, Nat.zero_le _, by simp⟩
    norm_num [blankSheet]

/-- The page with one more bitmap is black where it was and where the bitmap is. -/
theorem Composed.black_with (hpage : Composed widthMm heightMm w h s page done) (hw : w ≤ 8 * s)
    (hp : p.Within w h) {x y : ℕ} (hx : x < 8 * s) (hy : y < h) :
    (page.with p).Black x y ↔ page.Black x y ∨ p.Black x y := by
  have hstride : wholeNumber page.stride = s := by
    rw [hpage.stride]
    exact wholeNumber_natCast s
  have hplace : y * (8 * s) + x < 8 * page.pixels.length := by
    have hrows : (y + 1) * (8 * s) ≤ h * (8 * s) := Nat.mul_le_mul_right _ hy
    rw [hpage.length]
    linarith
  have hright := hp.right
  rw [@MonoRaster.black_iff (page.with p) _ hpage.stride, MonoRaster.black_iff hpage.stride]
  show Bits.get (pastePixels (wholeNumber page.stride) page.pixels p.bitmap (wholeNumber p.x)
    (wholeNumber p.y)) (y * (8 * s) + x) = true ↔ _
  rw [pastePixels_eq, Bits.get_foldl_set, hstride, Bool.or_eq_true, decide_eq_true_iff,
    MonoBitmap.mem_places hx (by omega), hp.black_iff]
  exact or_congr_right (and_iff_left hplace)

theorem Composed.whole_with (hpage : Composed widthMm heightMm w h s page done)
    (hp : p.Within w h) : ∃ l t r b : ℕ, (page.with p).requiredBounds = ⟨l, t, r, b⟩ ∧ l ≤ r ∧
      t ≤ b ∧ r ≤ w ∧ b ≤ h ∧ 0 < r := by
  obtain ⟨l, t, r, b, hbounds, hlr, htb, hr, hb, -⟩ := hpage.whole
  have hright := hp.right
  have hbottom := hp.bottom
  have hwide := hp.wide
  have hrect : p.rect = ⟨(wholeNumber p.x : ℚ), (wholeNumber p.y : ℚ),
      ((wholeNumber p.x + wholeNumber p.bitmap.width : ℕ) : ℚ),
      ((wholeNumber p.y + wholeNumber p.bitmap.height : ℕ) : ℚ)⟩ := by
    rw [Nat.cast_add, Nat.cast_add, hp.left, hp.top, hp.width, hp.height]
    rfl
  show ∃ l t r b : ℕ, page.requiredBounds.including p.rect.left p.rect.top p.rect.right
    p.rect.bottom = ⟨l, t, r, b⟩ ∧ _
  rw [hrect, hbounds]
  unfold MonoRasterBounds.including
  dsimp only
  by_cases hzero : (r : ℚ) = 0
  · rw [if_pos hzero]
    exact ⟨_, _, _, _, rfl, by omega, by omega, hright, hbottom, by omega⟩
  · rw [if_neg hzero]
    refine ⟨min l (wholeNumber p.x), min t (wholeNumber p.y),
      max r (wholeNumber p.x + wholeNumber p.bitmap.width),
      max b (wholeNumber p.y + wholeNumber p.bitmap.height), ?_, by omega, by omega, by omega,
      by omega, by omega⟩
    rw [Nat.cast_min, Nat.cast_min, Nat.cast_max, Nat.cast_max]

/-- **One call keeps the page the union of its bitmaps.** -/
theorem Composed.paste (hpage : Composed widthMm heightMm w h s page done) (hw : w ≤ 8 * s)
    (hp : p.Within w h) : Composed widthMm heightMm w h s (page.with p) (done ++ [p]) := by
  obtain ⟨l, t, r, b, hbounds, -, -, -, -, hpos⟩ := hpage.whole
  refine ⟨?_, ?_, fun q hq => ?_, fun x y hx hy => ?_, ?_, ?_⟩
  · have hmetadata := hpage.metadata
    unfold MonoRaster.with
    rw [hmetadata]
  · show (pastePixels _ page.pixels p.bitmap _ _).length = s * h
    rw [pastePixels_eq, Bits.length_foldl_set, hpage.length]
  · rcases List.mem_append.1 hq with hq | hq
    · exact hpage.within q hq
    · rw [List.mem_singleton.1 hq]
      exact hp
  · rw [hpage.black_with hw hp hx hy, hpage.black x y hx hy]
    simp [or_and_right, exists_or]
  · refine hpage.around.including fun hne => ?_
    have hr := (hpos hne).ne'
    rw [hbounds]
    show (r : ℚ) ≠ 0
    exact_mod_cast hr
  · obtain ⟨l', t', r', b', hbounds', h1, h2, h3, h4, h5⟩ := hpage.whole_with hp
    exact ⟨l', t', r', b', hbounds', h1, h2, h3, h4, fun _ => h5⟩

/-- The bitmaps pasted by the calls that returned, and the page all calls leave. -/
def pasteAll (page : MonoRaster) : List Paste → List Paste × MonoRaster
  | [] => ([], page)
  | p :: calls =>
    match page.paste p with
    | (.ok (), page') => (p :: (pasteAll page' calls).1, (pasteAll page' calls).2)
    | (.error _, page') => pasteAll page' calls

/-- **Any calls keep the page the union of its bitmaps.** -/
theorem Composed.pasteAll (hpage : Composed widthMm heightMm w h s page done) (hw : w ≤ 8 * s)
    (calls : List Paste) : Composed widthMm heightMm w h s (pasteAll page calls).2
      (done ++ (Markiro.pasteAll page calls).1) := by
  induction calls generalizing page done with
  | nil =>
    show Composed widthMm heightMm w h s page (done ++ [])
    rw [List.append_nil]
    exact hpage
  | cons p calls ih =>
    cases hcall : page.paste p with
    | mk result page' =>
      cases result with
      | error e =>
        have hsame : page' = page := by
          have herror := paste_error (congrArg Prod.fst hcall)
          rw [hcall] at herror
          exact herror
        have hall : Markiro.pasteAll page (p :: calls) = Markiro.pasteAll page calls := by
          rw [Markiro.pasteAll, hcall, hsame]
        rw [hall]
        exact ih hpage
      | ok u =>
        obtain ⟨hp, hwith⟩ := paste_ok hpage.widthDots hpage.heightDots (congrArg Prod.fst hcall)
        rw [hcall] at hwith
        have hall : Markiro.pasteAll page (p :: calls) =
            (p :: (Markiro.pasteAll page' calls).1, (Markiro.pasteAll page' calls).2) := by
          rw [Markiro.pasteAll, hcall]
        have hnext := ih (hpage.paste hw hp)
        rw [← show page' = page.with p from hwith, List.append_assoc] at hnext
        rw [hall]
        exact hnext

/-! ## The format accepts it -/

theorem isSafeInteger_natCast {n : ℕ} (hn : n ≤ maxSafeInteger) : isSafeInteger (n : ℚ) = true := by
  rw [isSafeInteger, decide_eq_true_iff, Nat.abs_cast]
  exact ⟨Rat.den_natCast n, by exact_mod_cast hn⟩

theorem side_le {mm : ℚ} {n : ℕ} (hdots : mmToDots mm .dpi300 = n) (hn : n ≤ 3508) : mm ≤ 300 := by
  by_contra hlarge
  have hmono : mmToDots 300 .dpi300 ≤ mmToDots mm .dpi300 := mmToDots_mono (not_le.1 hlarge).le
  have h300 : mmToDots 300 .dpi300 = 3543 := by
    refine mathRound_eq ?_ ?_ <;> norm_num [PrinterDpi.value]
  omega

theorem Composed.fit (hpage : Composed widthMm heightMm w h s page done)
    (hsize : SheetSize widthMm heightMm w h s a b) :
    page.requiredBounds.Fit page.widthDots page.heightDots := by
  obtain ⟨l, t, r, bottom, hbounds, hlr, htb, hr, hb, -⟩ := hpage.whole
  have hwide := hsize.wide.2
  have htall := hsize.tall.2
  have hmax : 3508 ≤ maxSafeInteger := by decide
  rw [hpage.widthDots, hpage.heightDots, hbounds]
  refine ⟨fun n hn => ?_, Nat.cast_le.2 hlr, Nat.cast_le.2 htb, Nat.cast_le.2 hr,
    Nat.cast_le.2 hb⟩
  have hcases : n = l ∨ n = t ∨ n = r ∨ n = bottom := by simpa using hn
  rcases hcases with rfl | rfl | rfl | rfl
  · exact ⟨isSafeInteger_natCast (by omega), Nat.cast_nonneg _⟩
  · exact ⟨isSafeInteger_natCast (by omega), Nat.cast_nonneg _⟩
  · exact ⟨isSafeInteger_natCast (by omega), Nat.cast_nonneg _⟩
  · exact ⟨isSafeInteger_natCast (by omega), Nat.cast_nonneg _⟩

/-- **The format's sizes**: a page that was made has them, unless a side is under 10 mm. -/
theorem Composed.geometry (hpage : Composed widthMm heightMm w h s page done)
    (hsize : SheetSize widthMm heightMm w h s a b) : geometry page.toMonoRasterMetadata =
      if 10 ≤ a ∧ 10 ≤ b then .ok (page.pixels.length : ℚ) else invalidRaster := by
  have hformat : page.format = monoRasterFormat := by
    rw [hpage.metadata]
    rfl
  have hdpi : dpiOf page.dpi = some .dpi300 := by
    rw [hpage.metadata]
    show dpiOf 300 = some .dpi300
    norm_num [dpiOf]
  have hwidth : page.widthMm.finite = some a := by
    rw [hpage.metadata]
    exact hsize.widthMm
  have hheight : page.heightMm.finite = some b := by
    rw [hpage.metadata]
    exact hsize.heightMm
  have hstride : page.stride = (⌈page.widthDots / 8⌉ : ℤ) := by
    rw [hpage.stride, hpage.widthDots, hsize.stride]
    norm_cast
  have hlength : page.stride * page.heightDots = (page.pixels.length : ℚ) := by
    rw [hpage.stride, hpage.heightDots, hpage.length]
    norm_cast
  have hwdots : page.widthDots = (mmToDots a .dpi300 : ℚ) := by
    rw [hpage.widthDots, hsize.width]
    norm_cast
  have hhdots : page.heightDots = (mmToDots b .dpi300 : ℚ) := by
    rw [hpage.heightDots, hsize.height]
    norm_cast
  have hsmall : page.pixels.length + monoRasterHeaderBytes ≤ monoRasterMaxBytes := by
    rw [hpage.length]
    exact hsize.small
  have hsafe : isSafeInteger (page.pixels.length : ℚ) = true := by
    have hmax : monoRasterMaxBytes ≤ maxSafeInteger := by decide
    exact isSafeInteger_natCast (by omega)
  have hnot : ¬(isSafeInteger (page.pixels.length : ℚ) = false ∨
      (monoRasterMaxBytes : ℚ) < (page.pixels.length : ℚ) + monoRasterHeaderBytes) := by
    rw [not_or, not_lt]
    exact ⟨by rw [hsafe]; decide, by exact_mod_cast hsmall⟩
  unfold Markiro.geometry
  rw [hdpi, hwidth, hheight]
  dsimp only
  rw [hlength, if_neg hnot]
  by_cases hten : 10 ≤ a ∧ 10 ≤ b
  · rw [if_pos hten]
    refine if_neg ?_
    simp only [not_or, not_not, ne_eq]
    exact ⟨hformat, ⟨hten.1, side_le hsize.width hsize.wide.2⟩,
      ⟨hten.2, side_le hsize.height hsize.tall.2⟩, hwdots, hhdots, hstride, hpage.fit hsize⟩
  · rw [if_neg hten]
    refine if_pos ?_
    by_cases ha : 10 ≤ a
    · exact .inr (.inr (.inl fun hb => hten ⟨ha, hb.1⟩))
    · exact .inr (.inl fun ha' => ha ha'.1)

/-- Every black dot of the page lies in its bounds. -/
theorem Composed.inkAllowed (hpage : Composed widthMm heightMm w h s page done) :
    page.inkAllowed = true := by
  have hstride : ⌈page.stride⌉.toNat = s := by
    rw [hpage.stride, Int.ceil_natCast, Int.toNat_natCast]
  have hheight : ⌈page.heightDots⌉.toNat = h := by
    rw [hpage.heightDots, Int.ceil_natCast, Int.toNat_natCast]
  unfold MonoRaster.inkAllowed
  rw [hstride, hheight, List.all_eq_true]
  intro y hy
  rw [List.all_eq_true]
  intro byteX hbyte
  simp only [Bool.or_eq_true, beq_iff_eq, List.all_eq_true, List.mem_range]
  refine .inr fun bit hbit => ?_
  by_cases hset : bitSet (page.byteAt y byteX) bit = true
  swap
  · rw [Bool.not_eq_true] at hset
    rw [hset]
    exact .inl rfl
  refine .inr ?_
  have hy' : y < h := List.mem_range.1 hy
  have hx : byteX * 8 + bit < 8 * s := by
    have hlt := List.mem_range.1 hbyte
    omega
  have hdiv : (byteX * 8 + bit) / 8 = byteX := by omega
  have hmod : (byteX * 8 + bit) % 8 = bit := by omega
  have hblack : page.Black (byteX * 8 + bit) y := by
    rw [MonoRaster.Black, hdiv, hmod]
    exact hset
  obtain ⟨p, hp, hpblack⟩ := (hpage.black _ y hx hy').1 hblack
  have hne : done ≠ [] := List.ne_nil_of_mem hp
  obtain ⟨hl, hr, ht, hb⟩ := hpblack.mem_rect
  obtain ⟨g1, g2, g3, g4⟩ := (hpage.around.2 hne).1 p hp
  obtain ⟨column, row, hcolumn, -, hxc, -, -⟩ := ((hpage.within p hp).black_iff _ y).1 hpblack
  have hright := (hpage.within p hp).right
  have hxw : ((byteX * 8 + bit : ℕ) : ℚ) < page.widthDots := by
    rw [hpage.widthDots]
    exact_mod_cast (show byteX * 8 + bit < w by omega)
  unfold MonoRaster.allows
  simp only [Bool.not_eq_true', Bool.or_eq_false_iff, decide_eq_false_iff_not, not_le, not_lt]
  exact ⟨⟨⟨⟨hxw, g1.trans hl⟩, hr.trans_le g3⟩, g2.trans ht⟩, hb.trans_le g4⟩

theorem Composed.encode_iff (hpage : Composed widthMm heightMm w h s page done)
    (hsize : SheetSize widthMm heightMm w h s a b) :
    (∃ bytes, encodeMonoRaster page = .ok bytes) ↔ 10 ≤ a ∧ 10 ≤ b := by
  have hgeometry := hpage.geometry hsize
  have hink := hpage.inkAllowed
  unfold encodeMonoRaster validatePixels
  rw [hgeometry]
  by_cases hten : 10 ≤ a ∧ 10 ≤ b
  · rw [if_pos hten, Results.ok_bind, if_neg (not_not.2 rfl), if_pos hink]
    exact ⟨fun _ => hten, fun _ => ⟨_, rfl⟩⟩
  · rw [if_neg hten]
    exact ⟨fun ⟨_, hbytes⟩ => absurd hbytes nofun, fun h => absurd h hten⟩

end Composed

/-! ## Sheets -/

abbrev NewSheet :=
  { sheet : (Float64 × Float64) × MonoRaster // createSheetPage sheet.1.1 sheet.1.2 = .ok sheet.2 }

def LongEnough (side : Float64) : Prop := ∃ mm, side.finite = some mm ∧ 10 ≤ mm

theorem NewSheet.composed (sheet : NewSheet) : ∃ w h s a b,
    SheetSize sheet.1.1.1 sheet.1.1.2 w h s a b ∧ ∀ calls, Composed sheet.1.1.1 sheet.1.1.2 w h s
      (pasteAll sheet.1.2 calls).2 (pasteAll sheet.1.2 calls).1 := by
  obtain ⟨w, h, s, a, b, hsize, hpage⟩ := createSheetPage_ok sheet.2
  refine ⟨w, h, s, a, b, hsize, fun calls => ?_⟩
  rw [hpage]
  exact (composed_blank _ _ w h s).pasteAll hsize.width_le calls

theorem NewSheet.encode_iff (sheet : NewSheet) (calls : List Paste) :
    (∃ bytes, encodeMonoRaster (pasteAll sheet.1.2 calls).2 = .ok bytes) ↔
      LongEnough sheet.1.1.1 ∧ LongEnough sheet.1.1.2 := by
  obtain ⟨w, h, s, a, b, hsize, hcomposed⟩ := sheet.composed
  have hlong : ∀ {side : Float64} {mm : ℚ}, side.finite = some mm → (LongEnough side ↔ 10 ≤ mm) :=
    fun {side mm} hmm => ⟨fun ⟨mm', hmm', hle⟩ => Option.some.inj (hmm'.symm.trans hmm) ▸ hle,
      fun hle => ⟨mm, hmm, hle⟩⟩
  rw [(hcomposed calls).encode_iff hsize, hlong hsize.widthMm, hlong hsize.heightMm]

end Markiro