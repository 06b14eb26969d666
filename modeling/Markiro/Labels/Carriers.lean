import Markiro.Domain.Rasters
import Markiro.Labels.Sheets
import Markiro.Lib.Segments

/-!
# One bitmap, four carriers

The bytes of a bitmap have its black dots as their bits (`isSet_bitmapByte`). They are what the hex of
ZPL spells (`hexByteAt_hex`), what TSPL inverts (`invert_hex`) and what a bitmap to compose and the
path of a preview are read from.
-/

namespace Markiro

open Utf16

/-! ## Dots -/

/-- An array of zeros and ones, a row after a row. -/
structure DotArray where
  width : ℕ
  height : ℕ
  wide : 1 ≤ width
  tall : 1 ≤ height
  cells : List UInt8
  length : cells.length = width * height
  binary : ∀ c ∈ cells, c = 0 ∨ c = 1

namespace DotArray

variable (a : DotArray)

def Black (x y : ℕ) : Prop := x < a.width ∧ y < a.height ∧ a.cells[y * a.width + x]? = some 1

instance (x y : ℕ) : Decidable (a.Black x y) := inferInstanceAs (Decidable (_ ∧ _))

/-- The bytes of a row. -/
def stride : ℕ := ⌈(a.width / 8 : ℚ)⌉.toNat

def bytes : List ℕ :=
  (List.range a.height).flatMap fun y =>
    (List.range a.stride).map fun x => bitmapByte a.cells a.width y x

def raster : RasterResult :=
  (bitmapToZplHex a.cells a.width a.height).raster a.width a.height

theorem stride_spec : a.width ≤ 8 * a.stride ∧ 8 * a.stride < a.width + 8 := by
  have hwide := a.wide
  have hnonneg : (0 : ℚ) ≤ a.width / 8 := by positivity
  have hceil : ((a.stride : ℤ) : ℚ) = (⌈(a.width / 8 : ℚ)⌉ : ℤ) := by
    rw [stride, Int.toNat_of_nonneg (Int.ceil_nonneg hnonneg)]
  have hle := Int.le_ceil (a.width / 8 : ℚ)
  have hlt := Int.ceil_lt_add_one (a.width / 8 : ℚ)
  rw [← hceil] at hle hlt
  push_cast at hle hlt
  constructor
  · have hcast : (a.width : ℚ) ≤ 8 * a.stride := by linarith
    exact_mod_cast hcast
  · have hcast : (8 * a.stride : ℚ) < a.width + 8 := by linarith
    exact_mod_cast hcast

theorem bitmapByte_eq (y x : ℕ) : bitmapByte a.cells a.width y x = Bits.pack fun bit =>
    decide (x * 8 + bit < a.width ∧ a.cells[y * a.width + (x * 8 + bit)]? = some 1) := by
  unfold bitmapByte Bits.pack
  refine congrArg (fun f => List.foldl f 0 _) (funext fun byte => funext fun bit => ?_)
  simp only [decide_eq_true_eq]

/-- **The bits of the bytes are the black dots**, and the padding of a row is blank. -/
theorem isSet_bitmapByte {x y : ℕ} (hy : y < a.height) :
    Bits.isSet (bitmapByte a.cells a.width y (x / 8)) (x % 8) = decide (a.Black x y) := by
  have hplace : x / 8 * 8 + x % 8 = x := by omega
  rw [bitmapByte_eq, Bits.isSet_pack _ (Nat.mod_lt x (by decide)), hplace]
  refine decide_eq_decide.2 ?_
  unfold Black
  simp only [hy, true_and]

theorem bitmapByte_lt (y x : ℕ) : bitmapByte a.cells a.width y x < 256 := by
  rw [bitmapByte_eq]
  exact Bits.pack_lt _

/-! ## Rows of bytes -/

theorem length_rows {α : Type} (f : ℕ → ℕ → α) (h n : ℕ) :
    ((List.range h).flatMap fun y => (List.range n).map (f y)).length = n * h := by
  induction h with
  | zero => rfl
  | succ h ih =>
    rw [List.range_succ, List.flatMap_append, List.length_append, ih, List.flatMap_singleton,
      List.length_map, List.length_range, Nat.mul_succ]

theorem getElem?_rows {α : Type} (f : ℕ → ℕ → α) {h n y x : ℕ} (hy : y < h) (hx : x < n) :
    ((List.range h).flatMap fun y => (List.range n).map (f y))[y * n + x]? = some (f y x) := by
  induction h with
  | zero => exact absurd hy (Nat.not_lt_zero y)
  | succ h ih =>
    rw [List.range_succ, List.flatMap_append, List.flatMap_singleton]
    by_cases hlast : y < h
    · have hplace : y * n + x < n * h := by
        have hrows : (y + 1) * n ≤ h * n := Nat.mul_le_mul_right _ hlast
        linarith
      rw [List.getElem?_append_left (by rw [length_rows]; exact hplace), ih hlast]
    · obtain rfl : y = h := by omega
      have hcomm : n * y = y * n := Nat.mul_comm n y
      rw [List.getElem?_append_right (by rw [length_rows]; omega), length_rows, hcomm,
        Nat.add_sub_cancel_left, List.getElem?_map, List.getElem?_range hx]
      rfl

theorem length_bytes : a.bytes.length = a.stride * a.height := length_rows _ _ _

theorem getElem?_bytes {x y : ℕ} (hy : y < a.height) (hx : x < a.stride) :
    a.bytes[y * a.stride + x]? = some (bitmapByte a.cells a.width y x) := getElem?_rows _ hy hx

theorem bytes_lt {b : ℕ} (h : b ∈ a.bytes) : b < 256 := by
  obtain ⟨y, -, h⟩ := List.mem_flatMap.1 h
  obtain ⟨x, -, rfl⟩ := List.mem_map.1 h
  exact a.bitmapByte_lt y x

/-! ## Hex -/

theorem hex_eq : a.raster.hex = a.bytes.flatMap hexByteText := by
  show (List.range a.height).flatMap (fun y => (List.range a.stride).flatMap fun x =>
    hexByteText (bitmapByte a.cells a.width y x)) = _
  rw [bytes, List.flatMap_assoc]
  simp only [List.flatMap_map]

end DotArray

/-! ## Pairs of digits -/

section Pairs

variable {l : List ℕ} {b i : ℕ}

theorem drop_pairs (l : List ℕ) (i : ℕ) :
    (l.flatMap hexByteText).drop (i * 2) = (l.drop i).flatMap hexByteText := by
  induction l generalizing i with
  | nil => simp
  | cons b l ih =>
    cases i with
    | zero => rfl
    | succ i =>
      rw [Nat.succ_mul, List.flatMap_cons, List.drop_succ_cons, ← ih]
      rfl

theorem length_pairs (l : List ℕ) : (l.flatMap hexByteText).length = l.length * 2 := by
  induction l with
  | nil => rfl
  | cons b l ih =>
    rw [List.flatMap_cons, List.length_append, ih, List.length_cons, hexByteText]
    simp only [List.length_cons, List.length_nil]
    omega

theorem take_pair (h : l[i]? = some b) :
    ((l.flatMap hexByteText).drop (i * 2)).take 2 = hexByteText b := by
  obtain ⟨hi, hb⟩ := List.getElem?_eq_some_iff.1 h
  rw [drop_pairs, List.drop_eq_getElem_cons hi, hb]
  rfl

theorem parseHex_hexByteText (h : b < 256) : parseHex (hexByteText b) = some (b : ℤ) := by
  have hall : ∀ b < 256, parseHex (hexByteText b) = some (b : ℤ) := by decide +kernel
  exact hall b h

theorem isHexDigit_hexByteText (h : b < 256) : (hexByteText b).all isHexDigit = true := by
  have hall : ∀ b < 256, (hexByteText b).all isHexDigit = true := by decide +kernel
  exact hall b h

theorem invertHexByte_hexDigit (h : b < 256) :
    invertHexByte (hexDigit (b / 16)) (hexDigit (b % 16)) = UInt16.ofNat (b ^^^ 0xff) ∧
      (b ^^^ 0xff) < 256 := by
  have hall : ∀ b < 256, invertHexByte (hexDigit (b / 16)) (hexDigit (b % 16)) =
      UInt16.ofNat (b ^^^ 0xff) ∧ (b ^^^ 0xff) < 256 := by decide +kernel
  exact hall b h

theorem hexByteAt_pairs (hl : ∀ b ∈ l, b < 256) (h : l[i]? = some b) :
    hexByteAt (l.flatMap hexByteText) i = some (b : ℤ) := by
  rw [hexByteAt, take_pair h, parseHex_hexByteText (hl b (List.mem_of_getElem? h))]

theorem lowByte_natCast (h : b < 256) : (lowByte (some (b : ℤ))).toNat = b := by
  have hmod : ((b : ℤ) % 256).toNat = b := by omega
  rw [lowByte, Option.getD_some, hmod, UInt8.toNat_ofNat', Nat.mod_eq_of_lt h]

theorem invert_pairs (hl : ∀ b ∈ l, b < 256) : invertHexToTsplBytes (l.flatMap hexByteText) =
    l.map fun b => UInt16.ofNat (b ^^^ 0xff) := by
  induction l with
  | nil => rfl
  | cons b l ih =>
    have hb := (invertHexByte_hexDigit (hl b List.mem_cons_self)).1
    have hrest := ih fun c hc => hl c (List.mem_cons_of_mem _ hc)
    rw [List.flatMap_cons, List.map_cons, ← hb, ← hrest]
    rfl

end Pairs

/-! ## Payloads of printers -/

/-- The byte two digits of a ZPL payload spell. -/
def zplByte (hex : Units) (i : ℕ) : Option ℕ := do
  let high ← hex[i * 2]?.bind hexValue
  let low ← hex[i * 2 + 1]?.bind hexValue
  return high * 16 + low

/-- `^GFA` prints a dot whose bit is 1. -/
def ZplBlack (hex : Units) (bytesPerRow x y : ℕ) : Prop :=
  ∃ byte, zplByte hex (y * bytesPerRow + x / 8) = some byte ∧ Bits.isSet byte (x % 8) = true

/-- `BITMAP` prints a dot whose bit is 0. -/
def TsplBlack (data : Units) (bytesPerRow x y : ℕ) : Prop :=
  ∃ u, data[y * bytesPerRow + x / 8]? = some u ∧ u.toNat < 256 ∧
    Bits.isSet u.toNat (x % 8) = false

theorem hexValue_hexDigit {n : ℕ} (h : n < 16) : hexValue (hexDigit n) = some n := by
  have hall : ∀ n < 16, hexValue (hexDigit n) = some n := by decide
  exact hall n h

theorem zplByte_pairs {l : List ℕ} {b i : ℕ} (hb : b < 256) (h : l[i]? = some b) :
    zplByte (l.flatMap hexByteText) i = some b := by
  have hpair := take_pair h
  have hdigit : ∀ j < 2, (l.flatMap hexByteText)[i * 2 + j]? = (hexByteText b)[j]? := fun j hj => by
    rw [← hpair, List.getElem?_take_of_lt hj, List.getElem?_drop]
  have h0 : (l.flatMap hexByteText)[i * 2]? = some (hexDigit (b / 16)) := hdigit 0 (by decide)
  have h1 : (l.flatMap hexByteText)[i * 2 + 1]? = some (hexDigit (b % 16)) := hdigit 1 (by decide)
  have hvalue : b / 16 * 16 + b % 16 = b := by omega
  unfold zplByte
  rw [h0, h1]
  show ((hexValue (hexDigit (b / 16))).bind fun high =>
    (hexValue (hexDigit (b % 16))).bind fun low => some (high * 16 + low)) = some b
  rw [hexValue_hexDigit (by omega), hexValue_hexDigit (by omega)]
  exact congrArg some hvalue

namespace DotArray

variable (a : DotArray) {x y : ℕ}

theorem invert_hex : invertHexToTsplBytes a.raster.hex =
    a.bytes.map fun b => UInt16.ofNat (b ^^^ 0xff) := by
  rw [hex_eq, invert_pairs fun b hb => a.bytes_lt hb]

/-- **The ZPL payload prints the black dots.** -/
theorem zplBlack_iff (hx : x < 8 * a.stride) (hy : y < a.height) :
    ZplBlack a.raster.hex a.stride x y ↔ a.Black x y := by
  have hbyte := a.getElem?_bytes hy (show x / 8 < a.stride by omega)
  have hzpl := zplByte_pairs (a.bitmapByte_lt y (x / 8)) hbyte
  unfold ZplBlack
  rw [hex_eq, hzpl]
  constructor
  · rintro ⟨byte, hbyte, hset⟩
    rw [← Option.some.inj hbyte, a.isSet_bitmapByte hy] at hset
    exact of_decide_eq_true hset
  · intro hblack
    exact ⟨_, rfl, (a.isSet_bitmapByte hy).trans (decide_eq_true hblack)⟩

/-- **The TSPL payload prints the black dots.** -/
theorem tsplBlack_iff (hx : x < 8 * a.stride) (hy : y < a.height) :
    TsplBlack (invertHexToTsplBytes a.raster.hex) a.stride x y ↔ a.Black x y := by
  have hbyte := a.getElem?_bytes hy (show x / 8 < a.stride by omega)
  have hlt := (invertHexByte_hexDigit (a.bitmapByte_lt y (x / 8))).2
  have hunit : (UInt16.ofNat (bitmapByte a.cells a.width y (x / 8) ^^^ 0xff)).toNat =
      bitmapByte a.cells a.width y (x / 8) ^^^ 0xff := by
    rw [UInt16.toNat_ofNat', Nat.mod_eq_of_lt (by omega)]
  have hset : Bits.isSet (bitmapByte a.cells a.width y (x / 8) ^^^ 0xff) (x % 8) =
      !decide (a.Black x y) := by
    rw [Bits.isSet_complement _ (Nat.mod_lt x (by decide)), a.isSet_bitmapByte hy]
  unfold TsplBlack
  rw [invert_hex, List.getElem?_map, hbyte, Option.map_some]
  constructor
  · rintro ⟨u, hu, -, hzero⟩
    rw [← Option.some.inj hu, hunit, hset, Bool.not_eq_false', decide_eq_true_iff] at hzero
    exact hzero
  · intro hblack
    refine ⟨_, rfl, by omega, ?_⟩
    rw [hunit, hset, decide_eq_true hblack]
    rfl

/-! ## The bitmap to compose -/

/-- The bitmap of the raster's text. -/
def monoBitmap : MonoBitmap where
  width := a.width
  height := a.height
  stride := a.stride
  pixels := a.bytes.map fun b => UInt8.ofNat b

theorem bytes_read : (List.range (a.stride * a.height)).map (hexByteAt a.raster.hex) =
    a.bytes.map fun b : ℕ => some (b : ℤ) := by
  refine List.ext_getElem? fun i => ?_
  rw [List.getElem?_map, List.getElem?_map]
  by_cases hi : i < a.stride * a.height
  · rw [← a.length_bytes] at hi
    rw [← a.length_bytes, List.getElem?_range hi, List.getElem?_eq_getElem hi, hex_eq]
    exact congrArg some (hexByteAt_pairs (fun b hb => a.bytes_lt hb) (List.getElem?_eq_getElem hi))
  · rw [List.getElem?_eq_none (by rw [List.length_range]; omega),
      List.getElem?_eq_none (by rw [a.length_bytes]; omega)]
    rfl

theorem lowByte_byte {b : ℕ} (h : b < 256) : lowByte (some (b : ℤ)) = UInt8.ofNat b := by
  rw [← UInt8.toNat_inj, lowByte_natCast h, UInt8.toNat_ofNat', Nat.mod_eq_of_lt h]

theorem pixels_read : (List.range (a.stride * a.height)).map
    (fun i => lowByte (hexByteAt a.raster.hex i)) = a.monoBitmap.pixels := by
  have hread := congrArg (List.map lowByte) a.bytes_read
  rw [List.map_map, List.map_map] at hread
  refine hread.trans (List.map_congr_left fun b hb => ?_)
  exact lowByte_byte (a.bytes_lt hb)

theorem bitmapPixel_iff (hx : x < 8 * a.stride) (hy : y < a.height) :
    bitmapPixel a.monoBitmap x y = true ↔ a.Black x y := by
  have hbyte := a.getElem?_bytes hy (show x / 8 < a.stride by omega)
  have hstride : wholeNumber a.monoBitmap.stride = a.stride := wholeNumber_natCast _
  have hpixel : a.monoBitmap.pixels.getD (y * a.stride + x / 8) 0 =
      UInt8.ofNat (bitmapByte a.cells a.width y (x / 8)) := by
    rw [List.getD_eq_getElem?_getD]
    show ((a.bytes.map fun b => UInt8.ofNat b)[y * a.stride + x / 8]?).getD 0 = _
    rw [List.getElem?_map, hbyte]
    rfl
  have hvalue : (UInt8.ofNat (bitmapByte a.cells a.width y (x / 8))).toNat =
      bitmapByte a.cells a.width y (x / 8) := by
    rw [UInt8.toNat_ofNat', Nat.mod_eq_of_lt (a.bitmapByte_lt y (x / 8))]
  unfold bitmapPixel
  rw [hstride, hpixel]
  show Bits.isSet (UInt8.ofNat (bitmapByte a.cells a.width y (x / 8))).toNat (x % 8) = true ↔ _
  rw [hvalue, a.isSet_bitmapByte hy, decide_eq_true_iff]

theorem paddingBlank_monoBitmap : a.monoBitmap.paddingBlank = true := by
  obtain ⟨hle, hlt⟩ := a.stride_spec
  have hwidth : wholeNumber a.monoBitmap.width = a.width := wholeNumber_natCast _
  have hheight : wholeNumber a.monoBitmap.height = a.height := wholeNumber_natCast _
  have hstride : wholeNumber a.monoBitmap.stride = a.stride := wholeNumber_natCast _
  have hwide := a.wide
  unfold MonoBitmap.paddingBlank
  rw [hwidth, hheight, hstride]
  simp only [Bool.or_eq_true, beq_iff_eq, List.all_eq_true, List.mem_range]
  refine .inr fun y hy => ?_
  have hplace : (y + 1) * a.stride - 1 = y * a.stride + (a.stride - 1) := by
    rw [Nat.succ_mul]
    omega
  have hbyte := a.getElem?_bytes hy (show a.stride - 1 < a.stride by omega)
  have hlast : a.monoBitmap.pixels.getD (y * a.stride + (a.stride - 1)) 0 =
      UInt8.ofNat (bitmapByte a.cells a.width y (a.stride - 1)) := by
    rw [List.getD_eq_getElem?_getD]
    show ((a.bytes.map fun b => UInt8.ofNat b)[y * a.stride + (a.stride - 1)]?).getD 0 = _
    rw [List.getElem?_map, hbyte]
    rfl
  have hvalue : (UInt8.ofNat (bitmapByte a.cells a.width y (a.stride - 1))).toNat =
      bitmapByte a.cells a.width y (a.stride - 1) := by
    rw [UInt8.toNat_ofNat', Nat.mod_eq_of_lt (a.bitmapByte_lt y _)]
  rw [hplace, hlast, hvalue, Nat.one_shiftLeft, Nat.and_two_pow_sub_one_eq_mod]
  refine Nat.eq_of_testBit_eq fun j => ?_
  rw [Nat.testBit_mod_two_pow, Nat.zero_testBit, Bool.and_eq_false_iff]
  by_cases hj : j < (8 - a.width % 8) % 8
  · -- A low bit of the last byte stands for a column beyond the width.
    have hbit : 7 - j < 8 := by omega
    have hset := @isSet_bitmapByte a ((a.stride - 1) * 8 + (7 - j)) y hy
    rw [show ((a.stride - 1) * 8 + (7 - j)) / 8 = a.stride - 1 by omega,
      show ((a.stride - 1) * 8 + (7 - j)) % 8 = 7 - j by omega, Bits.isSet_eq_testBit _ hbit,
      show 7 - (7 - j) = j by omega] at hset
    rw [hset]
    refine .inr (decide_eq_false fun hblack => ?_)
    have hinside := hblack.1
    omega
  · exact .inl (decide_eq_false hj)

theorem validateMonoBitmap_monoBitmap : validateMonoBitmap a.monoBitmap =
    if a.width ≤ 3508 ∧ a.height ≤ 3508 then .ok ()
    else .error ⟨.labelSheetRaster, encode "Invalid monochrome bitmap"⟩ := by
  obtain ⟨hle, hlt⟩ := a.stride_spec
  have hwide := a.wide
  have htall := a.tall
  unfold validateMonoBitmap
  rw [a.paddingBlank_monoBitmap, if_neg (c := true = false) (by decide)]
  by_cases hsize : a.width ≤ 3508 ∧ a.height ≤ 3508
  · have hmax : 3508 ≤ maxSafeInteger := by decide
    have hceil : ((a.stride : ℤ) : ℚ) = (⌈(a.width / 8 : ℚ)⌉ : ℤ) := by
      rw [stride, Int.toNat_of_nonneg (Int.ceil_nonneg (by positivity))]
    have hlength : a.monoBitmap.pixels.length = a.stride * a.height := by
      rw [← a.length_bytes]
      exact List.length_map _
    have hbytes : a.stride * a.height ≤ 439 * 3508 :=
      Nat.mul_le_mul (by omega) hsize.2
    rw [if_pos hsize]
    refine if_neg (not_not.2 ⟨fun n hn => ?_, ?_, ?_, ?_, ?_, ?_, ?_, ?_⟩)
    · have hcases : n = a.width ∨ n = a.height ∨ n = a.stride := by simpa [monoBitmap] using hn
      rcases hcases with rfl | rfl | rfl
      · exact isSafeInteger_natCast (by omega)
      · exact isSafeInteger_natCast (by omega)
      · exact isSafeInteger_natCast (by omega)
    · exact Nat.one_le_cast.2 hwide
    · exact Nat.one_le_cast.2 htall
    · exact Nat.cast_le_ofNat.2 hsize.1
    · exact Nat.cast_le_ofNat.2 hsize.2
    · show (a.stride : ℚ) = (⌈(a.width / 8 : ℚ)⌉ : ℤ)
      rw [← hceil, Int.cast_natCast]
    · rw [hlength]
      exact Nat.cast_mul _ _
    · have hcap : 439 * 3508 ≤ monoRasterMaxBytes := by decide
      omega
  · rw [if_neg hsize]
    refine if_pos fun hfit => hsize ?_
    obtain ⟨-, -, -, hw, hh, -⟩ := hfit
    have hw' : (a.width : ℚ) ≤ 3508 := hw
    have hh' : (a.height : ℚ) ≤ 3508 := hh
    exact ⟨by exact_mod_cast hw', by exact_mod_cast hh'⟩

theorem stride_pos : 1 ≤ a.stride := by
  have hle := a.stride_spec.1
  have hwide := a.wide
  omega

theorem length_hex : a.raster.hex.length = a.stride * a.height * 2 := by
  rw [hex_eq, length_pairs, length_bytes]

theorem hex_digits : a.raster.hex.all isHexDigit = true := by
  rw [hex_eq, List.all_flatMap, List.all_eq_true]
  exact fun b hb => isHexDigit_hexByteText (a.bytes_lt hb)

theorem totalBytes_eq : a.raster.totalBytes = ((a.stride * a.height : ℕ) : ℤ) :=
  (Nat.cast_mul _ _).symm

theorem bitmap_read : (⟨a.raster.width, a.raster.height, a.raster.bytesPerRow,
    (List.range (a.raster.bytesPerRow * a.raster.height).toNat).map
      fun i => lowByte (hexByteAt a.raster.hex i)⟩ : MonoBitmap) = a.monoBitmap := by
  show (⟨_, _, _, (List.range a.raster.totalBytes.toNat).map _⟩ : MonoBitmap) = _
  rw [totalBytes_eq, Int.toNat_natCast, pixels_read]
  rfl

/-- **The raster's text is read as the bitmap**, up to 3508 dots a side. -/
theorem bitmapFromText_ok (hsize : a.width ≤ 3508 ∧ a.height ≤ 3508) :
    bitmapFromText a.raster = .ok a.monoBitmap := by
  have hbound := a.stride_spec.2
  have hwide := a.wide
  have hpos : 1 ≤ a.stride * a.height := Nat.mul_pos a.stride_pos a.tall
  have hbytes : a.stride * a.height ≤ 439 * 3508 := Nat.mul_le_mul (by omega) hsize.2
  have hcap : 439 * 3508 ≤ monoRasterMaxBytes := by decide
  have hmax : monoRasterMaxBytes ≤ maxSafeInteger := by decide
  have hproduct : a.raster.bytesPerRow * a.raster.height = ((a.stride * a.height : ℕ) : ℤ) :=
    a.totalBytes_eq
  have hsafe : isSafeInteger (((a.stride * a.height : ℕ) : ℤ) : ℚ) = true := by
    rw [Int.cast_natCast]
    exact isSafeInteger_natCast (by omega)
  have hnil : a.raster.hex ≠ [] := by
    rw [← List.length_pos_iff_ne_nil, length_hex]
    omega
  unfold bitmapFromText
  dsimp only
  rw [if_neg]
  · rw [bitmap_read, validateMonoBitmap_monoBitmap, if_pos hsize]
    rfl
  · rw [hproduct, hsafe, length_hex, totalBytes_eq]
    push Not
    refine ⟨by decide, ?_, ?_, rfl, hnil, a.hex_digits⟩
    · exact_mod_cast hbytes.trans hcap
    · push_cast
      rfl

theorem bitmapFromText_error (hsize : ¬(a.width ≤ 3508 ∧ a.height ≤ 3508)) :
    ∃ e, bitmapFromText a.raster = .error e := by
  unfold bitmapFromText
  dsimp only
  split_ifs
  · exact ⟨_, rfl⟩
  · rw [bitmap_read, validateMonoBitmap_monoBitmap, if_neg hsize]
    exact ⟨_, rfl⟩

end DotArray

/-! ## The path of a preview -/

structure PathRect where
  left : ℚ
  top : ℚ
  width : ℚ
  height : ℚ

def PathRect.Covers (r : PathRect) (x y : ℕ) : Prop :=
  r.left ≤ x ∧ (x : ℚ) < r.left + r.width ∧ r.top ≤ y ∧ (y : ℚ) < r.top + r.height

def readPathNumber (s : Units) : Option (ℚ × Units) :=
  let token := s.takeWhile isNumberUnit
  if token = [] then none else (numberOf token).map fun q => (q, s.dropWhile isNumberUnit)

def readUnit (u : UInt16) : Units → Option Units
  | v :: s => if v = u then some s else none
  | [] => none

/-- A part of a path without its closing `z`: to a corner, across, down and back. -/
def readPathRect (s : Units) : Option PathRect := do
  let s ← readUnit 77 s
  let (left, s) ← readPathNumber s
  let s ← readUnit 32 s
  let (top, s) ← readPathNumber s
  let s ← readUnit 104 s
  let (width, s) ← readPathNumber s
  let s ← readUnit 118 s
  let (height, s) ← readPathNumber s
  let s ← readUnit 104 s
  let (back, s) ← readPathNumber s
  if s = [] ∧ back = -width then some ⟨left, top, width, height⟩ else none

/-- The rectangles of a path; every part is closed. -/
def readPath (path : Units) : Option (List PathRect) :=
  match (path.splitOnP fun u => u == 122).reverse with
  | [] :: parts => parts.reverse.mapM readPathRect
  | _ => none

section Reading

variable {rest : Units} {n : ℕ}

theorem readPathNumber_text {token : Units} {q : ℚ} (hne : token ≠ [])
    (hunits : ∀ u ∈ token, isNumberUnit u = true) (hq : numberOf token = some q)
    (hrest : ∀ u ∈ rest.head?, isNumberUnit u = false) :
    readPathNumber (token ++ rest) = some (q, rest) := by
  have htake : (token ++ rest).takeWhile isNumberUnit = token := by
    rw [List.takeWhile_append_of_pos hunits]
    cases rest with
    | nil => simp
    | cons u rest => rw [List.takeWhile_cons_of_neg (by simp [hrest u rfl]), List.append_nil]
  have hdrop : (token ++ rest).dropWhile isNumberUnit = rest := by
    rw [List.dropWhile_append_of_pos hunits]
    cases rest with
    | nil => rfl
    | cons u rest => rw [List.dropWhile_cons_of_neg (by simp [hrest u rfl])]
  unfold readPathNumber
  rw [htake, hdrop]
  dsimp only
  rw [if_neg hne, hq]
  rfl

theorem readPathNumber_natCast (hrest : ∀ u ∈ rest.head?, isNumberUnit u = false) :
    readPathNumber (numberText (n : ℚ) ++ rest) = some ((n : ℚ), rest) := by
  have hunits := numberText_intCast_units (n : ℤ)
  have hread := numberOf_numberText_intCast (n : ℤ)
  rw [Int.cast_natCast] at hunits hread
  exact readPathNumber_text hunits.1 hunits.2 hread hrest

theorem numberText_neg (hn : 0 < n) : numberText (-(n : ℚ)) = 45 :: numberText (n : ℚ) := by
  have hdecimals : decimals (n : ℚ) = some 0 := by
    have h := decimals_intCast (n : ℤ)
    rw [Int.cast_natCast] at h
    exact h
  have hdecimals' : decimals (-(n : ℚ)) = some 0 := by
    have h := decimals_intCast (-(n : ℤ))
    rw [Int.cast_neg, Int.cast_natCast] at h
    exact h
  have hneg : -(n : ℚ) < 0 := neg_lt_zero.2 (Nat.cast_pos.2 hn)
  have hpos : ¬(n : ℚ) < 0 := not_lt.2 (Nat.cast_nonneg n)
  have hminus : encode "-" = [45] := by decide
  rw [numberText, numberText, hdecimals, hdecimals']
  dsimp only
  rw [if_pos hneg, if_neg hpos, hminus, Rat.neg_num, Rat.neg_den, Int.natAbs_neg]
  rfl

theorem readPathNumber_neg (hn : 0 < n) (hrest : ∀ u ∈ rest.head?, isNumberUnit u = false) :
    readPathNumber (45 :: (numberText (n : ℚ) ++ rest)) = some (-(n : ℚ), rest) := by
  have hunits := numberText_intCast_units (-(n : ℤ))
  have hread := numberOf_numberText_intCast (-(n : ℤ))
  rw [Int.cast_neg, Int.cast_natCast, numberText_neg hn] at hunits hread
  exact readPathNumber_text hunits.1 hunits.2 hread hrest

end Reading

/-! ## Runs of a row -/

section Runs

variable {black : ℕ → Bool} {width : ℕ}

theorem runLength_le (black : ℕ → Bool) (x n : ℕ) : runLength black x n ≤ n := by
  induction n generalizing x with
  | zero => exact le_rfl
  | succ n ih =>
    rw [runLength]
    split_ifs
    · exact Nat.succ_le_succ (ih (x + 1))
    · exact Nat.zero_le _

theorem runLength_black {x n c : ℕ} (hx : x ≤ c) (hc : c < x + runLength black x n) :
    black c = true := by
  induction n generalizing x with
  | zero =>
    rw [runLength] at hc
    omega
  | succ n ih =>
    rw [runLength] at hc
    by_cases hblack : black x = true
    · rw [if_pos hblack] at hc
      by_cases hhere : x = c
      · rw [← hhere]
        exact hblack
      · exact @ih (x + 1) (by omega) (by omega)
    · rw [if_neg hblack] at hc
      omega

theorem runLength_pos {x n : ℕ} (hn : 0 < n) (hblack : black x = true) :
    0 < runLength black x n := by
  obtain ⟨n, rfl⟩ := Nat.exists_eq_succ_of_ne_zero hn.ne'
  rw [runLength, if_pos hblack]
  exact Nat.succ_pos _

/-- **The runs of a row cover its black dots**; none is empty. -/
theorem rowRuns_covers {fuel x : ℕ} (hfuel : width ≤ x + fuel) :
    (∀ r ∈ rowRuns black width fuel x, 0 < r.2) ∧
      ∀ c, (∃ r ∈ rowRuns black width fuel x, r.1 ≤ c ∧ c < r.1 + r.2) ↔
        x ≤ c ∧ c < width ∧ black c = true := by
  induction fuel generalizing x with
  | zero =>
    refine ⟨fun r hr => absurd hr List.not_mem_nil, fun c => ⟨?_, fun ⟨h1, h2, _⟩ => by omega⟩⟩
    rintro ⟨r, hr, -⟩
    exact absurd hr List.not_mem_nil
  | succ fuel ih =>
    rw [rowRuns]
    by_cases hend : width ≤ x
    · rw [if_pos hend]
      refine ⟨fun r hr => absurd hr List.not_mem_nil, fun c => ⟨?_, fun ⟨h1, h2, _⟩ => by omega⟩⟩
      rintro ⟨r, hr, -⟩
      exact absurd hr List.not_mem_nil
    by_cases hblack : black x = false
    · obtain ⟨hpos, hcovers⟩ := @ih (x + 1) (by omega)
      rw [if_neg hend, if_pos hblack]
      refine ⟨hpos, fun c => (hcovers c).trans ⟨fun ⟨h1, h2, h3⟩ => ⟨by omega, h2, h3⟩,
        fun ⟨h1, h2, h3⟩ => ⟨?_, h2, h3⟩⟩⟩
      -- The dot at `x` is blank.
      by_contra hle
      obtain rfl : c = x := by omega
      rw [hblack] at h3
      cases h3
    · rw [Bool.not_eq_false] at hblack
      have hrun := runLength_pos (show 0 < width - x by omega) hblack
      have hle := runLength_le black x (width - x)
      obtain ⟨hpos, hcovers⟩ := @ih (x + runLength black x (width - x)) (by omega)
      rw [if_neg hend, if_neg (by rw [hblack]; decide)]
      dsimp only
      refine ⟨fun r hr => ?_, fun c => ?_⟩
      · rcases List.mem_cons.1 hr with rfl | hr
        · exact hrun
        · exact hpos r hr
      · constructor
        · rintro ⟨r, hr, h1, h2⟩
          rcases List.mem_cons.1 hr with rfl | hr
          · exact ⟨h1, by dsimp only at h2; omega, runLength_black h1 h2⟩
          · obtain ⟨g1, g2, g3⟩ := (hcovers c).1 ⟨r, hr, h1, h2⟩
            exact ⟨by omega, g2, g3⟩
        · rintro ⟨h1, h2, h3⟩
          by_cases hin : c < x + runLength black x (width - x)
          · exact ⟨_, List.mem_cons_self, h1, hin⟩
          · obtain ⟨r, hr, hr'⟩ := (hcovers c).2 ⟨not_lt.1 hin, h2, h3⟩
            exact ⟨r, List.mem_cons_of_mem _ hr, hr'⟩

end Runs

/-! ## The path read -/

/-- A run's part of the path, without what closes it. -/
def runBody (y : ℕ) (run : ℕ × ℕ) : Units :=
  77 :: (numberText run.1 ++ 32 :: (numberText y ++ 104 :: (numberText run.2 ++
    118 :: 49 :: 104 :: 45 :: numberText run.2)))

theorem runText_eq (y : ℕ) (run : ℕ × ℕ) : runText y run = runBody y run ++ [122] := by
  have h1 : encode "M" = [77] := by decide
  have h2 : encode " " = [32] := by decide
  have h3 : encode "h" = [104] := by decide
  have h4 : encode "v1h-" = [118, 49, 104, 45] := by decide
  have h5 : encode "z" = [122] := by decide
  rw [runText, runBody, h1, h2, h3, h4, h5]
  simp only [List.append_assoc, List.cons_append, List.nil_append]

theorem not_closing {u : UInt16} {n : ℕ} (h : u ∈ numberText (n : ℚ)) : (u == 122) = false := by
  have hunits := (numberText_intCast_units (n : ℤ)).2
  rw [Int.cast_natCast] at hunits
  have hu := hunits u h
  rw [beq_eq_false_iff_ne]
  rintro rfl
  exact absurd hu (by decide)

theorem runBody_open {y : ℕ} {run : ℕ × ℕ} : ∀ u ∈ runBody y run, (u == 122) = false := by
  intro u hu
  simp only [runBody, List.mem_cons, List.mem_append] at hu
  rcases hu with rfl | hu | rfl | hu | rfl | hu | rfl | rfl | rfl | rfl | hu
  · decide
  · exact not_closing hu
  · decide
  · exact not_closing hu
  · decide
  · exact not_closing hu
  · decide
  · decide
  · decide
  · decide
  · exact not_closing hu

def runRect (y : ℕ) (run : ℕ × ℕ) : PathRect := ⟨run.1, y, run.2, 1⟩

theorem readPathRect_runBody {y : ℕ} {run : ℕ × ℕ} (hrun : 0 < run.2) :
    readPathRect (runBody y run) = some (runRect y run) := by
  have hone : ∀ rest : Units, readPathNumber (49 :: 104 :: rest) = some (1, 104 :: rest) :=
    fun rest => @readPathNumber_text (104 :: rest) [49] 1 (by decide) (by decide)
      (by decide +kernel) (by simp; decide)
  have hlast := @readPathNumber_neg [] run.2 hrun (by simp)
  rw [List.append_nil] at hlast
  unfold readPathRect runBody
  simp only [readUnit, if_true, Option.bind_eq_bind, Option.bind_some]
  rw [readPathNumber_natCast (by simp; decide)]
  simp only [if_true, Option.bind_some]
  rw [readPathNumber_natCast (by simp; decide)]
  simp only [if_true, Option.bind_some]
  rw [readPathNumber_natCast (by simp; decide)]
  simp only [if_true, Option.bind_some]
  rw [hone]
  simp only [if_true, Option.bind_some]
  rw [hlast]
  exact if_pos ⟨rfl, rfl⟩

theorem mapM_map_some {α β γ : Type} {f : β → Option γ} {body : α → β} {g : α → γ} {l : List α}
    (h : ∀ a ∈ l, f (body a) = some (g a)) : (l.map body).mapM f = some (l.map g) := by
  induction l with
  | nil => rfl
  | cons a l ih =>
    rw [List.map_cons, List.mapM_cons, h a List.mem_cons_self,
      ih fun b hb => h b (List.mem_cons_of_mem _ hb)]
    rfl

theorem readPath_runs {runs : List (ℕ × ℕ × ℕ)} (hruns : ∀ r ∈ runs, 0 < r.2.2) :
    readPath (runs.flatMap fun r => runText r.1 r.2) = some
    (runs.map fun r => runRect r.1 r.2) := by
  have hsplit : (runs.flatMap fun r => runText r.1 r.2).splitOnP (fun u => u == 122) =
      runs.map (fun r => runBody r.1 r.2) ++ [[]] := by
    simp only [runText_eq]
    exact Segments.splitOnP_ended (by decide) fun r _ => runBody_open
  unfold readPath
  rw [hsplit, List.reverse_append, List.reverse_singleton, List.singleton_append]
  dsimp only
  rw [List.reverse_reverse]
  exact mapM_map_some fun r hr => readPathRect_runBody (hruns r hr)

namespace DotArray

variable (a : DotArray) {x y : ℕ}

theorem rasterBlack_eq (hx : x < a.width) (hy : y < a.height) :
    rasterBlack ((List.range (a.stride * a.height)).map (hexByteAt a.raster.hex))
      a.stride x y = decide (a.Black x y) := by
  have hle := a.stride_spec.1
  have hbyte := a.getElem?_bytes hy (show x / 8 < a.stride by omega)
  have hindex : (y : ℤ) * a.stride + (x : ℤ) / 8 = ((y * a.stride + x / 8 : ℕ) : ℤ) := by
    push_cast
    rfl
  have hvalue : (lowByte (some (bitmapByte a.cells a.width y (x / 8) : ℤ))).toNat =
      bitmapByte a.cells a.width y (x / 8) := lowByte_natCast (a.bitmapByte_lt y (x / 8))
  unfold rasterBlack
  rw [hindex, bytes_read]
  dsimp only
  rw [if_neg (by omega), Int.toNat_natCast, List.getD_eq_getElem?_getD, List.getElem?_map, hbyte]
  show Bits.isSet (lowByte (some (bitmapByte a.cells a.width y (x / 8) : ℤ))).toNat (x % 8) = _
  rw [hvalue, a.isSet_bitmapByte hy]

def runs : List (ℕ × ℕ × ℕ) :=
  (List.range a.height).flatMap fun y =>
    (rowRuns (fun x => decide (a.Black x y)) a.width a.width 0).map fun run => (y, run)

theorem rowRuns_congr {black black' : ℕ → Bool} {width : ℕ}
    (h : ∀ x < width, black x = black' x) (fuel x : ℕ) :
    rowRuns black width fuel x = rowRuns black' width fuel x := by
  have hlength : ∀ n x, x + n ≤ width → runLength black x n = runLength black' x n := by
    intro n
    induction n with
    | zero => exact fun x _ => rfl
    | succ n ih =>
      intro x hx
      rw [runLength, runLength, h x (by omega), ih (x + 1) (by omega)]
  induction fuel generalizing x with
  | zero => rfl
  | succ fuel ih =>
    rw [rowRuns, rowRuns]
    by_cases hend : width ≤ x
    · rw [if_pos hend, if_pos hend]
    · rw [if_neg hend, if_neg hend, h x (by omega), ih (x + 1),
        hlength (width - x) x (by omega)]
      dsimp only
      rw [ih]

theorem path_eq : labelRasterSvgPath a.raster = a.runs.flatMap fun r => runText r.1 r.2 := by
  have htotal : a.raster.totalBytes.toNat = a.stride * a.height := by
    have hbytes : a.raster.totalBytes = ((a.stride * a.height : ℕ) : ℤ) := (Nat.cast_mul _ _).symm
    rw [hbytes, Int.toNat_natCast]
  have hheight : a.raster.height.toNat = a.height := Int.toNat_natCast _
  have hwidth : a.raster.width.toNat = a.width := Int.toNat_natCast _
  unfold labelRasterSvgPath runs
  rw [htotal, hheight, hwidth]
  dsimp only
  rw [List.flatMap_assoc]
  refine List.flatMap_congr fun y hy => ?_
  have hrows := rowRuns_congr (fun x hx => a.rasterBlack_eq hx (List.mem_range.1 hy)) a.width 0
  show (rowRuns (fun x => rasterBlack _ a.stride x y) a.width a.width 0).flatMap (runText y) = _
  rw [hrows, List.flatMap_map]

theorem runs_pos {r : ℕ × ℕ × ℕ} (h : r ∈ a.runs) : 0 < r.2.2 := by
  obtain ⟨y, -, h⟩ := List.mem_flatMap.1 h
  obtain ⟨run, hrun, rfl⟩ := List.mem_map.1 h
  exact (rowRuns_covers (Nat.le_add_left _ _)).1 run hrun

theorem runRect_covers {y : ℕ} {run : ℕ × ℕ} {X Y : ℕ} :
    (runRect y run).Covers X Y ↔ Y = y ∧ run.1 ≤ X ∧ X < run.1 + run.2 := by
  unfold PathRect.Covers runRect
  dsimp only
  norm_cast
  omega

/-- **The path draws the black dots.** -/
theorem path_covers : ∃ rects, readPath (labelRasterSvgPath a.raster) = some rects ∧
    ∀ x y, (∃ r ∈ rects, r.Covers x y) ↔ a.Black x y := by
  refine ⟨_, by rw [path_eq]; exact readPath_runs fun r hr => a.runs_pos hr, fun X Y => ?_⟩
  have hcovers := (@rowRuns_covers (fun x => decide (a.Black x Y)) a.width a.width 0
    (Nat.le_add_left _ _)).2 X
  constructor
  · rintro ⟨rect, hrect, hin⟩
    obtain ⟨r, hr, rfl⟩ := List.mem_map.1 hrect
    obtain ⟨y, -, hr⟩ := List.mem_flatMap.1 hr
    obtain ⟨run, hrun, rfl⟩ := List.mem_map.1 hr
    obtain ⟨rfl, h1, h2⟩ := runRect_covers.1 hin
    exact of_decide_eq_true (hcovers.1 ⟨run, hrun, h1, h2⟩).2.2
  · intro hblack
    obtain ⟨run, hrun, h1, h2⟩ := hcovers.2 ⟨Nat.zero_le _, hblack.1, decide_eq_true hblack⟩
    refine ⟨runRect Y run, List.mem_map.2 ⟨(Y, run), ?_, rfl⟩, runRect_covers.2 ⟨rfl, h1, h2⟩⟩
    exact List.mem_flatMap.2 ⟨Y, List.mem_range.2 hblack.2.1, List.mem_map.2 ⟨run, hrun, rfl⟩⟩

end DotArray

/-- **One bitmap, four carriers**: the hex of ZPL, the bytes of TSPL, the bitmap to compose, up to
3508 dots a side, and the path of a preview have the black dots of the array and no others, also in
the padding of a row, and the sizes they announce are those of their payloads. -/
theorem one_bitmap_four_carriers (a : DotArray) :
    (∀ x y, x < 8 * a.stride → y < a.height →
      (ZplBlack a.raster.hex a.stride x y ↔ a.Black x y) ∧
      (TsplBlack (invertHexToTsplBytes a.raster.hex) a.stride x y ↔ a.Black x y)) ∧
    (if a.width ≤ 3508 ∧ a.height ≤ 3508 then
      ∃ b, bitmapFromText a.raster = .ok b ∧ b.width = a.width ∧ b.height = a.height ∧
        b.stride = a.stride ∧ b.pixels.length = a.stride * a.height ∧
        ∀ x y, x < 8 * a.stride → y < a.height → (bitmapPixel b x y = true ↔ a.Black x y)
    else ∃ e, bitmapFromText a.raster = .error e) ∧
    (∃ rects, readPath (labelRasterSvgPath a.raster) = some rects ∧
      ∀ x y, (∃ r ∈ rects, r.Covers x y) ↔ a.Black x y) ∧
    (a.width ≤ 8 * a.stride ∧ 8 * a.stride < a.width + 8) ∧
    (a.raster.bytesPerRow = a.stride ∧ a.raster.totalBytes = (a.stride * a.height : ℕ) ∧
      a.raster.hex.length = a.stride * a.height * 2 ∧
      (invertHexToTsplBytes a.raster.hex).length = a.stride * a.height ∧
      (∀ u ∈ invertHexToTsplBytes a.raster.hex, u.toNat < 256) ∧
      bitmapToTsplBytes a.cells a.width a.height =
        ⟨invertHexToTsplBytes a.raster.hex, a.stride⟩) ∧
    buildGfaCommand a.raster = encode "^GFA," ++ numberText (a.stride * a.height : ℕ) ++
      encode "," ++ numberText (a.stride * a.height : ℕ) ++ encode "," ++ numberText a.stride ++
      encode "," ++ a.raster.hex ∧
    ∀ left top : ℤ, buildBitmapCommand left top a.raster = encode "BITMAP " ++ numberText left ++
      encode "," ++ numberText top ++ encode "," ++ numberText a.stride ++ encode "," ++
      numberText a.height ++ encode ",0," ++ invertHexToTsplBytes a.raster.hex := by
  have hstride : ((a.raster.bytesPerRow : ℤ) : ℚ) = (a.stride : ℚ) := Int.cast_natCast _
  have hheight : ((a.raster.height : ℤ) : ℚ) = (a.height : ℚ) := Int.cast_natCast _
  refine ⟨fun x y hx hy => ⟨a.zplBlack_iff hx hy, a.tsplBlack_iff hx hy⟩, ?_, a.path_covers,
    a.stride_spec, ⟨rfl, a.totalBytes_eq, a.length_hex, ?_, fun u hu => ?_, rfl⟩, ?_, fun left top => ?_⟩
  · by_cases hsize : a.width ≤ 3508 ∧ a.height ≤ 3508
    · rw [if_pos hsize]
      refine ⟨a.monoBitmap, a.bitmapFromText_ok hsize, rfl, rfl, rfl, ?_,
        fun x y hx hy => a.bitmapPixel_iff hx hy⟩
      rw [← a.length_bytes]
      exact List.length_map _
    · rw [if_neg hsize]
      exact a.bitmapFromText_error hsize
  · rw [a.invert_hex, List.length_map, a.length_bytes]
  · rw [a.invert_hex] at hu
    obtain ⟨b, hb, rfl⟩ := List.mem_map.1 hu
    have hlt := (invertHexByte_hexDigit (a.bytes_lt hb)).2
    rw [UInt16.toNat_ofNat', Nat.mod_eq_of_lt (by omega)]
    exact hlt
  · unfold buildGfaCommand
    rw [hstride, a.totalBytes_eq, Int.cast_natCast]
  · unfold buildBitmapCommand
    rw [hstride, hheight]

def wideRow : DotArray where
  width := 3509
  height := 1
  wide := by decide
  tall := le_rfl
  cells := List.replicate 3509 0
  length := List.length_replicate
  binary := fun c hc => .inl (List.eq_of_mem_replicate hc)

/-- A bitmap wider than 3508 dots is no bitmap to compose. -/
theorem wide_row_refused : ∃ e, bitmapFromText wideRow.raster = .error e :=
  wideRow.bitmapFromText_error (by decide)

end Markiro
