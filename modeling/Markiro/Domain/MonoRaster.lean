import Markiro.Domain.Labels
import Markiro.Lib.Bytes

/-!
# Mono rasters

The `mono-raster-v1` artifact (`labels/mono-raster.ts`): a header of 64 bytes that repeats the
geometry of the page, and its pixels.
-/

namespace Markiro

open Utf16 Bytes

/-! ## The model -/

def monoRasterMaxBytes : ℕ := 2 * 1024 * 1024

def monoRasterHeaderBytes : ℕ := 64

def monoRasterMagic : List UInt8 := [77, 75, 82, 77, 78, 79, 49, 0]

/-- A number in the eight bytes of IEEE 754. -/
structure Float64 where
  bits : UInt64
  deriving DecidableEq

/-- The number, unless it is `NaN` or infinite. -/
def Float64.finite (x : Float64) : Option ℚ :=
  let n := x.bits.toNat
  let exponent : ℕ := n / 2 ^ 52 % 2 ^ 11
  let fraction : ℕ := n % 2 ^ 52
  let magnitude : ℚ := if exponent = 0 then fraction * (2 : ℚ) ^ (-1074 : ℤ)
    else (2 ^ 52 + fraction : ℕ) * (2 : ℚ) ^ ((exponent : ℤ) - 1075)
  if exponent = 2047 then none else some (if n / 2 ^ 63 = 1 then -magnitude else magnitude)

structure MonoRasterBounds where
  left : ℚ
  top : ℚ
  right : ℚ
  bottom : ℚ
  deriving DecidableEq

/-- A page without its pixels. -/
structure MonoRasterMetadata where
  format : Units
  widthMm : Float64
  heightMm : Float64
  dpi : ℚ
  widthDots : ℚ
  heightDots : ℚ
  stride : ℚ
  requiredBounds : MonoRasterBounds
  deriving DecidableEq

/-- Top-down, MSB-first, 1=black; unused row bits must be zero. -/
structure MonoRaster extends MonoRasterMetadata where
  pixels : List UInt8
  deriving DecidableEq

/-! ## Checks -/

/-- What a function that throws a `RangeError` gives. -/
abbrev MonoRasters := Except Units

def invalidRaster {α : Type} : MonoRasters α := .error (encode "Invalid mono-raster-v1 artifact")

def monoRasterFormat : Units := encode "mono-raster-v1"

def dpiOf (dpi : ℚ) : Option PrinterDpi :=
  if dpi = 203 then some .dpi203 else if dpi = 300 then some .dpi300 else none

/-- The bounds lie in the page, in whole dots. -/
def MonoRasterBounds.Fit (b : MonoRasterBounds) (widthDots heightDots : ℚ) : Prop :=
  (∀ n ∈ [b.left, b.top, b.right, b.bottom], isSafeInteger n = true ∧ 0 ≤ n) ∧ b.left ≤ b.right ∧
    b.top ≤ b.bottom ∧ b.right ≤ widthDots ∧ b.bottom ≤ heightDots

instance (b : MonoRasterBounds) (widthDots heightDots : ℚ) :
    Decidable (b.Fit widthDots heightDots) := by
  unfold MonoRasterBounds.Fit
  infer_instance

/-- The number of bytes the pixels of a page take. -/
def geometry (page : MonoRasterMetadata) : MonoRasters ℚ :=
  match dpiOf page.dpi, page.widthMm.finite, page.heightMm.finite with
  | some dpi, some widthMm, some heightMm =>
    if page.format ≠ monoRasterFormat ∨ ¬(10 ≤ widthMm ∧ widthMm ≤ 300) ∨
        ¬(10 ≤ heightMm ∧ heightMm ≤ 300) ∨ page.widthDots ≠ mmToDots widthMm dpi ∨
        page.heightDots ≠ mmToDots heightMm dpi ∨ page.stride ≠ ⌈page.widthDots / 8⌉ ∨
        ¬page.requiredBounds.Fit page.widthDots page.heightDots then invalidRaster
    else
      let length := page.stride * page.heightDots
      if isSafeInteger length = false ∨ (monoRasterMaxBytes : ℚ) < length + monoRasterHeaderBytes then
        invalidRaster
      else .ok length
  | _, _, _ => invalidRaster

/-- Whether the bit of a byte is set, the highest first. -/
def bitSet (value : UInt8) (bit : ℕ) : Bool := value.toNat &&& (0x80 >>> bit) != 0

/-- Whether a dot may be black. -/
def MonoRaster.allows (page : MonoRaster) (x y : ℕ) : Bool :=
  !(decide (page.widthDots ≤ x) || decide ((x : ℚ) < page.requiredBounds.left) ||
    decide (page.requiredBounds.right ≤ x) || decide ((y : ℚ) < page.requiredBounds.top) ||
    decide (page.requiredBounds.bottom ≤ y))

/-- The byte of a row; `stride` is a whole number when the pixels are read. -/
def MonoRaster.byteAt (page : MonoRaster) (y byteX : ℕ) : UInt8 :=
  page.pixels.getD (y * ⌈page.stride⌉.toNat + byteX) 0

/-- The loops over rows, bytes and bits. -/
def MonoRaster.inkAllowed (page : MonoRaster) : Bool :=
  (List.range ⌈page.heightDots⌉.toNat).all fun y =>
    (List.range ⌈page.stride⌉.toNat).all fun byteX =>
      let value := page.byteAt y byteX
      value == 0 || (List.range 8).all fun bit =>
        !bitSet value bit || page.allows (byteX * 8 + bit) y

def validatePixels (page : MonoRaster) : MonoRasters Unit := do
  let length ← geometry page.toMonoRasterMetadata
  if (page.pixels.length : ℚ) ≠ length then invalidRaster
  else if page.inkAllowed then .ok () else invalidRaster

/-! ## The codec -/

/-- `ToUint32`: the whole part of a number modulo `2 ^ 32`. -/
def toUint32 (n : ℚ) : ℕ := ((if n < 0 then ⌈n⌉ else ⌊n⌋) % 2 ^ 32).toNat

def setUint32 (bytes : List UInt8) (offset : ℕ) (n : ℚ) : List UInt8 :=
  writeAt bytes offset (toLe 4 (toUint32 n))

def setFloat64 (bytes : List UInt8) (offset : ℕ) (x : Float64) : List UInt8 :=
  writeAt bytes offset (toLe 8 x.bits.toNat)

def getUint32 (bytes : List UInt8) (offset : ℕ) : ℚ := ofLe (readAt bytes offset 4)

def getFloat64 (bytes : List UInt8) (offset : ℕ) : Float64 :=
  ⟨UInt64.ofNat (ofLe (readAt bytes offset 8))⟩

/-- What is written once the page is checked. -/
def writeMonoRaster (page : MonoRaster) : List UInt8 :=
  let bytes := List.replicate (monoRasterHeaderBytes + page.pixels.length) 0
  let bytes := writeAt bytes 0 monoRasterMagic
  let bytes := setUint32 bytes 8 page.dpi
  let bytes := setUint32 bytes 12 page.widthDots
  let bytes := setUint32 bytes 16 page.heightDots
  let bytes := setUint32 bytes 20 page.stride
  let bytes := setFloat64 bytes 24 page.widthMm
  let bytes := setFloat64 bytes 32 page.heightMm
  let bytes := setUint32 bytes 40 page.pixels.length
  let bytes := setUint32 bytes 48 page.requiredBounds.left
  let bytes := setUint32 bytes 52 page.requiredBounds.top
  let bytes := setUint32 bytes 56 page.requiredBounds.right
  let bytes := setUint32 bytes 60 page.requiredBounds.bottom
  writeAt bytes monoRasterHeaderBytes page.pixels

/-- The entire header, including required quiet zones, is part of the saved digest. -/
def encodeMonoRaster (page : MonoRaster) : MonoRasters (List UInt8) := do
  validatePixels page
  return writeMonoRaster page

/-- The geometry a header repeats. -/
def readMetadata (bytes : List UInt8) : MonoRasterMetadata where
  format := monoRasterFormat
  dpi := getUint32 bytes 8
  widthDots := getUint32 bytes 12
  heightDots := getUint32 bytes 16
  stride := getUint32 bytes 20
  widthMm := getFloat64 bytes 24
  heightMm := getFloat64 bytes 32
  requiredBounds := ⟨getUint32 bytes 48, getUint32 bytes 52, getUint32 bytes 56, getUint32 bytes 60⟩

def decodeMonoRaster (bytes : List UInt8) : MonoRasters MonoRaster :=
  if bytes.length < monoRasterHeaderBytes ∨ monoRasterMaxBytes < bytes.length ∨
      ¬monoRasterMagic.isPrefixOf bytes then invalidRaster
  else if dpiOf (getUint32 bytes 8) = none ∨ getUint32 bytes 44 ≠ 0 then invalidRaster
  else do
    let metadata := readMetadata bytes
    let length ← geometry metadata
    if getUint32 bytes 40 ≠ length ∨ (bytes.length : ℚ) ≠ monoRasterHeaderBytes + length then
      invalidRaster
    else
      let page : MonoRaster := { metadata with pixels := bytes.drop monoRasterHeaderBytes }
      validatePixels page
      return page

end Markiro
