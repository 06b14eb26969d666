import Markiro.Domain.MonoRaster

/-!
# Composing a sheet

Bitmaps and the page they are pasted on (`labels/mono-compose.ts`). A page is a value: a call gives
the page it leaves, also when it throws.
-/

namespace Markiro

open Utf16

inductive SheetErrorCode where
  | labelSheetRaster | labelSheetBounds
  deriving DecidableEq

structure SheetError where
  code : SheetErrorCode
  message : Units
  deriving DecidableEq

abbrev Sheets := Except SheetError

structure MonoBitmap where
  width : ℚ
  height : ℚ
  stride : ℚ
  pixels : List UInt8
  deriving DecidableEq

/-- What a safe integer counts. -/
def wholeNumber (n : ℚ) : ℕ := ⌈n⌉.toNat

/-- The sizes are whole, within a page, and those of the pixels. -/
def MonoBitmap.SizesFit (b : MonoBitmap) : Prop :=
  (∀ n ∈ [b.width, b.height, b.stride], isSafeInteger n = true) ∧ 1 ≤ b.width ∧ 1 ≤ b.height ∧
    b.width ≤ 3508 ∧ b.height ≤ 3508 ∧ b.stride = ⌈b.width / 8⌉ ∧
    (b.pixels.length : ℚ) = b.stride * b.height ∧ b.pixels.length ≤ monoRasterMaxBytes

instance (b : MonoBitmap) : Decidable b.SizesFit := by
  unfold MonoBitmap.SizesFit
  infer_instance

/-- The unused bits of every row's last byte are zero. -/
def MonoBitmap.paddingBlank (b : MonoBitmap) : Bool :=
  let unused := (8 - wholeNumber b.width % 8) % 8
  unused == 0 || (List.range (wholeNumber b.height)).all fun y =>
    (b.pixels.getD ((y + 1) * wholeNumber b.stride - 1) 0).toNat &&& (1 <<< unused - 1) == 0

def validateMonoBitmap (b : MonoBitmap) : Sheets Unit :=
  if ¬b.SizesFit then .error ⟨.labelSheetRaster, encode "Invalid monochrome bitmap"⟩
  else if b.paddingBlank = false then .error ⟨.labelSheetRaster, encode "Nonzero row padding"⟩
  else .ok ()

def createSheetPage (widthMm heightMm : Float64) : Sheets MonoRaster :=
  let refuse : Sheets MonoRaster :=
    .error ⟨.labelSheetBounds, encode "Sheet raster exceeds supported dimensions"⟩
  match widthMm.finite, heightMm.finite with
  | some width, some height =>
    let widthDots := mmToDots width .dpi300
    let heightDots := mmToDots height .dpi300
    let stride : ℤ := ⌈(widthDots / 8 : ℚ)⌉
    if ¬(∀ v ∈ [widthDots, heightDots], 0 < v ∧ v ≤ 3508) ∨
        (monoRasterMaxBytes : ℤ) < stride * heightDots + monoRasterHeaderBytes then refuse
    else .ok {
      format := monoRasterFormat
      widthMm
      heightMm
      dpi := 300
      widthDots
      heightDots
      stride
      pixels := List.replicate (stride * heightDots).toNat 0
      requiredBounds := ⟨0, 0, 0, 0⟩ }
  | _, _ => refuse

def bitmapPixel (b : MonoBitmap) (x y : ℕ) : Bool :=
  bitSet (b.pixels.getD (y * wholeNumber b.stride + x / 8) 0) (x % 8)

/-- The bounds with a bitmap's rectangle; no right edge stands for no bounds yet. -/
def MonoRasterBounds.including (b : MonoRasterBounds) (left top right bottom : ℚ) :
    MonoRasterBounds :=
  if b.right = 0 then ⟨left, top, right, bottom⟩
  else ⟨min b.left left, min b.top top, max b.right right, max b.bottom bottom⟩

/-- `pixels[index] |= 0x80 >> bit`. -/
def blacken (pixels : List UInt8) (index bit : ℕ) : List UInt8 :=
  pixels.set index (pixels.getD index 0 ||| UInt8.ofNat (0x80 >>> bit))

/-- The loops over a bitmap's rows and columns. -/
def pastePixels (stride : ℕ) (pixels : List UInt8) (bitmap : MonoBitmap) (x y : ℕ) : List UInt8 :=
  (List.range (wholeNumber bitmap.height)).foldl (fun pixels row =>
    (List.range (wholeNumber bitmap.width)).foldl (fun pixels column =>
      if bitmapPixel bitmap column row then
        blacken pixels ((y + row) * stride + (x + column) / 8) ((x + column) % 8)
      else pixels) pixels) pixels

def pasteMonoBitmap (page : MonoRaster) (bitmap : MonoBitmap) (x y : ℚ) :
    Sheets Unit × MonoRaster :=
  match validateMonoBitmap bitmap with
  | .error e => (.error e, page)
  | .ok () =>
    if ¬(∀ n ∈ [x, y], isSafeInteger n = true) ∨ x < 0 ∨ y < 0 ∨
        page.widthDots < x + bitmap.width ∨ page.heightDots < y + bitmap.height then
      (.error ⟨.labelSheetBounds, encode "Bitmap exceeds the sheet"⟩, page)
    else (.ok (), { page with
      requiredBounds := page.requiredBounds.including x y (x + bitmap.width) (y + bitmap.height)
      pixels := pastePixels (wholeNumber page.stride) page.pixels bitmap (wholeNumber x)
        (wholeNumber y) })

end Markiro
