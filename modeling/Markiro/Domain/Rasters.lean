import Markiro.Domain.MonoCompose
import Markiro.Domain.Tspl
import Markiro.Domain.Zpl

/-!
# Carriers of a bitmap

A monochrome bitmap as the payload of ZPL and TSPL (`labels/raster.ts`), read back into a bitmap to
compose (`labels/mono-compose.ts`) and drawn as the path of a preview (`labels/render-plan.ts`).
-/

namespace Markiro

open Utf16

/-! ## Packing -/

structure ZplHexPacking where
  hex : Units
  totalBytes : ℤ
  bytesPerRow : ℤ
  deriving DecidableEq

/-- Eight dots of a row, the first highest; a dot beyond the row is 0. -/
def bitmapByte (bitmap : List UInt8) (width y x : ℕ) : ℕ :=
  (List.range 8).foldl (fun byte bit =>
    if x * 8 + bit < width ∧ bitmap[y * width + (x * 8 + bit)]? = some 1 then
      byte ||| 1 <<< (7 - bit)
    else byte) 0

/-- `byte.toString(16).toUpperCase().padStart(2, "0")`. -/
def hexByteText (byte : ℕ) : Units := [hexDigit (byte / 16), hexDigit (byte % 16)]

def bitmapToZplHex (bitmap : List UInt8) (width height : ℕ) : ZplHexPacking :=
  let bytesPerRow := ⌈(width / 8 : ℚ)⌉.toNat
  { hex := (List.range height).flatMap fun y =>
      (List.range bytesPerRow).flatMap fun x => hexByteText (bitmapByte bitmap width y x)
    totalBytes := bytesPerRow * height
    bytesPerRow }

/-- The packing with the sizes its caller has. -/
def ZplHexPacking.raster (packing : ZplHexPacking) (width height : ℕ) : RasterResult :=
  { hex := packing.hex
    totalBytes := packing.totalBytes
    bytesPerRow := packing.bytesPerRow
    width
    height }

structure TsplBytesPacking where
  hexBytes : Units
  widthBytes : ℤ
  deriving DecidableEq

def bitmapToTsplBytes (bitmap : List UInt8) (width height : ℕ) : TsplBytesPacking :=
  let packing := bitmapToZplHex bitmap width height
  ⟨invertHexToTsplBytes packing.hex, packing.bytesPerRow⟩

/-! ## Reading -/

/-- `Number.parseInt(text, 16)`; `none` stands for `NaN`. -/
def parseHex (text : Units) : Option ℤ :=
  let (negative, s) := readSign (text.dropWhile isEcmaWhitespace)
  let s := if s.take 2 = [48, 120] ∨ s.take 2 = [48, 88] then s.drop 2 else s
  let digits := s.takeWhile isHexDigit
  if digits = [] then none
  else
    let n : ℕ := digits.foldl (fun n u => n * 16 + (hexValue u).getD 0) 0
    some (if negative then -n else n)

/-- `hex.slice(i * 2, i * 2 + 2)`, read. -/
def hexByteAt (hex : Units) (i : ℕ) : Option ℤ := parseHex ((hex.drop (i * 2)).take 2)

/-- The byte an array of bytes or a bitwise operation takes of a number; of `NaN` it is 0. -/
def lowByte (n : Option ℤ) : UInt8 := UInt8.ofNat ((n.getD 0) % 256).toNat

def bitmapFromText (raster : RasterResult) : Sheets MonoBitmap :=
  let size := raster.bytesPerRow * raster.height
  if isSafeInteger size = false ∨ (monoRasterMaxBytes : ℤ) < size ∨
      (raster.hex.length : ℤ) ≠ size * 2 ∨ raster.totalBytes ≠ size ∨
      ¬(raster.hex ≠ [] ∧ raster.hex.all isHexDigit = true) then
    .error ⟨.labelSheetRaster, encode "Invalid text raster"⟩
  else do
    let result : MonoBitmap := {
      width := raster.width
      height := raster.height
      stride := raster.bytesPerRow
      pixels := (List.range size.toNat).map fun i => lowByte (hexByteAt raster.hex i) }
    validateMonoBitmap result
    return result

/-! ## The path of a preview -/

def runLength (black : ℕ → Bool) : ℕ → ℕ → ℕ
  | _, 0 => 0
  | x, n + 1 => if black x then runLength black (x + 1) n + 1 else 0

/-- The loop over a row: the starts of its black runs with their lengths. -/
def rowRuns (black : ℕ → Bool) (width : ℕ) : ℕ → ℕ → List (ℕ × ℕ)
  | 0, _ => []
  | fuel + 1, x =>
    if width ≤ x then []
    else if black x = false then rowRuns black width fuel (x + 1)
    else
      let run := runLength black x (width - x)
      (x, run) :: rowRuns black width fuel (x + run)

def runText (y : ℕ) (run : ℕ × ℕ) : Units :=
  encode "M" ++ numberText run.1 ++ encode " " ++ numberText y ++ encode "h" ++
    numberText run.2 ++ encode "v1h-" ++ numberText run.2 ++ encode "z"

def rasterBlack (bytes : List (Option ℤ)) (bytesPerRow : ℤ) (x y : ℕ) : Bool :=
  let index := y * bytesPerRow + x / 8
  bitSet (lowByte (if index < 0 then none else bytes.getD index.toNat none)) (x % 8)

/-- Same padded, MSB-first pixels supplied to both print serializers. -/
def labelRasterSvgPath (raster : RasterResult) : Units :=
  let bytes := (List.range raster.totalBytes.toNat).map (hexByteAt raster.hex)
  (List.range raster.height.toNat).flatMap fun y =>
    (rowRuns (fun x => rasterBlack bytes raster.bytesPerRow x y) raster.width.toNat
      raster.width.toNat 0).flatMap (runText y)

end Markiro
