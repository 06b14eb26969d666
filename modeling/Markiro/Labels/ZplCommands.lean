import Markiro.Domain.Zpl
import Markiro.Lib.Segments
import Markiro.Labels.Dots

/-!
# The commands of a ZPL document

What the emitter writes of an element is a sequence of commands (`renderZplTextLikeElement_native`,
`renderZplBarcodeElement_eq`, `buildZplBox_eq`), in whose arguments neither `^` nor `~` stands: values
are escaped, and everything else is numbers.
-/

namespace Markiro

open Utf16

/-! ## Texts of commands -/

/-- The text of a command. -/
def ZplToken.written (token : ZplToken) : Units := 94 :: (token.1.text ++ token.2)

/-- The text of a sequence of commands. -/
def zplText (tokens : List ZplToken) : Units := tokens.flatMap ZplToken.written

@[simp] theorem zplText_nil : zplText [] = [] := rfl

@[simp] theorem zplText_cons (token : ZplToken) (tokens : List ZplToken) :
    zplText (token :: tokens) = 94 :: (token.1.text ++ token.2) ++ zplText tokens := rfl

@[simp] theorem zplText_append (a b : List ZplToken) : zplText (a ++ b) = zplText a ++ zplText b :=
  List.flatMap_append

/-- Two numbers with a comma between them. -/
def pair (x y : ℤ) : Units := numberText x ++ 44 :: numberText y

/-- The data of a field and its end; `lead` is what the format puts before the value. -/
def dataTokens (lead value : Units) : List ZplToken :=
  (if value.any isSpecial then [(.FH, [95]), (.FD, lead ++ escapeSpecials value)]
    else [(.FD, lead ++ value)]) ++ [(.FS, [])]

def blockTokens (element : LabelTextStyle) (dpi : PrinterDpi) : List ZplToken :=
  match element.maxWidthMm with
  | some width => [(.FB, numberText (mmToDots width dpi) ++ 44 ::
      (numberText (element.maxLines.getD 1 : ℕ) ++ encode ",0," ++
        alignToJustification element.align ++ encode ",0"))]
  | none => []

/-- The commands of a native text. -/
def textTokens (element : LabelTextStyle) (text : Units) (dpi : PrinterDpi) : List ZplToken :=
  (.FO, pair (mmToDots element.xMm dpi) (mmToDots element.yMm dpi)) ::
    (.A0, encode "N," ++ pair (ptToDots element.fontSizePt dpi) (ptToDots element.fontSizePt dpi)) ::
    (blockTokens element dpi ++ dataTokens [] text)

def barWidthTokens (element : LabelBarcodeElement) (dpi : PrinterDpi) : List ZplToken :=
  match element.moduleWidthMm with
  | some width => [(.BY, numberText (max 1 (min 10 (mmToDots width dpi)) : ℤ))]
  | none => []

def isKmDataMatrix (element : LabelBarcodeElement) : Prop :=
  element.format = .datamatrix ∧ element.data = .field .kmCode

instance (element : LabelBarcodeElement) : Decidable (isKmDataMatrix element) :=
  inferInstanceAs (Decidable (_ ∧ _))

def barcodeValue (element : LabelBarcodeElement) (data : LabelData) : Units :=
  if element.format = .code128 ∧ element.data = .field .sscc then encode ">;>800" ++ data .sscc
  else (resolveBarcodeSource element.data data).1

/-- The commands of a barcode. -/
def barcodeTokens (element : LabelBarcodeElement) (data : LabelData) (dpi : PrinterDpi) :
    List ZplToken :=
  let size := mmToDots element.sizeMm dpi
  (.FO, pair (mmToDots element.xMm dpi) (mmToDots element.yMm dpi)) ::
    match element.format with
    | .code128 => barWidthTokens element dpi ++
        (.BC, encode "N," ++ numberText size ++ encode ",N,N,N") ::
        dataTokens [] (barcodeValue element data)
    | .ean13 => barWidthTokens element dpi ++ (.BE, encode "N," ++ numberText size) ::
        dataTokens [] (barcodeValue element data)
    | .datamatrix => (.BX, encode "N," ++ numberText size ++ encode ",200,,,,_") ::
        if isKmDataMatrix element then
          [(.FH, [95]), (.FD, encode "_1" ++
            replaceAll GS (encode "_1D") (escapeSpecials (data .kmCode))), (.FS, [])]
        else dataTokens [] (barcodeValue element data)
    | .qr => (.BQ, encode "N,2," ++ numberText (max 1 (min 10 size) : ℤ)) ::
        dataTokens (encode "QA,") (barcodeValue element data)

/-- The commands of a box. -/
def boxTokens (x y width height thickness : ℤ) : List ZplToken :=
  [(.FO, pair x y), (.GB, numberText width ++ 44 :: pair height thickness), (.FS, [])]

section Written

theorem encode_comma : encode "," = [44] := by decide

theorem encode_FO : encode "^FO" = 94 :: ZplName.FO.text := by decide

theorem encode_FS : encode "^FS" = 94 :: ZplName.FS.text := by decide

theorem encode_FD : encode "^FD" = 94 :: ZplName.FD.text := by decide

theorem encode_FH : encode "^FH_" = 94 :: (ZplName.FH.text ++ [95]) := by decide

theorem fieldOrigin_eq (x y : ℤ) : fieldOrigin x y = zplText [(.FO, pair x y)] := by
  simp [fieldOrigin, pair, encode_FO, encode_comma]

theorem escapeFdData_eq (lead value : Units) :
    (escapeFdData value).1 ++ (encode "^FD" ++ (lead ++ ((escapeFdData value).2 ++ encode "^FS"))) =
      zplText (dataTokens lead value) := by
  by_cases h : value.any isSpecial = true
  · simp [escapeFdData, dataTokens, h, encode_FD, encode_FS, encode_FH]
  · simp [escapeFdData, dataTokens, h, encode_FD, encode_FS]

theorem zplFieldBlock_eq (element : LabelTextStyle) (dpi : PrinterDpi) :
    zplFieldBlock element dpi = zplText (blockTokens element dpi) := by
  have hFB : encode "^FB" = 94 :: ZplName.FB.text := by decide
  cases h : element.maxWidthMm with
  | none => simp [zplFieldBlock, blockTokens, h]
  | some width => simp [zplFieldBlock, blockTokens, h, hFB, encode_comma]

theorem renderZplTextLikeElement_native {element : LabelTextStyle} {text : Units} {dpi : PrinterDpi}
    {deps : EmitDeps} (h : isRasterized element text = false) :
    renderZplTextLikeElement element text dpi deps = .ok (zplText (textTokens element text dpi)) := by
  have hA0 : encode "^A0N," = 94 :: (ZplName.A0.text ++ encode "N,") := by decide
  have hdata := escapeFdData_eq [] text
  rw [List.nil_append] at hdata
  unfold renderZplTextLikeElement
  simp only [h, Bool.false_eq_true, if_false, List.append_assoc, hdata, zplFieldBlock_eq,
    fieldOrigin_eq, hA0, encode_comma, textTokens, pair, zplText_cons, zplText_append, zplText_nil]
  simp

theorem barWidthCommand_eq (element : LabelBarcodeElement) (dpi : PrinterDpi) :
    barWidthCommand element dpi = zplText (barWidthTokens element dpi) := by
  have hBY : encode "^BY" = 94 :: ZplName.BY.text := by decide
  cases h : element.moduleWidthMm with
  | none => simp [barWidthCommand, barWidthTokens, h]
  | some width => simp [barWidthCommand, barWidthTokens, h, hBY]

theorem renderZplBarcodeElement_eq (element : LabelBarcodeElement) (data : LabelData)
    (dpi : PrinterDpi) :
    renderZplBarcodeElement element data dpi = zplText (barcodeTokens element data dpi) := by
  have hBC : encode "^BCN," = 94 :: (ZplName.BC.text ++ encode "N,") := by decide
  have hBE : encode "^BEN," = 94 :: (ZplName.BE.text ++ encode "N,") := by decide
  have hBX : encode "^BXN," = 94 :: (ZplName.BX.text ++ encode "N,") := by decide
  have hBQ : encode "^BQN,2," = 94 :: (ZplName.BQ.text ++ encode "N,2,") := by decide
  have hQA : encode "^FDQA," = encode "^FD" ++ encode "QA," := by decide
  have htail : encode "^FH_^FD_1" = 94 :: (ZplName.FH.text ++ 95 :: 94 :: (ZplName.FD.text ++
    encode "_1")) := by decide
  unfold renderZplBarcodeElement barcodeTokens
  cases hformat : element.format with
  | code128 =>
    have hvalue : (if (resolveBarcodeSource element.data data).2 = some .sscc then
        encode ">;>800" ++ (resolveBarcodeSource element.data data).1
        else (resolveBarcodeSource element.data data).1) = barcodeValue element data := by
      cases hdata : element.data with
      | literal text => simp [barcodeValue, hformat, hdata, resolveBarcodeSource]
      | field f =>
        by_cases hf : f = .sscc
        · simp [barcodeValue, hformat, hdata, resolveBarcodeSource, hf]
        · simp [barcodeValue, hformat, hdata, resolveBarcodeSource, hf]
    have hdata := escapeFdData_eq [] (barcodeValue element data)
    rw [List.nil_append] at hdata
    simp only [hvalue, List.append_assoc, hdata, barWidthCommand_eq, fieldOrigin_eq, hBC,
      zplText_cons, zplText_append, zplText_nil]
    simp
  | ean13 =>
    have hvalue : (resolveBarcodeSource element.data data).1 = barcodeValue element data := by
      simp [barcodeValue, hformat]
    have hdata := escapeFdData_eq [] (barcodeValue element data)
    rw [List.nil_append] at hdata
    simp only [hvalue, List.append_assoc, hdata, barWidthCommand_eq, fieldOrigin_eq, hBE,
      zplText_cons, zplText_append, zplText_nil]
    simp
  | datamatrix =>
    have hvalue : (resolveBarcodeSource element.data data).1 = barcodeValue element data := by
      simp [barcodeValue, hformat]
    have hdata := escapeFdData_eq [] (barcodeValue element data)
    rw [List.nil_append] at hdata
    by_cases hkm : element.data = .field .kmCode
    · have hfield : (resolveBarcodeSource element.data data).2 = some .kmCode := by
        rw [hkm]
        rfl
      have hcode : (resolveBarcodeSource element.data data).1 = data .kmCode := by
        rw [hkm]
        rfl
      have his : isKmDataMatrix element := ⟨hformat, hkm⟩
      simp only [hfield, if_true, hcode, his, renderGs1DataMatrixTail, fieldOrigin_eq, hBX, htail,
        encode_FS, zplText_cons, zplText_nil]
      simp
    · have hfield : (resolveBarcodeSource element.data data).2 ≠ some .kmCode := by
        cases hd : element.data with
        | literal text => simp [resolveBarcodeSource]
        | field f =>
          intro hf
          rw [resolveBarcodeSource, Option.some.injEq] at hf
          exact hkm (by rw [hd, hf])
      have hnot : ¬isKmDataMatrix element := fun h => hkm h.2
      simp only [hfield, if_false, hnot, hvalue, List.append_assoc, hdata, fieldOrigin_eq, hBX,
        zplText_cons, zplText_nil]
      simp
  | qr =>
    have hvalue : (resolveBarcodeSource element.data data).1 = barcodeValue element data := by
      simp [barcodeValue, hformat]
    have hdata := escapeFdData_eq (encode "QA,") (barcodeValue element data)
    simp only [hvalue, List.append_assoc, hQA, hdata, fieldOrigin_eq, hBQ, zplText_cons,
      zplText_nil]
    simp

theorem buildZplBox_eq (x y width height thickness : ℤ) :
    buildZplBox x y width height thickness = zplText (boxTokens x y width height thickness) := by
  have hGB : encode "^GB" = 94 :: ZplName.GB.text := by decide
  simp [buildZplBox, boxTokens, fieldOrigin_eq, hGB, encode_FS, encode_comma, pair]

end Written

/-! ## Escaping -/

section Escaping

/-- Neither `^` nor `~`. -/
def Plain (s : Units) : Prop := ∀ u ∈ s, u ≠ 94 ∧ u ≠ 126

theorem Plain.nil : Plain [] := by simp [Plain]

theorem Plain.append {s t : Units} (hs : Plain s) (ht : Plain t) : Plain (s ++ t) := by
  intro u hu
  rcases List.mem_append.1 hu with hu | hu
  · exact hs u hu
  · exact ht u hu

theorem Plain.cons {u : UInt16} {s : Units} (hu : u ≠ 94 ∧ u ≠ 126) (hs : Plain s) :
    Plain (u :: s) := by
  intro v hv
  rcases List.mem_cons.1 hv with rfl | hv
  · exact hu
  · exact hs v hv

theorem plain_numberText (n : ℤ) : Plain (numberText n) := by
  intro u hu
  constructor
  · rintro rfl
    exact not_mem_numberText (by decide) n hu
  · rintro rfl
    exact not_mem_numberText (by decide) n hu

theorem plain_pair (x y : ℤ) : Plain (pair x y) :=
  .append (plain_numberText x) (.cons (by decide) (plain_numberText y))

/-- What stands for a unit in escaped data; a separator is escaped in a marking code only. -/
def escapeUnit (gs : Bool) (u : UInt16) : Units :=
  if isSpecial u then hexEscapeByte u else if gs && u == GS then encode "_1D" else [u]

theorem escapeSpecials_eq (s : Units) : escapeSpecials s = s.flatMap (escapeUnit false) := by
  rw [escapeSpecials]
  congr 1

theorem isSpecial_cases {u : UInt16} (h : isSpecial u = true) : u = 94 ∨ u = 126 ∨ u = 95 := by
  simpa [isSpecial, or_assoc] using h

theorem replaceAll_escapeSpecials (s : Units) :
    replaceAll GS (encode "_1D") (escapeSpecials s) = s.flatMap (escapeUnit true) := by
  rw [escapeSpecials, replaceAll, List.flatMap_assoc]
  congr 1
  funext u
  by_cases h : isSpecial u = true
  · rcases isSpecial_cases h with rfl | rfl | rfl
    · decide
    · decide
    · decide
  · by_cases hg : u = GS
    · have hs : isSpecial GS = false := by decide
      simp [escapeUnit, hs, hg]
    · simp [escapeUnit, h, hg]

theorem plain_escapeUnit (gs : Bool) (u : UInt16) : Plain (escapeUnit gs u) := by
  unfold escapeUnit
  split
  · rename_i h
    rcases isSpecial_cases h with rfl | rfl | rfl
    · unfold Plain; decide
    · unfold Plain; decide
    · unfold Plain; decide
  · rename_i h
    split
    · unfold Plain; decide
    · intro v hv
      rw [List.mem_singleton.1 hv]
      constructor
      · rintro rfl
        exact h (by decide)
      · rintro rfl
        exact h (by decide)

theorem plain_escaped (gs : Bool) (s : Units) : Plain (s.flatMap (escapeUnit gs)) := by
  intro u hu
  obtain ⟨v, -, hv⟩ := List.mem_flatMap.1 hu
  exact plain_escapeUnit gs v u hv

theorem plain_of_not_special {s : Units} (h : s.any isSpecial = false) : Plain s := by
  intro u hu
  have hs : isSpecial u = false := by
    simpa using List.any_eq_false.1 h u hu
  constructor
  · rintro rfl
    exact absurd hs (by decide)
  · rintro rfl
    exact absurd hs (by decide)

/-- **An escaped unit is read as the unit.** -/
theorem decodeFrom_escapeUnit (gs : Bool) (u : UInt16) (rest : Units) :
    decodeFrom 95 0 (escapeUnit gs u ++ rest) = u :: decodeFrom 95 0 rest := by
  have hhex : ∀ a b, isHexDigit a = true → isHexDigit b = true →
      decodeFrom 95 0 (95 :: a :: b :: rest) =
        UInt16.ofNat ((hexValue a).getD 0 * 16 + (hexValue b).getD 0) :: decodeFrom 95 0 rest := by
    intro a b ha hb
    rw [decodeFrom.eq_def]
    simp only [if_true, List.cons.injEq, reduceCtorEq, and_false, if_false, ha, hb, Bool.and_true,
      true_and]
    rw [decodeFrom, decodeFrom]
  unfold escapeUnit
  split
  · rename_i h
    rcases isSpecial_cases h with rfl | rfl | rfl
    · exact hhex 53 69 (by decide) (by decide)
    · exact hhex 55 69 (by decide) (by decide)
    · exact hhex 53 70 (by decide) (by decide)
  · rename_i h
    split
    · rename_i hg
      have hu : u = GS := by
        rw [Bool.and_eq_true, beq_iff_eq] at hg
        exact hg.2
      have h1D : encode "_1D" = [95, 49, 68] := by decide
      rw [hu, h1D]
      exact hhex 49 68 (by decide) (by decide)
    · have hne : u ≠ 95 := by
        rintro rfl
        exact h (by decide)
      rw [List.singleton_append, decodeFrom.eq_def]
      simp only [hne, if_false]

theorem decodeFrom_escaped (gs : Bool) (s : Units) :
    decodeFrom 95 0 (s.flatMap (escapeUnit gs)) = s := by
  induction s with
  | nil => rfl
  | cons u s ih => rw [List.flatMap_cons, decodeFrom_escapeUnit, ih]

end Escaping

end Markiro
