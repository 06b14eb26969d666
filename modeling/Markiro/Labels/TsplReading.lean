import Markiro.Labels.TsplIsolation

/-!
# What the importer makes of TSPL statements

The arguments of a statement come back trimmed (`splitTsplArguments_written`), and each printed
statement is read as one element (`tsplSourceLine_element`) or refused: a text that reads as an
alignment, and one of blanks, leave no argument for the text.
-/

namespace Markiro

open Utf16

/-! ## Arguments -/

/-- What an argument holds. -/
def TsplArg.value : TsplArg → Units
  | .word text => text
  | .string value => value

section Arguments

theorem splitArgumentsFrom_word {text : Units} (h : ∀ u ∈ text, u ≠ 44 ∧ u ≠ tsplQuote)
    (current rest : Units) :
    splitArgumentsFrom false current (text ++ rest) =
      splitArgumentsFrom false (current ++ text) rest := by
  induction text generalizing current with
  | nil => simp
  | cons u text ih =>
    obtain ⟨h44, hquote⟩ := h u List.mem_cons_self
    rw [List.cons_append, splitArgumentsFrom.eq_def]
    simp only [hquote, if_false, h44, false_and]
    rw [ih fun v hv => h v (List.mem_cons_of_mem _ hv)]
    simp

theorem splitArgumentsFrom_string (value current rest : Units)
    (hrest : rest.head? ≠ some tsplQuote) :
    splitArgumentsFrom true current (escapeTsplString value ++ tsplQuote :: rest) =
      splitArgumentsFrom false (current ++ value) rest := by
  induction value generalizing current with
  | nil =>
    rw [show escapeTsplString [] = [] from rfl, List.nil_append, List.append_nil,
      splitArgumentsFrom.eq_def]
    cases rest with
    | nil => simp [splitArgumentsFrom]
    | cons v rest =>
      have hv : v ≠ tsplQuote := by simpa using hrest
      simp [hv]
  | cons u value ih =>
    rw [escapeTsplString_cons]
    by_cases h : u = tsplQuote
    · rw [if_pos h, h]
      simp only [List.cons_append, List.nil_append]
      rw [splitArgumentsFrom.eq_def]
      simp [ih]
    · rw [if_neg h]
      simp only [List.cons_append, List.nil_append]
      rw [splitArgumentsFrom.eq_def]
      simp [h, ih]

theorem splitArgumentsFrom_written {a : TsplArg} (h : a.Clean) (rest : Units)
    (hrest : rest.head? ≠ some tsplQuote) :
    splitArgumentsFrom false [] (a.written ++ rest) = splitArgumentsFrom false a.value rest := by
  cases a with
  | word text => exact splitArgumentsFrom_word h [] rest
  | string value =>
    rw [TsplArg.written, List.cons_append, List.append_assoc, List.singleton_append,
      splitArgumentsFrom.eq_def]
    simp only [if_true]
    cases htail : escapeTsplString value ++ tsplQuote :: rest with
    | nil => simp at htail
    | cons v tail =>
      simp only [Bool.false_and, Bool.false_eq_true, if_false, Bool.not_false]
      rw [← htail, splitArgumentsFrom_string value [] rest hrest]
      rfl

/-- **The arguments of a statement come back trimmed.** -/
theorem splitTsplArguments_written {a : TsplArg} {args : List TsplArg}
    (h : ∀ b ∈ a :: args, b.Clean) (n : ℕ) :
    splitTsplArguments (joinWith [44] ((a :: args).map TsplArg.written)) n =
      .ok ((a :: args).map fun b => ecmaTrim b.value) := by
  have hsplit : splitArgumentsFrom false [] (joinWith [44] ((a :: args).map TsplArg.written)) =
      some ((a :: args).map fun b => ecmaTrim b.value) := by
    induction args generalizing a with
    | nil =>
      have := splitArgumentsFrom_written (h a List.mem_cons_self) [] (by simp)
      rw [List.append_nil] at this
      rw [List.map_singleton, join_singleton, this]
      rfl
    | cons b args ih =>
      have hrest := @ih b fun c hc => h c (List.mem_cons_of_mem _ hc)
      rw [List.map_cons, List.map_cons, join_cons_cons, ← List.map_cons,
        splitArgumentsFrom_written (h a List.mem_cons_self) _ (by simp [tsplQuote]),
        List.singleton_append, splitArgumentsFrom.eq_def]
      have hne : ¬(44 : UInt16) = tsplQuote := by decide
      simp only [hne, if_false, and_self, if_true]
      rw [hrest]
      rfl
  rw [splitTsplArguments, hsplit]

end Arguments

/-! ## Lines -/

section Lines

variable {dpi : PrinterDpi} {parse : TsplParse} {n : ℕ}

/-- What the importer can take apart: a command of letters, a first argument that begins with no
blank, a last one that ends with none, and nothing that ends a line. -/
structure TsplStatement.Readable (st : TsplStatement) : Prop where
  clean : st.Clean
  letters : st.1 ≠ [] ∧ st.1.all isLetter = true
  upper : asciiUpper st.1 = st.1
  first : ∀ a ∈ st.2.head?, ∃ u ∈ a.written.head?, isEcmaWhitespace u = false
  last : ∀ a ∈ st.2.getLast?, ∃ u ∈ a.written.getLast?, isEcmaWhitespace u = false
  terminators : st.written.any isLineTerminator = false

theorem letter_not_blank {u : UInt16} (h : isLetter u = true) : isEcmaWhitespace u = false := by
  have hbounds : 65 ≤ u.toNat ∧ u.toNat ≤ 122 := by
    simp only [isLetter, Bool.or_eq_true, Bool.and_eq_true, decide_eq_true_eq,
      UInt16.le_iff_toNat_le] at h
    have h65 : (65 : UInt16).toNat = 65 := rfl
    have h90 : (90 : UInt16).toNat = 90 := rfl
    have h97 : (97 : UInt16).toNat = 97 := rfl
    have h122 : (122 : UInt16).toNat = 122 := rfl
    omega
  simp only [isEcmaWhitespace, Bool.or_eq_false_iff, Bool.and_eq_false_iff, decide_eq_false_iff_not,
    beq_eq_false_iff_ne]
  omega

theorem getLast?_join {l : List Units} {s : Units} (hs : s ≠ []) (h : l.getLast? = some s) :
    (joinWith [44] l).getLast? = s.getLast? := by
  induction l with
  | nil => cases h
  | cons a l ih =>
    cases l with
    | nil =>
      cases h
      simp
    | cons b l =>
      rw [List.getLast?_cons_cons] at h
      have hne : joinWith [44] (b :: l) ≠ [] := by
        intro hnil
        have := ih h
        rw [hnil, List.getLast?_nil] at this
        exact hs (List.getLast?_eq_none_iff.1 this.symm)
      rw [join_cons_cons, List.getLast?_append_of_ne_nil _ (by simp),
        List.getLast?_append_of_ne_nil _ hne, ih h]

/-- **A line is read as its statement.** -/
theorem tsplSourceLine_written {name : Units} {a : TsplArg} {args : List TsplArg}
    (h : TsplStatement.Readable (name, a :: args)) :
    tsplSourceLine dpi parse (TsplStatement.written (name, a :: args), n) =
      tsplCommand dpi parse n (TsplStatement.written (name, a :: args)) name
        ((a :: args).map fun b => ecmaTrim b.value) := by
  obtain ⟨hne, hall⟩ := h.letters
  have hletter : ∀ u ∈ name, isLetter u = true := fun u hu => List.all_eq_true.1 hall u hu
  have htext : TsplStatement.written (name, a :: args) =
      name ++ 32 :: joinWith [44] ((a :: args).map TsplArg.written) :=
    TsplStatement.written_cons name a args
  obtain ⟨first, hfirst, hfirstblank⟩ := h.first a rfl
  have hjoin : ∃ tail, joinWith [44] ((a :: args).map TsplArg.written) = first :: tail := by
    cases hw : a.written with
    | nil => simp [hw] at hfirst
    | cons u w =>
      rw [hw] at hfirst
      obtain rfl : u = first := by simpa using hfirst
      cases args with
      | nil => exact ⟨w, by simp [hw]⟩
      | cons b args => exact ⟨_, by rw [List.map_cons, List.map_cons, join_cons_cons, hw]; rfl⟩
  obtain ⟨tail, htail⟩ := hjoin
  have htrim : ecmaTrim (TsplStatement.written (name, a :: args)) =
      TsplStatement.written (name, a :: args) := by
    refine trimBy_eq_self ⟨fun u hu => ?_, fun u hu => ?_⟩
    · rw [htext] at hu
      cases name with
      | nil => exact absurd rfl hne
      | cons c name =>
        obtain rfl : c = u := by simpa using hu
        exact letter_not_blank (hletter c List.mem_cons_self)
    · obtain ⟨b, hb⟩ : ∃ b, (a :: args).getLast? = some b :=
        Option.ne_none_iff_exists'.1 (by simp)
      obtain ⟨v, hv, hblank⟩ := h.last b hb
      have hbne : b.written ≠ [] := by
        intro hnil
        rw [hnil] at hv
        cases hv
      have hlast := @getLast?_join ((a :: args).map TsplArg.written) b.written hbne
        (by rw [List.getLast?_map, hb]; rfl)
      have hwhole : (name ++ 32 :: joinWith [44] ((a :: args).map TsplArg.written)).getLast? =
          b.written.getLast? := by
        rw [List.getLast?_append_of_ne_nil _ (by simp), List.getLast?_cons, hlast]
        cases hb2 : b.written.getLast? with
        | none => exact absurd (List.getLast?_eq_none_iff.1 hb2) hbne
        | some w => rfl
      rw [htext, hwhole] at hu
      rw [hu] at hv
      cases hv
      exact hblank
  have htake : (TsplStatement.written (name, a :: args)).takeWhile isLetter = name := by
    rw [htext, List.takeWhile_append_of_pos hletter]
    simp [isLetter]
  have hdrop : ((TsplStatement.written (name, a :: args)).dropWhile isLetter).dropWhile
      isEcmaWhitespace = joinWith [44] ((a :: args).map TsplArg.written) := by
    rw [htext, List.dropWhile_append_of_pos hletter, List.dropWhile_cons]
    simp only [show isLetter 32 = false by decide, Bool.false_eq_true, if_false,
      List.dropWhile_cons, show isEcmaWhitespace 32 = true by decide, if_true]
    rw [htail, List.dropWhile_cons, hfirstblank]
    rfl
  have hterminators : ((joinWith [44] ((a :: args).map TsplArg.written)).drop 1).any isLineTerminator =
      false := by
    have hterm := h.terminators
    rw [htext, List.any_append, List.any_cons, Bool.or_eq_false_iff, Bool.or_eq_false_iff] at hterm
    rw [List.any_eq_false]
    exact fun u hu => List.any_eq_false.1 hterm.2.2 u (List.mem_of_mem_drop hu)
  have hstatement : tsplStatement (TsplStatement.written (name, a :: args)) =
      some (name, joinWith [44] ((a :: args).map TsplArg.written)) := by
    unfold tsplStatement
    simp only [htake, hdrop, hterminators, hne, Bool.false_eq_true, or_self, if_false]
    rw [show asciiUpper name = name from h.upper]
  have hnonempty : TsplStatement.written (name, a :: args) ≠ [] := by
    rw [htext]
    simp
  unfold tsplSourceLine
  simp only [htrim, hnonempty, if_false, hstatement, splitTsplArguments_written h.clean.args]
  rfl

end Lines

/-! ## Elements -/

section Elements

variable {dpi : PrinterDpi} {values : List Units} {i n k : ℕ} {source : Units}

/-- The error of an argument that is not there. -/
def missingArgument {α : Type} (n : ℕ) (source : Units) : Labels α :=
  importFail n source (encode "missing TSPL argument")

theorem requiredArgument_ok {value : Units} (h : values[i]? = some value) (hv : value ≠ []) :
    requiredArgument values i n source = .ok value := by
  rw [requiredArgument, h]
  simp [hv]

theorem requiredArgument_tail (value : Units) :
    requiredArgument (value :: values) (i + 1) n source = requiredArgument values i n source := rfl

theorem requiredArgument_head {value : Units} : requiredArgument (value :: values) 0 n source =
    if value ≠ [] then .ok value else missingArgument n source := by
  by_cases hv : value = []
  · simp [requiredArgument, missingArgument, hv]
  · simp [requiredArgument, hv]

theorem numberAt_tail (value : Units) :
    numberAt (value :: values) (i + 1) n source = numberAt values i n source := rfl

theorem numberAt_numberText {q : ℚ} (hq : decimals q ≠ none) :
    numberAt (numberText q :: values) 0 n source = .ok q := by
  rw [numberAt, requiredArgument_ok rfl (numberText_units hq).1]
  simp only [Results.ok_bind, numberOf_numberText hq]

theorem numberAt_dots (z : ℤ) : numberAt (numberText z :: values) 0 n source = .ok (z : ℚ) :=
  numberAt_numberText (by simp)

theorem numberAt_zero : numberAt (encode "0" :: values) 0 n source = .ok 0 := by
  have hzero : encode "0" = numberText ((0 : ℤ) : ℚ) := by decide
  rw [hzero]
  exact_mod_cast numberAt_dots 0

def tsplStyle (k : ℕ) (x y : ℤ) (size : ℚ) (dpi : PrinterDpi) : LabelTextStyle where
  id := importedElementId .tspl k
  xMm := dotsToMm x dpi
  yMm := dotsToMm y dpi
  fontSizePt := size

/-- A text is refused when it is empty or reads as an alignment. -/
def TextTaken (value : Units) : Prop :=
  value ≠ [] ∧ value ∉ [encode "1", encode "2", encode "3"]

instance (value : Units) : Decidable (TextTaken value) := inferInstanceAs (Decidable (_ ∧ _))

theorem tsplAlignment_isSome {value : Units} :
    (tsplAlignment (some value)).isSome = true ↔ value ∈ [encode "1", encode "2", encode "3"] := by
  unfold tsplAlignment
  simp only [Option.some.injEq, List.mem_cons, List.not_mem_nil, or_false]
  split
  · rename_i h
    simp [h]
  split
  · rename_i h
    simp [h]
  split
  · rename_i h
    simp [h]
  · rename_i h1 h2 h3
    simp [h1, h2, h3]

theorem parseText_eq (x y : ℤ) {size : ℚ} (hsize : decimals size ≠ none) (h4 : 4 ≤ size)
    (h72 : size ≤ 72) {value : Units} (hliteral : Literal value)
    (hvalues : values = [numberText x, numberText y, encode "0", encode "0", numberText size,
      numberText size, value]) :
    parseText values n source dpi k =
      if TextTaken value then
        .ok (.text { toLabelTextStyle := tsplStyle k x y size dpi, text := value })
      else missingArgument n source := by
  subst hvalues
  have hfont : encode "0" ≠ [] := by decide
  have hpositive : ¬size ≤ 0 := by linarith
  have hclamp : max 4 (min 72 size) = size := by rw [min_eq_right h72, max_eq_right h4]
  have hpayload : [numberText x, numberText y, encode "0", encode "0", numberText size,
    numberText size, value][6]? = some value := rfl
  simp only [parseText, numberAt_tail, requiredArgument_tail, requiredArgument_head, numberAt_dots,
    numberAt_zero, numberAt_numberText hsize, bind, Except.bind, hfont, ne_eq, not_true_eq_false,
    not_false_eq_true, if_true, if_false, hpositive, hpayload, hclamp]
  by_cases halign : value ∈ [encode "1", encode "2", encode "3"]
  · have htaken : ¬TextTaken value := fun h => h.2 halign
    simp only [tsplAlignment_isSome.2 halign, if_true, requiredArgument_tail, htaken, if_false]
    rfl
  · have hnone : tsplAlignment (some value) = none := by
      simpa using mt tsplAlignment_isSome.1 halign
    simp only [hnone, Option.isSome_none, Bool.false_eq_true, if_false, requiredArgument_tail,
      requiredArgument_head, TextTaken, halign, not_false_eq_true, and_true]
    by_cases hempty : value = []
    · simp only [hempty, ne_eq, not_true_eq_false, if_false]
      rfl
    · simp only [hempty, ne_eq, not_false_eq_true, if_true, parseTemplatePayload_literal hliteral]
      rfl

/-- What a `BARCODE` other than of an SSCC is read as. -/
theorem parseBarcode_eq (x y size narrow : ℤ) {type : Units} {format : BarcodeFormat}
    (htype : asciiUpper type = type) (hformat : tsplBarcodeFormat type = some format)
    (hne : type ≠ []) (hean : type ≠ encode "EAN128") {value : Units} (hliteral : Literal value)
    (hvalues : values = [numberText x, numberText y, type, numberText size, encode "0", encode "0",
      numberText narrow, numberText narrow, value]) :
    parseBarcode values n source dpi k =
      if value ≠ [] then .ok (.barcode {
        id := importedElementId .tspl k
        xMm := dotsToMm x dpi
        yMm := dotsToMm y dpi
        format := format
        data := .literal value
        sizeMm := max (1 / 10) (dotsToMm size dpi) })
      else missingArgument n source := by
  subst hvalues
  simp only [parseBarcode, numberAt_tail, requiredArgument_tail, requiredArgument_head,
    numberAt_dots, numberAt_zero, bind, Except.bind, ne_eq, hne, htype, hformat, hean,
    not_true_eq_false, not_false_eq_true, if_true, if_false]
  by_cases hempty : value = []
  · simp only [hempty, not_true_eq_false, if_false]
    rfl
  · simp only [hempty, not_false_eq_true, if_true, parseTemplatePayload_literal hliteral]
    rfl

theorem parseBarcode_sscc (x y size narrow : ℤ) {sscc : Units} (hsscc : isValidSscc sscc = true)
    (hvalues : values = [numberText x, numberText y, encode "EAN128", numberText size, encode "0",
      encode "0", numberText narrow, numberText narrow, encode "00" ++ sscc]) :
    parseBarcode values n source dpi k = .ok (.barcode {
      id := importedElementId .tspl k
      xMm := dotsToMm x dpi
      yMm := dotsToMm y dpi
      format := .code128
      data := .field .sscc
      sizeMm := max (1 / 10) (dotsToMm size dpi) }) := by
  subst hvalues
  have h00 : encode "00" = [48, 48] := by decide
  have hread : encode "EAN128" ≠ [] := by decide
  have hupper : asciiUpper (encode "EAN128") = encode "EAN128" := by decide
  have hformat : tsplBarcodeFormat (encode "EAN128") = some .code128 := by decide
  have hpayload : encode "00" ++ sscc ≠ [] := by simp [h00]
  have hdata : ean128Data (encode "00" ++ sscc) n source = .ok (.field .sscc) := by
    unfold ean128Data
    split
    · rfl
    · rw [if_pos]
      refine ⟨List.isPrefixOf_iff_prefix.2 (List.prefix_append _ _), ?_⟩
      rw [h00]
      exact hsscc
  simp only [parseBarcode, numberAt_tail, requiredArgument_tail, requiredArgument_head,
    numberAt_dots, numberAt_zero, bind, Except.bind, ne_eq, hread, hupper, hformat, hpayload,
    not_true_eq_false, not_false_eq_true, if_true, if_false, hdata]
  rfl

def tsplMatrix (k : ℕ) (x y size : ℤ) (format : BarcodeFormat) (value : Units) (dpi : PrinterDpi) :
    LabelElement :=
  .barcode {
    id := importedElementId .tspl k
    xMm := dotsToMm x dpi
    yMm := dotsToMm y dpi
    format := format
    data := .literal value
    sizeMm := max (1 / 10) (dotsToMm size dpi) }

theorem parseDmatrix_eq (x y size : ℤ) {value : Units} (hliteral : Literal value)
    (hvalues : values = [numberText x, numberText y, numberText size, numberText size, value]) :
    parseDmatrix values n source dpi k =
      if value ≠ [] then .ok (tsplMatrix k x y size .datamatrix value dpi)
      else missingArgument n source := by
  subst hvalues
  simp only [parseDmatrix, numberAt_tail, requiredArgument_tail, requiredArgument_head,
    numberAt_dots, bind, Except.bind, ne_eq]
  by_cases hempty : value = []
  · simp only [hempty, not_true_eq_false, if_false]
    rfl
  · simp only [hempty, not_false_eq_true, if_true, matrixElement, bind, Except.bind,
      parseTemplatePayload_literal hliteral]
    rfl

theorem parseQrcode_eq (x y size : ℤ) {value : Units} (hliteral : Literal value)
    (hvalues : values = [numberText x, numberText y, encode "M", numberText size, encode "A",
      encode "0", value]) :
    parseQrcode values n source dpi k =
      if value ≠ [] then .ok (tsplMatrix k x y size .qr value dpi)
      else missingArgument n source := by
  subst hvalues
  simp only [parseQrcode, numberAt_tail, requiredArgument_tail, requiredArgument_head,
    numberAt_dots, numberAt_zero, bind, Except.bind, ne_eq, not_true_eq_false, if_false]
  by_cases hempty : value = []
  · simp only [hempty, not_true_eq_false, if_false]
    rfl
  · simp only [hempty, not_false_eq_true, if_true, matrixElement, bind, Except.bind,
      parseTemplatePayload_literal hliteral]
    rfl

/-- A bar as it is imported: a line along its longer side. -/
def tsplLine (k : ℕ) (x y width height : ℤ) (dpi : PrinterDpi) : LabelLineElement :=
  let xMm := dotsToMm x dpi
  let yMm := dotsToMm y dpi
  let widthMm := dotsToMm width dpi
  let heightMm := dotsToMm height dpi
  let id := importedElementId .tspl k
  if heightMm ≤ widthMm then ⟨id, xMm, yMm, xMm + widthMm, yMm, min widthMm heightMm⟩
  else ⟨id, xMm, yMm, xMm, yMm + heightMm, min widthMm heightMm⟩

theorem parseBar_eq {x y width height : ℤ} (hw : 0 < width) (hh : 0 < height)
    (hvalues : values = [numberText x, numberText y, numberText width, numberText height]) :
    parseBar values n source dpi k = .ok (.line (tsplLine k x y width height dpi)) := by
  subst hvalues
  have hwpos : ¬dotsToMm (width : ℚ) dpi ≤ 0 := not_le.2 (dotsToMm_pos (by exact_mod_cast hw))
  have hhpos : ¬dotsToMm (height : ℚ) dpi ≤ 0 := not_le.2 (dotsToMm_pos (by exact_mod_cast hh))
  simp only [parseBar, numberAt_tail, numberAt_dots, bind, Except.bind, hwpos, hhpos, or_self,
    if_false]
  rfl

theorem parseBox_eq {x y width height thickness : ℤ} (hw : 0 < width) (hh : 0 < height)
    (hvalues : values = [numberText x, numberText y, numberText (x + width : ℤ),
      numberText (y + height : ℤ), numberText thickness]) :
    parseBox values n source dpi k = .ok (.box ⟨importedElementId .tspl k, dotsToMm x dpi,
      dotsToMm y dpi, dotsToMm width dpi, dotsToMm height dpi,
      max (1 / 10) (dotsToMm thickness dpi)⟩) := by
  subst hvalues
  have hsub : ∀ a b : ℤ, dotsToMm ((a + b : ℤ) : ℚ) dpi - dotsToMm (a : ℚ) dpi =
      dotsToMm (b : ℚ) dpi := by
    intro a b
    rw [dotsToMm, dotsToMm, dotsToMm]
    push_cast
    ring
  have hwpos : ¬dotsToMm (width : ℚ) dpi ≤ 0 := not_le.2 (dotsToMm_pos (by exact_mod_cast hw))
  have hhpos : ¬dotsToMm (height : ℚ) dpi ≤ 0 := not_le.2 (dotsToMm_pos (by exact_mod_cast hh))
  simp only [parseBox, numberAt_tail, numberAt_dots, bind, Except.bind, hsub, hwpos, hhpos,
    or_self, if_false]
  rfl

end Elements

end Markiro
