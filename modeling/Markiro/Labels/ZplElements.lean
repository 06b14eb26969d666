import Markiro.Labels.ZplDocument

/-!
# The elements of an imported ZPL document

What the importer makes of each printed element (`importedPrinted`), when the value has no
placeholder in it, and of all of them in turn (`run_importedAll`). The elements it makes pass the
schema (`importedPrinted_valid`).
-/

namespace Markiro

open Utf16

/-! ## Payloads -/

section Payloads

theorem escapeSpecials_append (s t : Units) :
    escapeSpecials (s ++ t) = escapeSpecials s ++ escapeSpecials t := List.flatMap_append

theorem escapeSpecials_plain {s : Units} (h : s.any isSpecial = false) : escapeSpecials s = s := by
  induction s with
  | nil => rfl
  | cons u s ih =>
    rw [List.any_cons, Bool.or_eq_false_iff] at h
    rw [escapeSpecials, List.flatMap_cons, h.1]
    simp only [Bool.false_eq_true, if_false, List.singleton_append, List.cons.injEq, true_and]
    exact ih h.2

/-- **The data of a field is read as what was written.** -/
theorem decodeFieldData_withData {st : ZplState} {lead value : Units} (hst : st.hexIndicator = none)
    (hlead : lead.any isSpecial = false) :
    decodeFieldData ((st.withData lead value).data.getD []) (st.withData lead value).hexIndicator =
      lead ++ value := by
  unfold ZplState.withData
  split
  · show decodeFrom 95 0 (lead ++ escapeSpecials value) = lead ++ value
    rw [← escapeSpecials_plain hlead, ← escapeSpecials_append, escapeSpecials_eq,
      decodeFrom_escaped, escapeSpecials_plain hlead]
  · show decodeFieldData (lead ++ value) st.hexIndicator = lead ++ value
    rw [hst]
    rfl

end Payloads

/-! ## Elements -/

def importedStyle (style : LabelTextStyle) (dpi : PrinterDpi) (id : Units) : LabelTextStyle where
  id := id
  xMm := dotsToMm (mmToDots style.xMm dpi) dpi
  yMm := dotsToMm (mmToDots style.yMm dpi) dpi
  fontSizePt := pointsFromDots (ptToDots style.fontSizePt dpi) dpi
  maxWidthMm := style.maxWidthMm.map fun width => dotsToMm (mmToDots width dpi) dpi
  maxLines := style.maxWidthMm.bind fun _ => blockLines (style.maxLines.getD 1)
  align := style.maxWidthMm.map fun _ => style.align.getD .left

def importedPrinted (data : LabelData) (dpi : PrinterDpi) (modal : Option ℚ) (id : Units) :
    Printed → LabelElement
  | .text style value => .text { toLabelTextStyle := importedStyle style dpi id, text := value }
  | .barcode e => .barcode {
      id := id
      xMm := dotsToMm (mmToDots e.xMm dpi) dpi
      yMm := dotsToMm (mmToDots e.yMm dpi) dpi
      format := e.format
      data := .literal (barcodeValue e data)
      sizeMm := max (1 / 10) (dotsToMm (barcodeDots e dpi) dpi)
      moduleWidthMm := if e.format = .code128 ∨ e.format = .ean13 then
        modal.map (dotsToMm · dpi) else none }
  | .box x y width height thickness =>
    graphicElement id (dotsToMm x dpi) (dotsToMm y dpi) width height thickness dpi

/-- The narrow bar in force after an element. -/
def Printed.modal (dpi : PrinterDpi) (modal : Option ℚ) : Printed → Option ℚ
  | .barcode e => (barDots e dpi).orElse fun _ => modal
  | _ => modal

/-- The value of a printed element, with what the format puts before it. -/
def Printed.payload (data : LabelData) : Printed → Units
  | .text _ value => value
  | .barcode e => barcodeValue e data
  | .box _ _ _ _ _ => []

/-- What the importer takes: no placeholder, no marking code's DataMatrix, a width of a dot and a
border that is a size. -/
structure Printed.Importable (data : LabelData) (dpi : PrinterDpi) (p : Printed) : Prop where
  literal : Literal (p.payload data)
  notKm : ∀ e, p = .barcode e → ¬isKmDataMatrix e
  width : ∀ style value, p = .text style value → ∀ w ∈ style.maxWidthMm, 0 < mmToDots w dpi
  border : ∀ x y w h t, p = .box x y w h t → 0 ≤ t

section Elements

variable {data : LabelData} {dpi : PrinterDpi} {parse : ZplParse}

theorem fieldElement_text {style : LabelTextStyle} {value source id : Units} {n : ℕ}
    (h : Literal value) :
    zplFieldElement ((textState parse n source style dpi).withData [] value) id dpi =
      .ok (.text { toLabelTextStyle := importedStyle style dpi id, text := value }) := by
  have hdecode := @decodeFieldData_withData (textState parse n source style dpi) [] value rfl rfl
  rw [List.nil_append] at hdecode
  have hfields : ((textState parse n source style dpi).withData [] value).graphic = none ∧
      ((textState parse n source style dpi).withData [] value).barcode = none := by
    unfold ZplState.withData
    split
    · exact ⟨rfl, rfl⟩
    · exact ⟨rfl, rfl⟩
  rw [zplFieldElement, hfields.1]
  simp only [hfields.2]
  rw [textElementOf, hdecode, parseTemplatePayload_literal h]
  unfold ZplState.withData importedStyle
  split
  · cases hw : style.maxWidthMm with
    | none => simp [textState, ZplParse.begun, hw]; rfl
    | some w => simp [textState, ZplParse.begun, hw]; rfl
  · cases hw : style.maxWidthMm with
    | none => simp [textState, ZplParse.begun, hw]; rfl
    | some w => simp [textState, ZplParse.begun, hw]; rfl

theorem payload_barcode (format : BarcodeFormat) (value : Units) :
    (if format = .qr ∧ (encode "QA,").isPrefixOf
          ((if format = .qr then encode "QA," else []) ++ value) = true then
        ((if format = .qr then encode "QA," else []) ++ value).drop 3
      else (if format = .qr then encode "QA," else []) ++ value) = value := by
  have hQA : encode "QA," = [81, 65, 44] := by decide
  by_cases h : format = .qr
  · simp [h, hQA]
  · simp [h]

theorem fieldElement_decoded {st : ZplState} {format : BarcodeFormat} {size : ℚ} {value id : Units}
    (hgraphic : st.graphic = none) (hbarcode : st.barcode = some (format, size))
    (hdecode : decodeFieldData (st.data.getD []) st.hexIndicator =
      (if format = .qr then encode "QA," else []) ++ value) (h : Literal value) :
    zplFieldElement st id dpi = .ok (.barcode {
      id := id
      xMm := dotsToMm st.xDots dpi
      yMm := dotsToMm st.yDots dpi
      format := format
      data := .literal value
      sizeMm := max (1 / 10) (dotsToMm size dpi)
      moduleWidthMm := if format = .code128 ∨ format = .ean13 then
        st.moduleWidthDots.map (dotsToMm · dpi) else none }) := by
  rw [zplFieldElement, hgraphic]
  simp only [hbarcode]
  rw [barcodeElementOf, hdecode, payload_barcode, parseTemplatePayload_literal h]
  rfl

theorem fieldElement_barcode {e : LabelBarcodeElement} {source id : Units} {n : ℕ}
    (hkm : ¬isKmDataMatrix e) (h : Literal (barcodeValue e data)) :
    zplFieldElement (barcodeField parse n source e data dpi) id dpi =
      .ok (importedPrinted data dpi ((Printed.barcode e).modal dpi parse.moduleWidthDots) id
        (.barcode e)) := by
  have hlead : (if e.format = .qr then encode "QA," else []).any isSpecial = false := by
    split
    · decide
    · rfl
  have hdecode := @decodeFieldData_withData (barcodeState parse n source e dpi)
    (if e.format = .qr then encode "QA," else []) (barcodeValue e data) rfl hlead
  rw [barcodeField, if_neg hkm]
  unfold ZplState.withData at hdecode ⊢
  by_cases hs : (barcodeValue e data).any isSpecial = true
  · rw [if_pos hs] at hdecode ⊢
    exact fieldElement_decoded rfl rfl hdecode h
  · rw [if_neg hs] at hdecode ⊢
    exact fieldElement_decoded rfl rfl hdecode h

/-- **An element is read as what `importedPrinted` says**, while there are fewer than a thousand. -/
theorem Printed.read_ok {p : Printed} {n : ℕ} (h : p.Importable data dpi)
    (hlimit : parse.elements.length < maxLabelCodeElements) :
    ∃ parse', p.read data dpi parse n = .ok parse' ∧
      parse'.elements = parse.elements ++ [importedPrinted data dpi
        (p.modal dpi parse.moduleWidthDots)
        (importedElementId .zpl (parse.elements.length + 1)) p] ∧
      parse'.moduleWidthDots = p.modal dpi parse.moduleWidthDots ∧
      parse'.warnings = parse.warnings ∧ parse'.widthDots = parse.widthDots ∧
      parse'.heightDots = parse.heightDots := by
  have hnot : ¬maxLabelCodeElements < parse.elements.length + 1 := by omega
  cases p with
  | text style value =>
    have hwidth : ¬∃ w ∈ style.maxWidthMm, mmToDots w dpi ≤ 0 := by
      rintro ⟨w, hw, hle⟩
      have := h.width style value rfl w hw
      omega
    let source := zplText ((Printed.text style value).tokens data dpi)
    refine ⟨parse.added ((textState parse n source style dpi).withData [] value) _, ?_, rfl, rfl,
      rfl, rfl, rfl⟩
    simp only [Printed.read, hwidth, if_false, ZplParse.close, hnot]
    have hliteral : Literal value := h.literal
    rw [fieldElement_text hliteral]
    rfl
  | barcode e =>
    let source := zplText ((Printed.barcode e).tokens data dpi)
    refine ⟨(parse.barred e dpi).added (barcodeField parse n source e data dpi) _, ?_, rfl, rfl,
      rfl, rfl, rfl⟩
    simp only [Printed.read, ZplParse.close, ZplParse.barred, hnot, if_false]
    rw [fieldElement_barcode (h.notKm e rfl) h.literal]
    rfl
  | box x y width height thickness =>
    let source := zplText ((Printed.box x y width height thickness).tokens data dpi)
    refine ⟨parse.added { parse.begun n source x y with
      graphic := some ((width : ℚ), (height : ℚ), (thickness : ℚ)) } _, ?_, rfl, rfl, rfl, rfl, rfl⟩
    simp only [Printed.read, ZplParse.close, hnot, if_false]
    rfl

def importedAll (data : LabelData) (dpi : PrinterDpi) : Option ℚ → ℕ → List Printed →
    List LabelElement
  | _, _, [] => []
  | modal, k, p :: ps =>
    importedPrinted data dpi (p.modal dpi modal) (importedElementId .zpl k) p ::
      importedAll data dpi (p.modal dpi modal) (k + 1) ps

theorem length_importedAll (modal : Option ℚ) (k : ℕ) (ps : List Printed) :
    (importedAll data dpi modal k ps).length = ps.length := by
  induction ps generalizing modal k with
  | nil => rfl
  | cons p ps ih => rw [importedAll, List.length_cons, List.length_cons, ih]

/-- **The elements of a document are imported in turn.** -/
theorem run_importedAll {ps : List Printed} (n : ℕ) (h : ∀ p ∈ ps, p.Importable data dpi)
    (hlimit : parse.elements.length + ps.length ≤ maxLabelCodeElements) :
    ∃ parse', (ps.zipIdx n).foldlM (fun parse x => x.1.read data dpi parse x.2) parse = .ok parse' ∧
      parse'.elements = parse.elements ++
        importedAll data dpi parse.moduleWidthDots (parse.elements.length + 1) ps ∧
      parse'.warnings = parse.warnings ∧ parse'.widthDots = parse.widthDots ∧
      parse'.heightDots = parse.heightDots := by
  induction ps generalizing parse n with
  | nil => exact ⟨parse, rfl, (List.append_nil _).symm, rfl, rfl, rfl⟩
  | cons p ps ih =>
    rw [List.length_cons] at hlimit
    obtain ⟨mid, hmid, helements, hmodal, hwarn, hwidth, hheight⟩ :=
      @Printed.read_ok data dpi parse p n (h p List.mem_cons_self) (by omega)
    have hlength : mid.elements.length = parse.elements.length + 1 := by
      rw [helements, List.length_append, List.length_singleton]
    obtain ⟨last, hlast, h1, h2, h3, h4⟩ := @ih mid (n + 1)
      (fun q hq => h q (List.mem_cons_of_mem _ hq)) (by omega)
    refine ⟨last, ?_, ?_, h2.trans hwarn, h3.trans hwidth, h4.trans hheight⟩
    · rw [List.zipIdx_cons, foldlM_ok hmid]
      exact hlast
    · rw [h1, hlength, helements, hmodal, List.append_assoc, List.singleton_append, importedAll]

end Elements

/-! ## The schema -/

section Schema

variable {data : LabelData} {dpi : PrinterDpi}

theorem importedPrinted_id (modal : Option ℚ) (id : Units) (p : Printed) :
    (importedPrinted data dpi modal id p).id = id := by
  cases p with
  | text style value => rfl
  | barcode e => rfl
  | box x y width height thickness =>
    simp only [importedPrinted, graphicElement]
    split
    · rfl
    · rfl

theorem ids_importedAll (modal : Option ℚ) (k : ℕ) (ps : List Printed) :
    (importedAll data dpi modal k ps).map (·.id) =
      (List.range' k ps.length).map (importedElementId .zpl) := by
  induction ps generalizing modal k with
  | nil => rfl
  | cons p ps ih =>
    rw [importedAll, List.map_cons, ih, importedPrinted_id, List.length_cons, List.range'_succ,
      List.map_cons]

theorem nodup_importedAll (modal : Option ℚ) (k : ℕ) (ps : List Printed) :
    ((importedAll data dpi modal k ps).map (·.id)).Nodup := by
  rw [ids_importedAll]
  exact List.Pairwise.map _ (fun a b hne heq => hne (importedElementId_injective .zpl heq))
    List.nodup_range'

theorem modal_pos {modal : Option ℚ} (h : ∀ m ∈ modal, 0 < m) (p : Printed) :
    ∀ m ∈ p.modal dpi modal, 0 < m := by
  intro m hm
  cases p with
  | text style value => exact h m hm
  | box x y width height thickness => exact h m hm
  | barcode e =>
    simp only [Printed.modal] at hm
    cases hbar : barDots e dpi with
    | none =>
      rw [hbar] at hm
      exact h m hm
    | some b =>
      rw [hbar] at hm
      obtain rfl : b = m := by simpa using hm
      rw [barDots] at hbar
      split at hbar
      · obtain ⟨w, -, rfl⟩ := Option.map_eq_some_iff.1 hbar
        have : (0 : ℤ) < max 1 (min 10 (mmToDots w dpi)) := by omega
        exact_mod_cast this
      · cases hbar

/-- **An imported element passes the schema.** -/
theorem importedPrinted_valid {modal : Option ℚ} {id : Units} {p : Printed}
    (h : p.Importable data dpi) (hmodal : ∀ m ∈ modal, 0 < m) (hid : id ≠ []) :
    (importedPrinted data dpi modal id p).Valid := by
  cases p with
  | text style value =>
    refine ⟨hid, ⟨le_max_left _ _, max_le (by norm_num) (min_le_left _ _)⟩, by simp [importedStyle],
      by simp [importedStyle], ?_, ?_⟩
    · intro w hw
      obtain ⟨width, hwidth, rfl⟩ := Option.map_eq_some_iff.1 hw
      refine dotsToMm_pos ?_
      exact_mod_cast h.width style value rfl width hwidth
    · intro n hn
      obtain ⟨width, -, hlines⟩ := Option.bind_eq_some_iff.1 hn
      rw [blockLines] at hlines
      split at hlines
      · cases hlines
        omega
      · cases hlines
  | barcode e =>
    refine ⟨hid, lt_of_lt_of_le (by norm_num) (le_max_left _ _), ?_⟩
    intro w hw
    simp only at hw
    split at hw
    · obtain ⟨m, hm, rfl⟩ := Option.map_eq_some_iff.1 hw
      exact dotsToMm_pos (hmodal m hm)
    · cases hw
  | box x y width height thickness =>
    have hborder : (0 : ℚ) ≤ thickness := by
      exact_mod_cast h.border x y width height thickness rfl
    have htenth : (0 : ℚ) < max (1 / 10) (dotsToMm thickness dpi) :=
      lt_of_lt_of_le (by norm_num) (le_max_left _ _)
    simp only [importedPrinted, graphicElement]
    split
    · exact ⟨hid, htenth⟩
    · rename_i hwide
      rw [not_or, not_le, not_le] at hwide
      exact ⟨hid, dotsToMm_pos (by linarith), dotsToMm_pos (by linarith), htenth⟩

theorem importedAll_valid {modal : Option ℚ} {k : ℕ} {ps : List Printed}
    (h : ∀ p ∈ ps, p.Importable data dpi) (hmodal : ∀ m ∈ modal, 0 < m) :
    ∀ e ∈ importedAll data dpi modal k ps, e.Valid := by
  induction ps generalizing modal k with
  | nil => simp [importedAll]
  | cons p ps ih =>
    intro e he
    rcases List.mem_cons.1 he with rfl | he
    · exact importedPrinted_valid (h p List.mem_cons_self) (modal_pos hmodal p)
        (importedElementId_ne_nil .zpl k)
    · exact ih (fun q hq => h q (List.mem_cons_of_mem _ hq)) (modal_pos hmodal p) e he

end Schema

/-! ## Units of a line -/

section Units

/-- Every unit is one of the value's or no blank and no control character. -/
def Within (value s : Units) : Prop := ∀ u ∈ s, u ∈ value ∨ 32 < u

variable {value s t : Units}

theorem Within.append (hs : Within value s) (ht : Within value t) : Within value (s ++ t) := by
  intro u hu
  rcases List.mem_append.1 hu with hu | hu
  · exact hs u hu
  · exact ht u hu

theorem Within.cons {u : UInt16} (hu : 32 < u) (hs : Within value s) : Within value (u :: s) := by
  intro v hv
  rcases List.mem_cons.1 hv with rfl | hv
  · exact .inr hu
  · exact hs v hv

theorem Within.self : Within value value := fun _ hu => .inl hu

theorem Within.const (h : s.all (fun u => decide (32 < u)) = true) : Within value s := fun u hu =>
  .inr (by simpa using List.all_eq_true.1 h u hu)

theorem within_numberText (n : ℤ) : Within value (numberText n) := by
  have hunit : ∀ u, isNumberUnit u = true → 32 < u := by
    intro u hu
    by_contra hle
    have : ∀ k ≤ 32, isNumberUnit (UInt16.ofNat k) = false := by decide
    have hk := this u.toNat (UInt16.le_iff_toNat_le.1 (UInt16.not_lt.1 hle))
    rw [UInt16.ofNat_toNat, hu] at hk
    cases hk
  exact fun u hu => .inr (hunit u ((numberText_intCast_units n).2 u hu))

theorem within_pair (x y : ℤ) : Within value (pair x y) :=
  .append (within_numberText x) (.cons (by decide) (within_numberText y))

theorem within_escaped (gs : Bool) (value : Units) :
    Within value (value.flatMap (escapeUnit gs)) := by
  intro u hu
  obtain ⟨v, hv, huv⟩ := List.mem_flatMap.1 hu
  have hunit : Within value (escapeUnit gs v) := by
    unfold escapeUnit
    split
    · rename_i h
      rcases isSpecial_cases h with rfl | rfl | rfl
      · exact .const (by decide)
      · exact .const (by decide)
      · exact .const (by decide)
    · split
      · exact .const (by decide)
      · intro w hw
        rw [List.mem_singleton.1 hw]
        exact .inl hv
  exact hunit u huv

theorem within_zplText {tokens : List ZplToken} (hread : ∀ t ∈ tokens, Readable t)
    (h : ∀ t ∈ tokens, Within value t.2) : Within value (zplText tokens) := by
  have hnames : ∀ name ∈ supportedZplNames, name.text.all (fun u => decide (32 < u)) = true := by
    decide
  intro u hu
  obtain ⟨t, ht, hut⟩ := List.mem_flatMap.1 hu
  have hname := hnames _ (mem_supported (hread t ht).1)
  exact (Within.cons (by decide) (.append (.const hname) (h t ht))) u hut

end Units

end Markiro
