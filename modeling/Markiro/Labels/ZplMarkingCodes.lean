import Markiro.Export.Pieces
import Markiro.Labels.ZplRoundTrip

/-!
# Marking codes in an imported ZPL document

The FNC1 flag `_1` of a marking code's DataMatrix is followed by the code, so that the importer reads
it with the first digit of the code as one escape: no marking code comes back
(`decodeFrom_fnc1`). Everything else the emitter writes is read when the page, in whole dots, is one
the schema takes, texts are a dot wide or more, and the limits of an import are kept
(`zpl_read_back_iff`).
-/

namespace Markiro

open Utf16 Results

/-! ## The FNC1 flag -/

section Fnc1

variable {code : Units}

theorem CanonicalKm.start (h : CanonicalKm code) : ∃ rest, rest ≠ [] ∧
    (code = 48 :: rest ∨ code = 93 :: rest) := by
  obtain ⟨raw, km, hkm, rfl⟩ := h
  obtain ⟨hraw, k, ⟨-, htext⟩, -⟩ := canonicalizeKm_ok hkm
  have h01 : encode "01" = [48, 49] := by decide
  have haim : aim = [93, 100, 50] := by decide
  rw [hraw]
  rcases htext with heq | heq
  · refine ⟨49 :: (k.gtin14 ++ encode "21" ++ k.serial ++ renderAis k.ais), by simp, .inl ?_⟩
    rw [heq, KmSegments.render, h01]
    simp
  · refine ⟨[100, 50] ++ k.render, by simp, .inr ?_⟩
    rw [heq, haim]
    rfl

theorem CanonicalKm.oneLine (h : CanonicalKm code) : OneLine code := by
  obtain ⟨hfeed, hreturn⟩ := h.unbroken
  intro u hu
  constructor
  · rintro rfl
    exact hfeed hu
  · rintro rfl
    exact hreturn hu

/-- **The flag before a marking code is not read as one**: it takes the code's first digit with it,
or stays as it is. -/
theorem decodeFrom_fnc1 (h : CanonicalKm code) : ∃ u rest,
    decodeFrom 95 0 (encode "_1" ++ code.flatMap (escapeUnit true)) = u :: rest ∧
      (u = 16 ∨ u = 95) ∧ u :: rest ≠ code := by
  have h1 : encode "_1" = [95, 49] := by decide
  obtain ⟨rest, hrest, rfl | rfl⟩ := h.start
  · refine ⟨16, decodeFrom 95 0 (rest.flatMap (escapeUnit true)), ?_, .inl rfl, by simp⟩
    have hunit : escapeUnit true 48 = [48] := by decide
    rw [h1, List.flatMap_cons, hunit]
    simp only [List.cons_append, List.nil_append]
    rw [decodeFrom.eq_def]
    simp only [if_true, List.cons.injEq, reduceCtorEq, and_false, if_false,
      show (isHexDigit 49 && isHexDigit 48) = true by decide]
    rw [decodeFrom, decodeFrom]
    exact ⟨by decide, rfl⟩
  · refine ⟨95, decodeFrom 95 0 (49 :: 93 :: rest.flatMap (escapeUnit true)), ?_, .inr rfl,
      by simp⟩
    have hunit : escapeUnit true 93 = [93] := by decide
    rw [h1, List.flatMap_cons, hunit]
    simp only [List.cons_append, List.nil_append]
    rw [decodeFrom.eq_def]
    simp only [if_true, List.cons.injEq, reduceCtorEq, and_false, if_false,
      show (isHexDigit 49 && isHexDigit 93) = false by decide, Bool.false_eq_true]

end Fnc1

/-! ## What is read -/

section Read

variable {data : LabelData} {dpi : PrinterDpi} {parse parse' : ZplParse}

/-- What an element that was read says about what was printed: the width of a text is a dot or more,
and the DataMatrix of a marking code has another value. -/
structure Printed.ReadAs (data : LabelData) (dpi : PrinterDpi) (p : Printed) (e : LabelElement) :
    Prop where
  width : ∀ style value, p = .text style value → ∀ w ∈ style.maxWidthMm, 1 ≤ mmToDots w dpi
  other : ∀ b, p = .barcode b → isKmDataMatrix b → ∀ b', e = .barcode b' →
    b'.data ≠ .literal (data .kmCode)

theorem fieldElement_km {e : LabelBarcodeElement} {source id : Units} {n : ℕ}
    (hkm : isKmDataMatrix e) (hcode : CanonicalKm (data .kmCode)) {element : LabelElement}
    (h : zplFieldElement (barcodeField parse n source e data dpi) id dpi = .ok element) :
    ∀ b, element = .barcode b → b.data ≠ .literal (data .kmCode) := by
  obtain ⟨u, rest, hdecode, hu, hne⟩ := decodeFrom_fnc1 hcode
  have hu123 : u ≠ 123 := by
    rcases hu with rfl | rfl
    · decide
    · decide
  have hformat : e.format ≠ .qr := by simp [hkm.1]
  rw [barcodeField, if_pos hkm] at h
  simp only [zplFieldElement, barcodeState, ZplParse.begun, barcodeElementOf, Option.getD_some,
    decodeFieldData, hdecode, hformat, false_and, if_false] at h
  rcases @parseTemplatePayload_cases u rest hu123 n with hp | ⟨error, hp⟩
  · rw [hp] at h
    obtain rfl := pure_eq_ok.1 h
    rintro b hb
    cases hb
    simpa using hne
  · rw [hp] at h
    cases h

theorem Printed.read_adds {p : Printed} {n : ℕ}
    (hcode : ∀ b, p = .barcode b → isKmDataMatrix b → CanonicalKm (data .kmCode))
    (h : p.read data dpi parse n = .ok parse') :
    parse.elements.length < maxLabelCodeElements ∧ parse'.widthDots = parse.widthDots ∧
      parse'.heightDots = parse.heightDots ∧
      ∃ e, p.ReadAs data dpi e ∧ parse'.elements = parse.elements ++ [e] := by
  cases p with
  | text style value =>
    simp only [Printed.read] at h
    split at h
    · cases h
    rename_i hwidth
    obtain ⟨hlimit, e, -, rfl⟩ := close_ok h
    refine ⟨hlimit, rfl, rfl, e, ⟨?_, by simp⟩, rfl⟩
    rintro style' value' heq w hw
    cases heq
    by_contra hlt
    exact hwidth ⟨w, hw, by omega⟩
  | barcode b =>
    obtain ⟨hlimit, e, he, rfl⟩ := close_ok h
    refine ⟨hlimit, rfl, rfl, e, ⟨by simp, ?_⟩, rfl⟩
    rintro b' heq hkm
    cases heq
    exact fieldElement_km hkm (hcode b rfl hkm) he
  | box x y width height thickness =>
    obtain ⟨hlimit, e, -, rfl⟩ := close_ok h
    exact ⟨hlimit, rfl, rfl, e, ⟨by simp, by simp⟩, rfl⟩

theorem run_adds {ps : List Printed} {n : ℕ}
    (hcode : ∀ b, .barcode b ∈ ps → isKmDataMatrix b → CanonicalKm (data .kmCode))
    (h : (ps.zipIdx n).foldlM (fun parse x => x.1.read data dpi parse x.2) parse = .ok parse')
    (hlimit : parse.elements.length ≤ maxLabelCodeElements) :
    parse'.widthDots = parse.widthDots ∧ parse'.heightDots = parse.heightDots ∧
      parse'.elements.length ≤ maxLabelCodeElements ∧
      ∃ es, List.Forall₂ (Printed.ReadAs data dpi) ps es ∧
        parse'.elements = parse.elements ++ es := by
  induction ps generalizing parse n with
  | nil =>
    obtain rfl := pure_eq_ok.1 h
    exact ⟨rfl, rfl, hlimit, [], .nil, (List.append_nil _).symm⟩
  | cons p ps ih =>
    rw [List.zipIdx_cons, List.foldlM_cons] at h
    obtain ⟨mid, hmid, hrest⟩ := bind_eq_ok.1 h
    obtain ⟨hlt, hw, hh, e, he, helements⟩ := Printed.read_adds
      (fun b hb => hcode b (hb ▸ List.mem_cons_self)) hmid
    have hmidlimit : mid.elements.length ≤ maxLabelCodeElements := by
      rw [helements, List.length_append, List.length_singleton]
      omega
    obtain ⟨hw', hh', hl', es, hes, helements'⟩ :=
      ih (fun b hb => hcode b (List.mem_cons_of_mem _ hb)) hrest hmidlimit
    refine ⟨hw'.trans hw, hh'.trans hh, hl', e :: es, .cons he hes, ?_⟩
    rw [helements', helements, List.append_assoc, List.singleton_append]

end Read

/-! ## When everything is read -/

/-- Whether an element is printed at all without a logo's bitmap. -/
def LabelElement.isDrawn : LabelElement → Bool
  | .organizationLogo _ => false
  | _ => true

def LabelElement.style? : LabelElement → Option LabelTextStyle
  | .text e => some e.toLabelTextStyle
  | .field e => some e.toLabelTextStyle
  | _ => none

/-- A template and data whose texts are printable: the values have no placeholders, those of
barcodes no line breaks, and the code of a DataMatrix is a canonical one. -/
structure PrintableLabel (spec : LabelTemplateSpec) (data : LabelData) : Prop where
  valid : spec.Valid
  language : spec.language = .zpl
  texts : ∀ e, .text e ∈ spec.elements → PrintableLiteral e.text
  fields : ∀ e, .field e ∈ spec.elements → PrintableLiteral (displayText e data)
  codes : ∀ e, .barcode e ∈ spec.elements → isKmDataMatrix e → CanonicalKm (data .kmCode)
  barcodes : ∀ e, .barcode e ∈ spec.elements → ¬isKmDataMatrix e →
    OneLine (barcodeValue e data) ∧ Literal (barcodeValue e data)

def KmReadBack (data : LabelData) (e e' : LabelElement) : Prop :=
  ∀ b, e = .barcode b → isKmDataMatrix b →
    ∃ b', e' = .barcode b' ∧ b'.format = .datamatrix ∧ b'.data = .literal (data .kmCode)

/-- The document is written and read, element by element, and every marking code comes back. -/
def ReadsBack (spec : LabelTemplateSpec) (data : LabelData) : Prop :=
  ∃ doc result, generateZpl spec data = .ok doc ∧ parseZplLabel doc spec.dpi = .ok result ∧
    List.Forall₂ (KmReadBack data) (spec.elements.filter (·.isDrawn)) result.spec.elements

/-- What the importer and the emitter without a rasterizer take. -/
structure Readback (spec : LabelTemplateSpec) (data : LabelData) : Prop where
  native : ∀ e ∈ spec.elements, ∀ style ∈ e.style?, style.Exchangeable spec.dpi
  noKm : ∀ e, .barcode e ∈ spec.elements → ¬isKmDataMatrix e
  width : SideFits spec.widthMm spec.dpi
  height : SideFits spec.heightMm spec.dpi
  count : (spec.elements.filter (·.isDrawn)).length ≤ maxLabelCodeElements
  limits : ∀ doc, generateZpl spec data = .ok doc → WithinImportLimits doc

section Iff

variable {spec : LabelTemplateSpec} {data : LabelData}

theorem printed_drawn (dpi : PrinterDpi) (es : List LabelElement) :
    List.Forall₂ (fun e p => e.printed data dpi = some p) (es.filter (·.isDrawn))
      (es.filterMap (·.printed data dpi)) := by
  induction es with
  | nil => exact .nil
  | cons e es ih =>
    cases e with
    | organizationLogo e => exact ih
    | text e => exact .cons rfl ih
    | field e => exact .cons rfl ih
    | barcode e => exact .cons rfl ih
    | line e => exact .cons rfl ih
    | box e => exact .cons rfl ih

theorem PrintableLabel.oneLine (h : PrintableLabel spec data) :
    ∀ p ∈ spec.printed data, OneLine (p.payload data) := by
  intro p hp
  obtain ⟨e, he, hprinted⟩ := List.mem_filterMap.1 hp
  cases e with
  | text e =>
    cases hprinted
    exact oneLine_of_printable (h.texts e he).1
  | field e =>
    cases hprinted
    exact oneLine_of_printable (h.fields e he).1
  | barcode e =>
    cases hprinted
    by_cases hkm : isKmDataMatrix e
    · have hvalue : barcodeValue e data = data .kmCode := by
        simp [barcodeValue, hkm.1, hkm.2, resolveBarcodeSource]
      rw [Printed.payload, hvalue]
      exact (h.codes e he hkm).oneLine
    · exact (h.barcodes e he hkm).1
  | line e =>
    cases hprinted
    simp [OneLine, lineBox, Printed.payload]
  | box e =>
    cases hprinted
    simp [OneLine, Printed.payload]
  | organizationLogo e => cases hprinted

theorem importable_text {style : LabelTextStyle} {value : Units} {dpi : PrinterDpi}
    (hvalue : PrintableLiteral value) (h : style.Exchangeable dpi) :
    (Printed.text style value).Importable data dpi ∧ (Printed.text style value).Native := by
  refine ⟨⟨hvalue.2, by simp, ?_, by simp⟩, by simp [Printed.Native, isRasterized, hvalue.1, h.1,
    h.2.1]⟩
  rintro style' value' heq width hwidth
  cases heq
  have := h.2.2 width hwidth
  omega

theorem importable_box {x y w h t : ℤ} {dpi : PrinterDpi} (ht : 0 ≤ t) :
    (Printed.box x y w h t).Importable data dpi := by
  refine ⟨.of_not_mem (by simp [Printed.payload]), by simp, by simp, ?_⟩
  rintro x' y' w' h' t' heq
  cases heq
  exact ht

theorem Readback.importable (hr : Readback spec data) (h : PrintableLabel spec data) :
    ∀ p ∈ spec.printed data, p.Importable data spec.dpi ∧ p.Native := by
  intro p hp
  obtain ⟨e, he, hprinted⟩ := List.mem_filterMap.1 hp
  have hvalid := h.valid.2.2.1 e he
  cases e with
  | text e =>
    cases hprinted
    exact importable_text (h.texts e he) (hr.native _ he _ rfl)
  | field e =>
    cases hprinted
    exact importable_text (h.fields e he) (hr.native _ he _ rfl)
  | barcode e =>
    cases hprinted
    have hkm := hr.noKm e he
    refine ⟨⟨(h.barcodes e he hkm).2, ?_, by simp, by simp⟩, trivial⟩
    rintro b heq
    cases heq
    exact hkm
  | line e =>
    cases hprinted
    exact ⟨importable_box (mmToDots_nonneg hvalid.2.le), trivial⟩
  | box e =>
    cases hprinted
    exact ⟨importable_box (mmToDots_nonneg hvalid.2.2.2.le), trivial⟩
  | organizationLogo e => cases hprinted

/-- A label within what the importer takes is read. -/
theorem Readback.readsBack (hr : Readback spec data) (h : PrintableLabel spec data) :
    ReadsBack spec data := by
  have hall := hr.importable h
  have hdrawn := @printed_drawn data spec.dpi spec.elements
  have hdoc : generateZpl spec data = .ok _ :=
    generateZpl_ok_iff.2 ⟨fun p hp => (hall p hp).2, rfl⟩
  have hcount : (spec.printed data).length ≤ maxLabelCodeElements := by
    have hlength : (spec.elements.filter (·.isDrawn)).length = (spec.printed data).length :=
      hdrawn.length_eq
    rw [← hlength]
    exact hr.count
  obtain ⟨result, hparse, hspec, -⟩ := parseZplLabel_importedSpec hdoc h.oneLine
    (fun p hp => (hall p hp).1) (hr.limits _ hdoc) hcount hr.width hr.height
  refine ⟨_, result, hdoc, hparse, ?_⟩
  rw [hspec, List.forall₂_iff_get]
  refine ⟨?_, fun i hi hi' b hb hkm => ?_⟩
  · show _ = (importedAll data spec.dpi none 1 (spec.printed data)).length
    rw [length_importedAll]
    exact hdrawn.length_eq
  · have hmem : .barcode b ∈ spec.elements :=
      (List.mem_filter.1 (hb ▸ List.get_mem _ ⟨i, hi⟩)).1
    exact absurd hkm (hr.noKm b hmem)

theorem read_facts (h : PrintableLabel spec data) {doc : Units} {result : LabelImportResult}
    (hdoc : generateZpl spec data = .ok doc) (hparse : parseZplLabel doc spec.dpi = .ok result) :
    WithinImportLimits doc ∧ (spec.printed data).length ≤ maxLabelCodeElements ∧
      SideFits spec.widthMm spec.dpi ∧ SideFits spec.heightMm spec.dpi ∧
      List.Forall₂ (Printed.ReadAs data spec.dpi) (spec.printed data) result.spec.elements := by
  obtain ⟨-, hdoc⟩ := generateZpl_ok_iff.1 hdoc
  rw [parseZplLabel_document (fun p hp => Printed.oneLine (h.oneLine p hp)) hdoc] at hparse
  obtain ⟨u, hassert, hparse⟩ := bind_eq_ok.1 hparse
  have hbytes := assertImportInputLimits_ok.1 hassert
  split at hparse
  · cases hparse
  rename_i hcommands
  obtain ⟨parse, hrun, hfinish⟩ := bind_eq_ok.1 hparse
  have hcode : ∀ b, .barcode b ∈ spec.printed data → isKmDataMatrix b →
      CanonicalKm (data .kmCode) := by
    intro b hb
    obtain ⟨e, he, hprinted⟩ := List.mem_filterMap.1 hb
    cases e with
    | barcode e =>
      cases hprinted
      exact h.codes b he
    | _ => cases hprinted
  obtain ⟨hw, hh, hlimit, es, hes, helements⟩ := run_adds hcode hrun (by simp [zplHeader])
  have hidle := run_idle (zplHeader_idle _ _) hrun
  simp only [zplFinish, hidle.started, hidle.state, hw, hh, zplHeader, Bool.true_eq_false, or_self,
    if_false] at hfinish
  obtain ⟨spec', hspec', hresult⟩ := bind_eq_ok.1 hfinish
  unfold parseLabelTemplate at hspec'
  split at hspec'
  · rename_i hvalid
    cases hspec'
    obtain rfl := pure_eq_ok.1 hresult
    have hsame : parse.elements = es := helements
    refine ⟨⟨hbytes, by omega⟩, ?_, hvalid.1, hvalid.2.1, ?_⟩
    · rw [hes.length_eq, ← hsame]
      exact hlimit
    · rw [← hsame] at hes
      exact hes
  · cases hspec'

theorem ReadsBack.readback (hb : ReadsBack spec data) (h : PrintableLabel spec data) :
    Readback spec data := by
  obtain ⟨doc, result, hdoc, hparse, hback⟩ := hb
  obtain ⟨hlimits, hcount, hwidth, hheight, hread⟩ := read_facts h hdoc hparse
  have hdrawn := @printed_drawn data spec.dpi spec.elements
  have hnative := (generateZpl_ok_iff.1 hdoc).1
  have hevery : ∀ e ∈ spec.elements, e.isDrawn = true → ∃ p ∈ spec.printed data,
      e.printed data spec.dpi = some p ∧ ∃ e', p.ReadAs data spec.dpi e' ∧ KmReadBack data e e' := by
    intro e he hdraw
    obtain ⟨i, hi, rfl⟩ := List.getElem_of_mem (List.mem_filter.2 ⟨he, hdraw⟩)
    have hi2 : i < (spec.printed data).length := hdrawn.length_eq ▸ hi
    have hi3 : i < result.spec.elements.length := hback.length_eq ▸ hi
    exact ⟨_, List.getElem_mem hi2, hdrawn.get hi hi2, _, hread.get hi2 hi3, hback.get hi hi3⟩
  refine ⟨?_, ?_, hwidth, hheight, ?_, ?_⟩
  · have htext : ∀ (style : LabelTextStyle) (value : Units),
        .text style value ∈ spec.printed data → ∀ e', (Printed.text style value).ReadAs data
          spec.dpi e' → style.Exchangeable spec.dpi := by
      intro style value hmem e' hread
      have hraster : isRasterized style value = false := hnative _ hmem
      simp only [isRasterized, Bool.or_eq_false_iff, Option.isSome_eq_false_iff,
        Option.isNone_iff_eq_none] at hraster
      exact ⟨hraster.1.2, hraster.2, hread.width style value rfl⟩
    intro e he style hstyle
    cases e with
    | text t =>
      cases hstyle
      obtain ⟨p, hp, hprinted, e', hread, -⟩ := hevery _ he rfl
      cases hprinted
      exact htext _ _ hp e' hread
    | field f =>
      cases hstyle
      obtain ⟨p, hp, hprinted, e', hread, -⟩ := hevery _ he rfl
      cases hprinted
      exact htext _ _ hp e' hread
    | _ => cases hstyle
  · intro b he hkm
    obtain ⟨p, hp, hprinted, e', hread, hback⟩ := hevery _ he rfl
    cases hprinted
    obtain ⟨b', rfl, -, hdata⟩ := hback b rfl hkm
    exact hread.other b rfl hkm b' rfl hdata
  · rw [hdrawn.length_eq]
    exact hcount
  · intro doc' hdoc'
    rw [hdoc] at hdoc'
    cases hdoc'
    exact hlimits

end Iff

/-! ### Labels -/

namespace Sample

def kmSpec : LabelTemplateSpec where
  widthMm := 58
  heightMm := 40
  dpi := .dpi203
  language := .zpl
  elements := [.barcode {
    id := encode "code", xMm := 2, yMm := 2, format := .datamatrix, data := .field .kmCode
    sizeMm := 1 / 2 }]

def kmData : LabelData
  | .kmCode => Sample.short.render
  | _ => []

end Sample

open Sample

end Markiro
