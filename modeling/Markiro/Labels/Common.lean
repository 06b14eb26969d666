import Markiro.Lib.Results
import Markiro.Lib.Segments
import Markiro.Labels.Dots

/-!
# What both printer languages print

The text of an element, whether it is rasterized, the lines of a document and the values an importer
takes as they are.
-/

namespace Markiro

open Utf16

/-! ## Texts -/

def displayText (element : LabelFieldElement) (data : LabelData) : Units :=
  (labelFieldDisplayValue element.field data element.textFormat).toOption.getD []

theorem labelFieldDisplayValue_eq (element : LabelFieldElement) (data : LabelData) :
    labelFieldDisplayValue element.field data element.textFormat =
      .ok (displayText element data) := by
  have hok : ∃ text, labelFieldDisplayValue element.field data element.textFormat = .ok text := by
    unfold labelFieldDisplayValue
    simp only
    split
    · split
      · exact ⟨_, rfl⟩
      · exact ⟨_, rfl⟩
    split
    · exact ⟨_, rfl⟩
    split
    · rename_i hsscc
      split
      · exact ⟨_, rfl⟩
      split
      · exact ⟨_, rfl⟩
      · have hlength : (data element.field).length ≠ 20 := by
          have := (isDigits_iff.1 hsscc.2).1
          omega
        refine ⟨encode "(00)" ++ data element.field, ?_⟩
        simp [formatSsccHri, hlength, hsscc.2]
    split
    · exact ⟨_, rfl⟩
    · exact ⟨_, rfl⟩
  obtain ⟨text, htext⟩ := hok
  rw [displayText, htext]
  rfl

def rasterChoice (deps : EmitDeps) (dpi : PrinterDpi) (data : LabelData) :
    LabelElement → Option (Labels RasterResult)
  | .text e => if isRasterized e.toLabelTextStyle e.text then
      some (rasterOf deps e.toLabelTextStyle e.text dpi) else none
  | .field e => if isRasterized e.toLabelTextStyle (displayText e data) then
      some (rasterOf deps e.toLabelTextStyle (displayText e data) dpi) else none
  | .barcode e => (kmRasterOf deps e).map fun rasterize =>
      rasterize (data .kmCode) (mmToDots e.sizeMm dpi)
  | _ => none

/-- Whether a barcode has bars. -/
def LabelBarcodeElement.Linear (e : LabelBarcodeElement) : Prop :=
  e.format = .code128 ∨ e.format = .ean13

instance (e : LabelBarcodeElement) : Decidable e.Linear := inferInstanceAs (Decidable (_ ∨ _))

/-! ## Lines -/

/-- No line ends inside. -/
def OneLine (s : Units) : Prop := ∀ u ∈ s, u ≠ 10 ∧ u ≠ 13

theorem join_eq_flatMap {lines : List Units} (h : lines ≠ []) :
    joinWith [lineFeed] lines ++ [lineFeed] = lines.flatMap (· ++ [lineFeed]) := by
  induction lines with
  | nil => exact absurd rfl h
  | cons a lines ih =>
    cases lines with
    | nil => simp [joinWith]
    | cons b lines =>
      have hjoin : joinWith [lineFeed] (a :: b :: lines) =
          a ++ [lineFeed] ++ joinWith [lineFeed] (b :: lines) := by
        simp [joinWith]
      rw [hjoin, List.append_assoc, ih (by simp)]
      rfl

/-- **The lines of a text that was joined from lines.** -/
theorem splitLines_join {lines : List Units} (hne : lines ≠ []) (h : ∀ l ∈ lines, OneLine l) :
    splitLines (joinWith [lineFeed] lines ++ [lineFeed]) = lines ++ [[]] := by
  have hsplit := @Segments.splitOnP_ended UInt16 Units (· == lineFeed) lineFeed id lines (by decide)
    (fun l hl u hu => by
      rw [beq_eq_false_iff_ne]
      exact (h l hl u hu).1)
  have hlines : (lines.map fun s => if s.getLast? = some 13 then s.dropLast else s) = lines := by
    conv_rhs => rw [← List.map_id lines]
    refine List.map_congr_left fun l hl => ?_
    rw [if_neg, id]
    intro hlast
    exact (h l hl 13 (List.mem_of_getLast? hlast)).2 rfl
  rw [splitLines, List.splitOn_eq_splitOnP, join_eq_flatMap hne]
  simp only [id, List.map_id] at hsplit
  rw [hsplit, List.dropLast_concat, hlines, List.getLast?_concat]
  rfl

theorem OneLine.append {s t : Units} (hs : OneLine s) (ht : OneLine t) : OneLine (s ++ t) := by
  intro u hu
  rcases List.mem_append.1 hu with hu | hu
  · exact hs u hu
  · exact ht u hu

theorem oneLine_numberText (z : ℤ) : OneLine (numberText z) := fun u hu =>
  ⟨fun h => not_mem_numberText (by decide) z (h ▸ hu), fun h => not_mem_numberText (by decide) z (h ▸ hu)⟩

/-! ## Values -/

section Values

theorem hasDouble_append {u : UInt16} {s t : Units} (hs : u ∉ s) :
    hasDouble u (s ++ t) = hasDouble u t := by
  induction s with
  | nil => rfl
  | cons a s ih =>
    have ha : a ≠ u := fun h => hs (h ▸ List.mem_cons_self)
    have hrest := ih fun h => hs (List.mem_cons_of_mem _ h)
    cases hst : s ++ t with
    | nil =>
      rw [hst] at hrest
      rw [List.cons_append, hst, ← hrest]
      rfl
    | cons b rest =>
      rw [hst] at hrest
      rw [List.cons_append, hst, hasDouble, ← hrest]
      simp [ha]

/-- No placeholder and nothing like one. -/
def Literal (s : Units) : Prop := hasDouble 123 s = false ∧ hasDouble 125 s = false

theorem Literal.append {s t : Units} (hs : 123 ∉ s ∧ 125 ∉ s) (ht : Literal t) :
    Literal (s ++ t) := by
  rw [Literal, hasDouble_append hs.1, hasDouble_append hs.2]
  exact ht

theorem hasDouble_of_not_mem {u : UInt16} {s : Units} (h : u ∉ s) : hasDouble u s = false := by
  rw [← List.append_nil s, hasDouble_append h]
  rfl

theorem Literal.of_not_mem {s : Units} (h : 123 ∉ s ∧ 125 ∉ s) : Literal s :=
  ⟨hasDouble_of_not_mem h.1, hasDouble_of_not_mem h.2⟩

theorem parseTemplatePayload_literal {s : Units} (h : Literal s) (line : ℕ) :
    parseTemplatePayload s line = .ok (.literal s) := by
  have hplace : placeholderOf s = none := by
    unfold placeholderOf
    simp only
    rw [if_neg]
    rintro ⟨-, hs, -⟩
    have hdouble : hasDouble 123 s = true := by
      rw [hs]
      have : encode "\x7b\x7b" = [123, 123] := by decide
      rw [this]
      simp [hasDouble]
    rw [h.1] at hdouble
    cases hdouble
  unfold parseTemplatePayload
  simp only [hplace, h.1, h.2, Bool.false_eq_true, or_self, if_false]

theorem parseTemplatePayload_cases {u : UInt16} {s : Units} (hu : u ≠ 123) (line : ℕ) :
    parseTemplatePayload (u :: s) line = .ok (.literal (u :: s)) ∨
      ∃ error, parseTemplatePayload (u :: s) line = .error error := by
  have hplace : placeholderOf (u :: s) = none := by
    unfold placeholderOf
    simp only
    rw [if_neg]
    rintro ⟨-, hs, -⟩
    have : encode "\x7b\x7b" = [123, 123] := by decide
    rw [this] at hs
    exact hu (List.cons.inj hs).1
  unfold parseTemplatePayload
  simp only [hplace]
  split
  · exact .inr ⟨_, rfl⟩
  · exact .inl rfl

/-- Printable ASCII with no double brace. -/
def PrintableLiteral (s : Units) : Prop := needsImageRendering s = false ∧ Literal s

instance (s : Units) : Decidable (Literal s) := inferInstanceAs (Decidable (_ ∧ _))

instance (s : Units) : Decidable (PrintableLiteral s) := inferInstanceAs (Decidable (_ ∧ _))

theorem oneLine_of_printable {s : Units} (h : needsImageRendering s = false) : OneLine s := by
  intro u hu
  have hunit := List.any_eq_false.1 h u hu
  constructor
  · rintro rfl
    exact hunit (by decide)
  · rintro rfl
    exact hunit (by decide)

end Values

/-! ## Imports -/

theorem assertImportInputLimits_ok {doc : Units} :
    assertImportInputLimits doc = .ok () ↔ (utf8Bytes doc).length ≤ maxLabelCodeBytes := by
  unfold assertImportInputLimits
  split
  · rename_i h
    exact ⟨fun hok => (by cases hok), fun hle => absurd h (by omega)⟩
  · rename_i h
    exact ⟨fun _ => by omega, fun _ => rfl⟩

theorem importedElementId_injective (language : LabelLanguage) :
    Function.Injective (importedElementId language) := by
  intro a b h
  exact numeral_injective (List.append_cancel_left h)

theorem importedElementId_ne_nil (language : LabelLanguage) (k : ℕ) :
    importedElementId language k ≠ [] := by
  intro h
  exact numeral_ne_nil k (List.append_eq_nil_iff.1 h).2

end Markiro
