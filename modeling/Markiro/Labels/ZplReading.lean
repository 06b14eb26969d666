import Markiro.Labels.Common
import Markiro.Labels.ZplCommands

/-!
# What the importer makes of the emitter's commands

The tokens of an element's line are its commands (`zplTokens_zplText`), and the machine of
`parseZplLabel` goes through them to one field (`textTokens_run`, `barcodeTokens_run`,
`boxTokens_run`), whatever was read before.
-/

namespace Markiro

open Utf16

/-! ## Tokens -/

section Tokens

theorem zplTokenOf_two {a b : UInt16} {args : Units} (ha : isUpper a = true)
    (hb : (isUpper b || isDigit b) = true) (hne : ¬(a = 71 ∧ b = 70)) :
    zplTokenOf (a :: b :: args) = some (zplNameOf [a, b], args) := by
  have hgfa : (encode "GFA").isPrefixOf (a :: b :: args) = false := by
    have h : encode "GFA" = [71, 70, 65] := by decide
    rw [h, List.isPrefixOf, List.isPrefixOf, Bool.and_eq_false_iff, Bool.and_eq_false_iff]
    by_cases h71 : a = 71
    · exact .inr (.inl (by simpa using fun h => hne ⟨h71, h.symm⟩))
    · exact .inl (by simpa using fun h => h71 h.symm)
  rw [zplTokenOf, zplNameLength]
  simp [hgfa, ha, hb]

theorem zplTokenOf_text {name : ZplName} (h : name ∈ supportedZplNames) (args : Units) :
    zplTokenOf (name.text ++ args) = some (name, args) := by
  have hall : ∀ name ∈ supportedZplNames, ∃ a ∈ name.text.head?, ∃ b ∈ name.text.getLast?,
      name.text = [a, b] ∧ isUpper a = true ∧ (isUpper b || isDigit b) = true ∧
        ¬(a = 71 ∧ b = 70) ∧ zplNameOf [a, b] = name := by
    decide
  obtain ⟨a, -, b, -, htext, ha, hb, hne, hname⟩ := hall name h
  rw [htext, List.cons_append, List.cons_append, List.nil_append, zplTokenOf_two ha hb hne, hname]

/-- A command the importer reads, with arguments that end where the next one begins. -/
def Readable (token : ZplToken) : Prop := (∀ name, token.1 ≠ .other name) ∧ Plain token.2

theorem mem_supported {name : ZplName} (h : ∀ n, name ≠ .other n) : name ∈ supportedZplNames := by
  cases name with
  | other n => exact absurd rfl (h n)
  | _ => decide

/-- **The tokens of a line are the commands it was made of.** -/
theorem zplTokens_zplText {tokens : List ZplToken} (h : ∀ t ∈ tokens, Readable t) :
    zplTokens (zplText tokens) = tokens := by
  have hnames : ∀ name ∈ supportedZplNames, (94 : UInt16) ∉ name.text := by decide
  have hsplit := @Segments.splitOnP_begun UInt16 ZplToken (· == 94) 94
    (fun t => t.1.text ++ t.2) tokens (by decide) (fun t ht u hu => by
      rw [beq_eq_false_iff_ne]
      rintro rfl
      rcases List.mem_append.1 hu with hu | hu
      · exact hnames _ (mem_supported (h t ht).1) hu
      · exact ((h t ht).2 94 hu).1 rfl) [] (by simp)
  rw [List.nil_append] at hsplit
  rw [zplTokens, List.splitOn_eq_splitOnP]
  show ((List.flatMap (fun t => 94 :: (t.1.text ++ t.2)) tokens).splitOnP _ |>.drop 1).filterMap _ =
    tokens
  rw [hsplit, List.drop_one, List.tail_cons, List.filterMap_map]
  clear hsplit
  induction tokens with
  | nil => rfl
  | cons t tokens ih =>
    rw [List.filterMap_cons]
    rw [Function.comp_apply, zplTokenOf_text (mem_supported (h t List.mem_cons_self).1)]
    rw [ih fun t ht => h t (List.mem_cons_of_mem _ ht)]

theorem readable_data (lead value : Units) (hlead : Plain lead) :
    ∀ t ∈ dataTokens lead value, Readable t := by
  intro t ht
  unfold dataTokens at ht
  split at ht
  · simp only [List.cons_append, List.nil_append, List.mem_cons, List.not_mem_nil, or_false] at ht
    rcases ht with rfl | rfl | rfl
    · exact ⟨by simp, by unfold Plain; decide⟩
    · refine ⟨by simp, .append hlead ?_⟩
      rw [escapeSpecials_eq]
      exact plain_escaped false value
    · exact ⟨by simp, .nil⟩
  · rename_i hs
    simp only [List.cons_append, List.nil_append, List.mem_cons, List.not_mem_nil, or_false] at ht
    rcases ht with rfl | rfl
    · exact ⟨by simp, .append hlead (plain_of_not_special (by simpa using hs))⟩
    · exact ⟨by simp, .nil⟩

theorem readable_textTokens (element : LabelTextStyle) (text : Units) (dpi : PrinterDpi) :
    ∀ t ∈ textTokens element text dpi, Readable t := by
  intro t ht
  unfold textTokens at ht
  simp only [List.mem_cons, List.mem_append] at ht
  rcases ht with rfl | rfl | ht | ht
  · exact ⟨by simp, plain_pair _ _⟩
  · exact ⟨by simp, .append (by unfold Plain; decide) (plain_pair _ _)⟩
  · unfold blockTokens at ht
    split at ht
    · rw [List.mem_singleton.1 ht]
      refine ⟨by simp, .append (plain_numberText _) (.cons (by decide) (.append (.append (.append
        (by exact_mod_cast plain_numberText ((element.maxLines.getD 1 : ℕ) : ℤ))
        (by unfold Plain; decide)) ?_) (by unfold Plain; decide)))⟩
      cases element.align with
      | none => unfold Plain; decide
      | some a => cases a <;> (unfold Plain; decide)
    · cases ht
  · exact readable_data [] text .nil t ht

theorem readable_barcodeTokens (element : LabelBarcodeElement) (data : LabelData)
    (dpi : PrinterDpi) : ∀ t ∈ barcodeTokens element data dpi, Readable t := by
  have hwidth : ∀ t ∈ barWidthTokens element dpi, Readable t := by
    intro t ht
    unfold barWidthTokens at ht
    split at ht
    · rw [List.mem_singleton.1 ht]
      exact ⟨by simp, plain_numberText _⟩
    · cases ht
  have hN : Plain (encode "N,") := by unfold Plain; decide
  intro t ht
  unfold barcodeTokens at ht
  rcases List.mem_cons.1 ht with rfl | ht
  · exact ⟨by simp, plain_pair _ _⟩
  cases hformat : element.format with
  | code128 =>
    simp only [hformat, List.mem_append, List.mem_cons] at ht
    rcases ht with ht | rfl | ht
    · exact hwidth t ht
    · exact ⟨by simp, .append (.append hN (plain_numberText _)) (by unfold Plain; decide)⟩
    · exact readable_data [] _ .nil t ht
  | ean13 =>
    simp only [hformat, List.mem_append, List.mem_cons] at ht
    rcases ht with ht | rfl | ht
    · exact hwidth t ht
    · exact ⟨by simp, .append hN (plain_numberText _)⟩
    · exact readable_data [] _ .nil t ht
  | datamatrix =>
    simp only [hformat, List.mem_cons] at ht
    rcases ht with rfl | ht
    · exact ⟨by simp, .append (.append hN (plain_numberText _)) (by unfold Plain; decide)⟩
    · split at ht
      · simp only [List.mem_cons, List.not_mem_nil, or_false] at ht
        rcases ht with rfl | rfl | rfl
        · exact ⟨by simp, by unfold Plain; decide⟩
        · refine ⟨by simp, .append (by unfold Plain; decide) ?_⟩
          rw [replaceAll_escapeSpecials]
          exact plain_escaped true _
        · exact ⟨by simp, .nil⟩
      · exact readable_data [] _ .nil t ht
  | qr =>
    simp only [hformat, List.mem_cons] at ht
    rcases ht with rfl | ht
    · exact ⟨by simp, .append (by unfold Plain; decide) (plain_numberText _)⟩
    · exact readable_data _ _ (by unfold Plain; decide) t ht

theorem readable_boxTokens (x y width height thickness : ℤ) :
    ∀ t ∈ boxTokens x y width height thickness, Readable t := by
  intro t ht
  simp only [boxTokens, List.mem_cons, List.not_mem_nil, or_false] at ht
  rcases ht with rfl | rfl | rfl
  · exact ⟨by simp, plain_pair _ _⟩
  · exact ⟨by simp, .append (plain_numberText _) (.cons (by decide) (plain_pair _ _))⟩
  · exact ⟨by simp, .nil⟩

end Tokens

/-! ## Numbers in arguments -/

section Arguments

variable {line : ℕ} {source : Units}

theorem splitCommas_cons {a b : Units} (h : 44 ∉ a) :
    splitCommas (a ++ 44 :: b) = a :: splitCommas b := by
  rw [splitCommas, List.splitOn_eq_splitOnP,
    List.splitOnP_append_cons_of_forall_mem (fun u hu => ?_) 44 (by decide)]
  · rfl
  · rw [beq_eq_false_iff_ne]
    rintro rfl
    exact h hu

theorem splitCommas_single {a : Units} (h : 44 ∉ a) : splitCommas a = [a] := by
  rw [splitCommas, List.splitOn_eq_splitOnP, List.splitOnP_eq_singleton]
  intro u hu
  rw [beq_eq_false_iff_ne]
  rintro rfl
  exact h hu

theorem comma_numberText (n : ℤ) : 44 ∉ numberText n := not_mem_numberText (by decide) n

theorem splitCommas_number (n : ℤ) (rest : Units) :
    splitCommas (numberText n ++ 44 :: rest) = numberText n :: splitCommas rest :=
  splitCommas_cons (comma_numberText n)

theorem parseNumbers_one (n : ℤ) {tail : Units} (htail : ∀ u ∈ tail.head?, u = 44) :
    ∃ values, parseNumbers (numberText n ++ tail) 1 line source = .ok values ∧
      requiredNumber values 0 line source = .ok (n : ℚ) := by
  have hsplit : ∃ rest, splitCommas (numberText n ++ tail) = numberText n :: rest := by
    cases tail with
    | nil =>
      rw [List.append_nil]
      exact ⟨[], splitCommas_single (comma_numberText n)⟩
    | cons u tail =>
      rw [htail u rfl]
      exact ⟨_, splitCommas_number n tail⟩
  obtain ⟨rest, hrest⟩ := hsplit
  refine ⟨some (n : ℚ) :: rest.map fun part => numberOf (ecmaTrim part), ?_, rfl⟩
  rw [parseNumbers, hrest]
  simp

theorem parseNumbers_two (x y : ℤ) : parseNumbers (pair x y) 2 line source =
    .ok [some (x : ℚ), some (y : ℚ)] := by
  rw [parseNumbers, pair, splitCommas_number, splitCommas_single (comma_numberText y)]
  simp

theorem parseNumbers_three (x y z : ℤ) :
    parseNumbers (numberText x ++ 44 :: pair y z) 3 line source =
      .ok [some (x : ℚ), some (y : ℚ), some (z : ℚ)] := by
  rw [parseNumbers, pair, splitCommas_number, splitCommas_number,
    splitCommas_single (comma_numberText z)]
  simp

theorem encode_N : encode "N," = [78, 44] := by decide

theorem ecmaTrim_wrapped {u : UInt16} {s t : Units} (hu : isEcmaWhitespace u = false) (ht : t ≠ [])
    (hlast : ∀ v ∈ t, isEcmaWhitespace v = false) : ecmaTrim (u :: (s ++ t)) = u :: (s ++ t) := by
  refine trimBy_eq_self ⟨fun v hv => ?_, fun v hv => ?_⟩
  · obtain rfl : u = v := by simpa using hv
    exact hu
  · rw [← List.cons_append, List.getLast?_append_of_ne_nil _ ht] at hv
    exact hlast v (List.mem_of_getLast? hv)

theorem numberText_not_blank (n : ℤ) : ∀ v ∈ numberText n, isEcmaWhitespace v = false := fun v hv =>
  isNumberUnit_not_blank ((numberText_intCast_units n).2 v hv)

theorem barcodeSize_eq (n : ℤ) {tail : Units} (htail : ∀ u ∈ tail.head?, u = 44)
    (hblank : ∀ u ∈ tail, isEcmaWhitespace u = false) :
    barcodeSize (encode "N," ++ (numberText n ++ tail)) line source = .ok (n : ℚ) := by
  have hne : numberText n ++ tail ≠ [] := by simp [(numberText_intCast_units n).1]
  have hall : ∀ v ∈ numberText n ++ tail, isEcmaWhitespace v = false := by
    intro v hv
    rcases List.mem_append.1 hv with hv | hv
    · exact numberText_not_blank n v hv
    · exact hblank v hv
  have htrim : ecmaTrim (encode "N," ++ (numberText n ++ tail)) =
      78 :: 44 :: (numberText n ++ tail) := by
    rw [encode_N]
    exact @ecmaTrim_wrapped 78 [44] _ (by decide) hne hall
  obtain ⟨values, hvalues, hrequired⟩ := @parseNumbers_one line source n tail htail
  rw [barcodeSize, htrim]
  simp only [show isUpper 78 = true by decide, if_true, hvalues]
  exact hrequired

end Arguments

/-! ## The machine -/

/-- The field being read. -/
def ZplParse.openAt (parse : ZplParse) (st : ZplState) : ZplParse := { parse with state := some st }

def ZplParse.added (parse : ZplParse) (st : ZplState) (element : LabelElement) : ZplParse :=
  { parse with
    elements := parse.elements ++ [element]
    sourceLineByElementId := parse.sourceLineByElementId ++
      [(importedElementId .zpl (parse.elements.length + 1), st.line)] }

/-- The field is at its end. -/
def ZplParse.close (parse : ZplParse) (st : ZplState) (dpi : PrinterDpi) : Labels ZplParse :=
  if maxLabelCodeElements < parse.elements.length + 1 then
    labelFail .labelCodeLimit (encode "label code exceeds 1000 elements")
  else (zplFieldElement st (importedElementId .zpl (parse.elements.length + 1)) dpi).map
    (parse.added st)

/-- Inside the document, between fields. -/
structure Idle (parse : ZplParse) : Prop where
  started : parse.started = true
  ended : parse.ended = false
  state : parse.state = none

section Machine

variable {dpi : PrinterDpi} {line : ℕ} {source : Units} {parse : ZplParse} {st : ZplState}

theorem foldlM_ok {α β ε : Type} {f : β → α → Except ε β} {b b' : β} {a : α} {l : List α}
    (h : f b a = .ok b') : (a :: l).foldlM f b = l.foldlM f b' := by
  rw [List.foldlM_cons, h]
  rfl

theorem Idle.step (h : Idle parse) (token : ZplToken) :
    zplToken dpi line source parse token = zplCommand dpi line source parse token.2 token.1 := by
  rw [zplToken, h.ended, h.started]
  simp

theorem Idle.step_open (h : Idle parse) (token : ZplToken) :
    zplToken dpi line source (parse.openAt st) token =
      zplCommand dpi line source (parse.openAt st) token.2 token.1 := by
  rw [zplToken]
  simp [ZplParse.openAt, h.ended, h.started]

/-- The field a `^FO` begins. -/
def ZplParse.begun (parse : ZplParse) (line : ℕ) (source : Units) (x y : ℤ) : ZplState where
  line := line
  source := source
  xDots := x
  yDots := y
  moduleWidthDots := parse.moduleWidthDots

theorem step_FO (h : Idle parse) (x y : ℤ) :
    zplToken dpi line source parse (.FO, pair x y) =
      .ok (parse.openAt (parse.begun line source x y)) := by
  rw [h.step]
  simp only [zplCommand, h.state, Option.isSome_none, Bool.false_eq_true, if_false, parseNumbers_two]
  rfl

theorem step_A0 (h : Idle parse) (x y : ℤ) :
    zplToken dpi line source (parse.openAt st) (.A0, encode "N," ++ pair x y) =
      .ok (parse.openAt { st with fontHeightDots := x }) := by
  have htrim : ecmaTrim (encode "N," ++ pair x y) = 78 :: 44 :: pair x y := by
    rw [encode_N, pair]
    refine @ecmaTrim_wrapped 78 (44 :: (numberText x ++ [44])) (numberText y) (by decide)
      (numberText_intCast_units y).1 (numberText_not_blank y) |> fun h => ?_
    simpa using h
  rw [h.step_open]
  simp only [zplCommand, inField, ZplParse.openAt, firstUnit, htrim, List.headD_cons, ne_eq,
    not_true_eq_false, if_false, List.drop_succ_cons, List.drop_zero, List.head?_cons, if_true,
    parseNumbers_two]
  rfl

/-- The lines of a block as the importer keeps them. -/
def blockLines (n : ℕ) : Option ℕ := if 2 ≤ n then some (min n 16) else none

theorem step_FB (h : Idle parse) (width : ℤ) (n : ℕ) (align : Option LabelAlign)
    (hlines : st.maxLines = none) :
    zplToken dpi line source (parse.openAt st) (.FB, numberText width ++ 44 ::
        (numberText (n : ℚ) ++ encode ",0," ++ alignToJustification align ++ encode ",0")) =
      if width ≤ 0 then importFail line source (encode "invalid ZPL field block width")
      else .ok (parse.openAt { st with
        maxWidthDots := some width
        maxLines := blockLines n
        align := some (align.getD .left) }) := by
  have hn : (numberText (n : ℚ)) = numberText ((n : ℤ) : ℚ) := by rw [Int.cast_natCast]
  have h0 : encode ",0," = 44 :: (encode "0" ++ [44]) := by decide
  have h1 : encode ",0" = 44 :: encode "0" := by decide
  have hj : 44 ∉ alignToJustification align ∧
      alignFromZpl (some (ecmaTrim (alignToJustification align))) = some (align.getD .left) := by
    cases align with
    | none => decide
    | some a => cases a <;> decide
  have hsplit : splitCommas (numberText width ++ 44 :: (numberText (n : ℚ) ++ encode ",0," ++
      alignToJustification align ++ encode ",0")) =
      [numberText width, numberText (n : ℚ), encode "0", alignToJustification align,
        encode "0"] := by
    rw [splitCommas_number, hn, h0, h1]
    simp only [List.append_assoc, List.cons_append, List.nil_append]
    rw [splitCommas_number, splitCommas_cons (by decide), splitCommas_cons hj.1,
      splitCommas_single (by decide)]
  have hint : ((n : ℤ) : ℚ).isInt = true := by simp [Rat.isInt]
  have hmin : (min ((n : ℤ) : ℚ) maxFieldBlockLines).num.toNat = min n 16 := by
    have : min ((n : ℤ) : ℚ) maxFieldBlockLines = ((min n 16 : ℕ) : ℚ) := by
      rw [maxFieldBlockLines, Int.cast_natCast, Nat.cast_min]
      rfl
    rw [this, Rat.num_natCast, Int.toNat_natCast]
  have htwo : (2 : ℚ) ≤ ((n : ℤ) : ℚ) ↔ 2 ≤ n := by
    rw [Int.cast_natCast]
    exact_mod_cast Iff.rfl
  rw [hn] at hsplit ⊢
  rw [h.step_open]
  simp only [zplCommand, inField, ZplParse.openAt, hsplit, List.headD_cons,
    numberOf_numberText_intCast, List.getElem?_cons_succ, List.getElem?_cons_zero, Option.bind_some,
    Option.map_some, hj.2, hint, hmin, htwo, hlines, true_and]
  by_cases hw : width ≤ 0
  · rw [if_pos hw, if_pos (by exact_mod_cast hw)]
    rfl
  · rw [if_neg hw, if_neg (by exact_mod_cast hw)]
    rfl

theorem step_FH (h : Idle parse) : zplToken dpi line source (parse.openAt st) (.FH, [95]) =
    .ok (parse.openAt { st with hexIndicator := some 95 }) := by
  rw [h.step_open]
  simp only [zplCommand, inField, ZplParse.openAt, show firstUnit [95] 95 = 95 by decide]
  rfl

theorem step_FD (h : Idle parse) (args : Units) :
    zplToken dpi line source (parse.openAt st) (.FD, args) =
      .ok (parse.openAt { st with data := some args }) := by
  rw [h.step_open]
  rfl

theorem step_BY (h : Idle parse) {n : ℤ} (h1 : 1 ≤ n) (h10 : n ≤ 10) :
    zplToken dpi line source (parse.openAt st) (.BY, numberText n) =
      .ok (({ parse with moduleWidthDots := some (n : ℚ) } : ZplParse).openAt
        { st with moduleWidthDots := some (n : ℚ) }) := by
  have hint : (n : ℚ).isInt = true := by simp [Rat.isInt]
  have hlow : ¬(n : ℚ) < 1 := by
    rw [not_lt]
    exact_mod_cast h1
  have hhigh : ¬(10 : ℚ) < n := by
    rw [not_lt]
    exact_mod_cast h10
  rw [h.step_open]
  simp only [zplCommand, splitCommas_single (comma_numberText n), List.headD_cons,
    numberOf_numberText_intCast, hint, hlow, hhigh, Bool.true_eq_false, or_self, if_false]
  rfl

theorem step_BC (h : Idle parse) (n : ℤ) :
    zplToken dpi line source (parse.openAt st)
        (.BC, encode "N," ++ numberText n ++ encode ",N,N,N") =
      .ok (parse.openAt { st with barcode := some (.code128, n) }) := by
  rw [h.step_open, List.append_assoc]
  simp only [zplCommand, inField, ZplParse.openAt]
  rw [barcodeSize_eq n (by decide) (by decide)]
  rfl

theorem step_BE (h : Idle parse) (n : ℤ) :
    zplToken dpi line source (parse.openAt st) (.BE, encode "N," ++ numberText n) =
      .ok (parse.openAt { st with barcode := some (.ean13, n) }) := by
  have hsize := @barcodeSize_eq line source n [] (by simp) (by simp)
  rw [List.append_nil] at hsize
  rw [h.step_open]
  simp only [zplCommand, inField, ZplParse.openAt, hsize]
  rfl

theorem step_BX (h : Idle parse) (n : ℤ) :
    zplToken dpi line source (parse.openAt st)
        (.BX, encode "N," ++ numberText n ++ encode ",200,,,,_") =
      .ok (parse.openAt { st with barcode := some (.datamatrix, n) }) := by
  rw [h.step_open, List.append_assoc]
  simp only [zplCommand, inField, ZplParse.openAt]
  rw [barcodeSize_eq n (by decide) (by decide)]
  rfl

theorem step_BQ (h : Idle parse) (n : ℤ) :
    zplToken dpi line source (parse.openAt st) (.BQ, encode "N,2," ++ numberText n) =
      .ok (parse.openAt { st with barcode := some (.qr, n) }) := by
  have htext : encode "N,2," = encode "N" ++ 44 :: (encode "2" ++ [44]) := by decide
  have hsplit : splitCommas (encode "N,2," ++ numberText n) =
      [encode "N", encode "2", numberText n] := by
    rw [htext]
    simp only [List.append_assoc, List.cons_append, List.nil_append]
    rw [splitCommas_cons (by decide), splitCommas_cons (by decide),
      splitCommas_single (comma_numberText n)]
  obtain ⟨values, hvalues, hrequired⟩ := @parseNumbers_one line source n [] (by simp)
  rw [List.append_nil] at hvalues
  rw [h.step_open]
  simp only [zplCommand, inField, ZplParse.openAt, hsplit, List.getLastD_cons, List.getLastD_nil,
    hvalues]
  show ((requiredNumber values 0 line source >>= _) >>= _) = _
  rw [hrequired]
  rfl

theorem step_GB (h : Idle parse) (x y z : ℤ) :
    zplToken dpi line source (parse.openAt st) (.GB, numberText x ++ 44 :: pair y z) =
      .ok (parse.openAt { st with graphic := some (x, y, z) }) := by
  rw [h.step_open]
  simp only [zplCommand, inField, ZplParse.openAt, parseNumbers_three]
  rfl

theorem step_FS (h : Idle parse) (hd : ¬(st.data = none ∧ st.barcode = none ∧ st.graphic = none)) :
    zplToken dpi line source (parse.openAt st) (.FS, []) = parse.close st dpi := by
  rw [h.step_open]
  simp only [zplCommand, ZplParse.openAt, finalizeField, hd, if_false, ZplParse.close]
  by_cases hlimit : maxLabelCodeElements < parse.elements.length + 1
  · simp only [hlimit, if_true]
    rfl
  · simp only [hlimit, if_false]
    have hstate := h.state
    cases parse
    subst hstate
    cases zplFieldElement st _ dpi with
    | error e => rfl
    | ok element => rfl

theorem foldlM_last {α β ε : Type} {f : β → α → Except ε β} {b : β} {a : α} :
    [a].foldlM f b = f b a := by
  rw [List.foldlM_cons]
  cases f b a with
  | error e => rfl
  | ok b' => rfl

def ZplState.withData (st : ZplState) (lead value : Units) : ZplState :=
  if value.any isSpecial then
    { st with hexIndicator := some 95, data := some (lead ++ escapeSpecials value) }
  else { st with data := some (lead ++ value) }

theorem dataTokens_run (h : Idle parse) (lead value : Units) :
    (dataTokens lead value).foldlM (zplToken dpi line source) (parse.openAt st) =
      parse.close (st.withData lead value) dpi := by
  unfold dataTokens ZplState.withData
  by_cases hs : value.any isSpecial = true
  · rw [if_pos hs, if_pos hs, List.cons_append, foldlM_ok (step_FH h), List.cons_append,
      foldlM_ok (step_FD h _), List.nil_append, foldlM_last, step_FS h (by simp)]
  · rw [if_neg hs, if_neg hs, List.cons_append, foldlM_ok (step_FD h _), List.nil_append,
      foldlM_last, step_FS h (by simp)]

/-- The field of a text, before its data. -/
def textState (parse : ZplParse) (line : ℕ) (source : Units) (element : LabelTextStyle)
    (dpi : PrinterDpi) : ZplState :=
  { parse.begun line source (mmToDots element.xMm dpi) (mmToDots element.yMm dpi) with
    fontHeightDots := ptToDots element.fontSizePt dpi
    maxWidthDots := element.maxWidthMm.map fun width => (mmToDots width dpi : ℚ)
    maxLines := element.maxWidthMm.bind fun _ => blockLines (element.maxLines.getD 1)
    align := element.maxWidthMm.map fun _ => element.align.getD .left }

/-- **A native text is read as one field**, unless its width is less than a dot. -/
theorem textTokens_run (h : Idle parse) (element : LabelTextStyle) (text : Units) :
    (textTokens element text dpi).foldlM (zplToken dpi line source) parse =
      if ∃ width ∈ element.maxWidthMm, mmToDots width dpi ≤ 0 then
        importFail line source (encode "invalid ZPL field block width")
      else parse.close ((textState parse line source element dpi).withData [] text) dpi := by
  unfold textTokens blockTokens textState
  rw [foldlM_ok (step_FO h _ _), foldlM_ok (step_A0 h _ _)]
  cases hw : element.maxWidthMm with
  | none =>
    rw [List.nil_append, dataTokens_run h, if_neg (by simp)]
    rfl
  | some width =>
    have hiff : (∃ w ∈ (some width : Option ℚ), mmToDots w dpi ≤ 0) ↔ mmToDots width dpi ≤ 0 := by
      simp
    rw [List.cons_append, List.nil_append, List.foldlM_cons, step_FB h _ _ _ rfl]
    by_cases hle : mmToDots width dpi ≤ 0
    · rw [if_pos hle, if_pos (hiff.2 hle)]
      rfl
    · rw [if_neg hle, if_neg fun he => hle (hiff.1 he)]
      exact dataTokens_run h [] text

theorem boxTokens_run (h : Idle parse) (x y width height thickness : ℤ) :
    (boxTokens x y width height thickness).foldlM (zplToken dpi line source) parse =
      parse.close { parse.begun line source x y with
        graphic := some (width, height, thickness) } dpi := by
  unfold boxTokens
  rw [foldlM_ok (step_FO h _ _), foldlM_ok (step_GB h _ _ _), foldlM_last, step_FS h (by simp)]

/-- The narrow bar a linear barcode sets, in dots. -/
def barDots (element : LabelBarcodeElement) (dpi : PrinterDpi) : Option ℚ :=
  if element.format = .code128 ∨ element.format = .ean13 then
    element.moduleWidthMm.map fun width => ((max 1 (min 10 (mmToDots width dpi)) : ℤ) : ℚ)
  else none

/-- A `^BY` stays in force. -/
def ZplParse.barred (parse : ZplParse) (element : LabelBarcodeElement) (dpi : PrinterDpi) :
    ZplParse :=
  { parse with moduleWidthDots := (barDots element dpi).orElse fun _ => parse.moduleWidthDots }

def barcodeDots (element : LabelBarcodeElement) (dpi : PrinterDpi) : ℤ :=
  if element.format = .qr then max 1 (min 10 (mmToDots element.sizeMm dpi))
  else mmToDots element.sizeMm dpi

/-- The field of a barcode, before its data. -/
def barcodeState (parse : ZplParse) (line : ℕ) (source : Units) (element : LabelBarcodeElement)
    (dpi : PrinterDpi) : ZplState :=
  { (parse.barred element dpi).begun line source (mmToDots element.xMm dpi)
      (mmToDots element.yMm dpi) with
    barcode := some (element.format, barcodeDots element dpi) }

def barcodeField (parse : ZplParse) (line : ℕ) (source : Units) (element : LabelBarcodeElement)
    (data : LabelData) (dpi : PrinterDpi) : ZplState :=
  if isKmDataMatrix element then
    { barcodeState parse line source element dpi with
      hexIndicator := some 95
      data := some (encode "_1" ++ (data .kmCode).flatMap (escapeUnit true)) }
  else (barcodeState parse line source element dpi).withData
    (if element.format = .qr then encode "QA," else []) (barcodeValue element data)

theorem Idle.barred (h : Idle parse) (element : LabelBarcodeElement) :
    Idle (parse.barred element dpi) := ⟨h.started, h.ended, h.state⟩

theorem barWidthTokens_run {rest : List ZplToken} (h : Idle parse) {element : LabelBarcodeElement}
    (hlinear : element.format = .code128 ∨ element.format = .ean13) (x y : ℤ) :
    (barWidthTokens element dpi ++ rest).foldlM (zplToken dpi line source)
        (parse.openAt (parse.begun line source x y)) =
      rest.foldlM (zplToken dpi line source) ((parse.barred element dpi).openAt
        ((parse.barred element dpi).begun line source x y)) := by
  unfold barWidthTokens ZplParse.barred barDots
  rw [if_pos hlinear]
  cases hw : element.moduleWidthMm with
  | none => rfl
  | some width =>
    rw [List.cons_append, List.nil_append]
    exact foldlM_ok (step_BY h (by omega) (by omega))

/-- **A barcode is read as one field.** -/
theorem barcodeTokens_run (h : Idle parse) (element : LabelBarcodeElement) (data : LabelData) :
    (barcodeTokens element data dpi).foldlM (zplToken dpi line source) parse =
      (parse.barred element dpi).close (barcodeField parse line source element data dpi) dpi := by
  have hb : Idle (parse.barred element dpi) := h.barred element
  unfold barcodeTokens
  rw [foldlM_ok (step_FO h _ _)]
  cases hformat : element.format with
  | code128 =>
    have hnot : ¬isKmDataMatrix element := fun hk => by simp [hk.1] at hformat
    simp only
    rw [barWidthTokens_run h (.inl hformat), foldlM_ok (step_BC hb _), dataTokens_run hb]
    simp [barcodeField, barcodeState, barcodeDots, hnot, hformat]
  | ean13 =>
    have hnot : ¬isKmDataMatrix element := fun hk => by simp [hk.1] at hformat
    simp only
    rw [barWidthTokens_run h (.inr hformat), foldlM_ok (step_BE hb _), dataTokens_run hb]
    simp [barcodeField, barcodeState, barcodeDots, hnot, hformat]
  | datamatrix =>
    have hsame : parse.barred element dpi = parse := by
      simp [ZplParse.barred, barDots, hformat]
    simp only
    rw [hsame, foldlM_ok (step_BX h _)]
    by_cases hkm : isKmDataMatrix element
    · rw [if_pos hkm, foldlM_ok (step_FH h), foldlM_ok (step_FD h _), foldlM_last,
        step_FS h (by simp), replaceAll_escapeSpecials]
      simp [barcodeField, barcodeState, barcodeDots, hkm, hformat, hsame]
    · rw [if_neg hkm, dataTokens_run h]
      simp [barcodeField, barcodeState, barcodeDots, hkm, hformat, hsame]
  | qr =>
    have hnot : ¬isKmDataMatrix element := fun hk => by simp [hk.1] at hformat
    have hsame : parse.barred element dpi = parse := by
      simp [ZplParse.barred, barDots, hformat]
    simp only
    rw [hsame, foldlM_ok (step_BQ h _), dataTokens_run h]
    simp [barcodeField, barcodeState, barcodeDots, hnot, hformat, hsame]

end Machine

end Markiro
