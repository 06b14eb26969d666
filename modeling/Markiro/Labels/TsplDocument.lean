import Markiro.Labels.TsplReading

/-!
# Reading a TSPL document

A document the emitter wrote is read line by line: the header gives the size of the page exactly
(`run_header`), and each element's statement the element of `importedTspl` or an error
(`run_elements`).
-/

namespace Markiro

open Utf16 Results

/-! ## Printable statements -/

section Printable

theorem needsImageRendering_append (s t : Units) :
    needsImageRendering (s ++ t) = (needsImageRendering s || needsImageRendering t) :=
  List.any_append

theorem printable_of_bounds {s : Units} (h : ∀ u ∈ s, 32 ≤ u.toNat ∧ u.toNat ≤ 126) :
    needsImageRendering s = false := by
  rw [needsImageRendering, List.any_eq_false]
  intro u hu
  have hbounds := h u hu
  have h20 : (0x20 : UInt16).toNat = 32 := rfl
  have h7e : (0x7e : UInt16).toNat = 126 := rfl
  simp only [Bool.or_eq_true, decide_eq_true_eq, UInt16.lt_iff_toNat_lt]
  omega

theorem bounds_of_printable {s : Units} (h : needsImageRendering s = false) :
    ∀ u ∈ s, 32 ≤ u.toNat ∧ u.toNat ≤ 126 := by
  intro u hu
  have hunit := List.any_eq_false.1 h u hu
  have h20 : (0x20 : UInt16).toNat = 32 := rfl
  have h7e : (0x7e : UInt16).toNat = 126 := rfl
  simp only [Bool.or_eq_true, decide_eq_true_eq, UInt16.lt_iff_toNat_lt] at hunit
  omega

theorem printable_numberText {q : ℚ} (h : decimals q ≠ none) :
    needsImageRendering (numberText q) = false := by
  refine printable_of_bounds fun u hu => ?_
  have := isNumberUnit_bounds ((numberText_units h).2 u hu)
  omega

theorem printable_escaped {value : Units} (h : needsImageRendering value = false) :
    needsImageRendering (escapeTsplString value) = false := by
  induction value with
  | nil => rfl
  | cons u value ih =>
    rw [needsImageRendering, List.any_cons, Bool.or_eq_false_iff] at h
    rw [escapeTsplString_cons, needsImageRendering_append, ih h.2, Bool.or_false]
    split
    · decide
    · rw [needsImageRendering, List.any_cons, h.1]
      rfl

theorem printable_written {name : Units} {args : List TsplArg}
    (hname : needsImageRendering name = false)
    (h : ∀ a ∈ args, needsImageRendering a.value = false) :
    needsImageRendering (TsplStatement.written (name, args)) = false := by
  have harg : ∀ a ∈ args, needsImageRendering a.written = false := by
    intro a ha
    cases a with
    | word text => exact h _ ha
    | string value =>
      have hvalue : needsImageRendering value = false := h _ ha
      rw [TsplArg.written, needsImageRendering, List.any_cons, ← needsImageRendering,
        needsImageRendering_append, printable_escaped hvalue]
      decide
  have hjoin : needsImageRendering (joinWith [44] (args.map TsplArg.written)) = false := by
    induction args with
    | nil => rfl
    | cons a args ih =>
      have hrest := ih (fun b hb => h b (List.mem_cons_of_mem _ hb))
        fun b hb => harg b (List.mem_cons_of_mem _ hb)
      cases args with
      | nil => simpa using harg a List.mem_cons_self
      | cons b args =>
        rw [List.map_cons, List.map_cons, join_cons_cons, needsImageRendering_append,
          needsImageRendering_append, harg a List.mem_cons_self, ← List.map_cons, hrest]
        decide
  unfold TsplStatement.written
  split
  · exact hname
  · rw [needsImageRendering_append, hname, needsImageRendering, List.any_cons,
      ← needsImageRendering, hjoin]
    decide

theorem terminators_of_printable {s : Units} (h : needsImageRendering s = false) :
    s.any isLineTerminator = false := by
  rw [List.any_eq_false]
  intro u hu
  have hbounds := bounds_of_printable h u hu
  simp only [isLineTerminator, Bool.or_eq_true, beq_iff_eq, ← UInt16.toNat_inj]
  have h10 : (10 : UInt16).toNat = 10 := rfl
  have h13 : (13 : UInt16).toNat = 13 := rfl
  have h2028 : (0x2028 : UInt16).toNat = 0x2028 := rfl
  have h2029 : (0x2029 : UInt16).toNat = 0x2029 := rfl
  omega

/-- Blanks at the edges of a value are dropped, and no double brace appears. -/
theorem hasDouble_of_append {u : UInt16} {a s b : Units} (h : hasDouble u (a ++ s ++ b) = false) :
    hasDouble u s = false := by
  have hpre : hasDouble u (s ++ b) = false := by
    rw [List.append_assoc] at h
    induction a with
    | nil => exact h
    | cons v a ih =>
      refine ih ?_
      cases hst : a ++ (s ++ b) with
      | nil => rfl
      | cons w rest =>
        rw [List.cons_append, hst, hasDouble, Bool.or_eq_false_iff] at h
        exact h.2
  clear h
  induction s with
  | nil => rfl
  | cons v s ih =>
    cases s with
    | nil => rfl
    | cons w s =>
      rw [List.cons_append, List.cons_append, hasDouble, Bool.or_eq_false_iff] at hpre
      rw [hasDouble, hpre.1, ih hpre.2]
      rfl

theorem Literal.trim {s : Units} (h : Literal s) : Literal (ecmaTrim s) := by
  obtain ⟨a, b, -, -, hs⟩ := exists_trimBy isEcmaWhitespace s
  rw [hs] at h
  exact ⟨hasDouble_of_append h.1, hasDouble_of_append h.2⟩

end Printable

/-! ## The header -/

section Header

variable {dpi : PrinterDpi} {parse : TsplParse} {n : ℕ}

/-- A number of digits, a point and digits, or of digits only, before ` mm`. -/
theorem sizeOf_digits {whole point fraction : Units} (hwhole : ∀ u ∈ whole, isDigit u = true)
    (hne : whole ≠ []) (hfraction : ∀ u ∈ fraction, isDigit u = true)
    (hpoint : point = [] ∧ fraction = [] ∨ point = 46 :: fraction ∧ fraction ≠ []) :
    sizeOf (whole ++ (point ++ encode " mm")) =
      some ((readNumber (whole ++ fraction) : ℚ) * (10 : ℚ) ^ (-(fraction.length : ℤ))) := by
  have hmm : encode " mm" = [32, 109, 109] := by decide
  have hupper : asciiUpper [109, 109] = encode "MM" := by decide
  have hhead : ∀ u ∈ (point ++ [32, 109, 109]).head?, isDigit u = false := by
    rcases hpoint with ⟨rfl, -⟩ | ⟨rfl, -⟩
    · simp only [List.nil_append, List.head?_cons, Option.mem_def, Option.some.injEq, forall_eq']
      decide
    · simp only [List.cons_append, List.head?_cons, Option.mem_def, Option.some.injEq, forall_eq']
      decide
  have htrim : ecmaTrim (whole ++ (point ++ [32, 109, 109])) =
      whole ++ (point ++ [32, 109, 109]) := by
    refine trimBy_eq_self ⟨fun u hu => ?_, fun u hu => ?_⟩
    · obtain ⟨d, rest, rfl⟩ := List.exists_cons_of_ne_nil hne
      obtain rfl : d = u := by simpa using hu
      exact isNumberUnit_not_blank (isNumberUnit_of_isDigit (hwhole d List.mem_cons_self))
    · rw [List.getLast?_append_of_ne_nil _ (by simp),
        List.getLast?_append_of_ne_nil _ (by simp)] at hu
      obtain rfl : 109 = u := by simpa using hu
      decide
  have hread : readFraction (point ++ [32, 109, 109]) = (fraction, [32, 109, 109]) := by
    rcases hpoint with ⟨rfl, rfl⟩ | ⟨rfl, -⟩
    · rfl
    · have hblank : ∀ u ∈ ([32, 109, 109] : Units).head?, isDigit u = false := by decide
      rw [List.cons_append, readFraction, if_pos rfl, takeWhile_digits hfraction hblank,
        dropWhile_digits hfraction hblank]
  have hdot : ¬((point ++ [32, 109, 109]).head? = some 46 ∧ fraction = []) := by
    rcases hpoint with ⟨rfl, -⟩ | ⟨-, hnef⟩
    · simp
    · exact fun h => hnef h.2
  have hblank : ([32, 109, 109] : Units).dropWhile isEcmaWhitespace = [109, 109] := by decide
  unfold sizeOf
  simp only [hmm, htrim, takeWhile_digits hwhole hhead, dropWhile_digits hwhole hhead, hread, hne,
    hdot, or_self, if_false, hblank, hupper, if_true]

/-- **A side of the page comes back exactly.** -/
theorem sizeOf_numberText {q : ℚ} (hq : decimals q ≠ none) (h10 : 10 ≤ q) (h300 : q ≤ 300) :
    sizeOf (numberText q ++ encode " mm") = some q := by
  obtain ⟨k, hk⟩ := Option.ne_none_iff_exists'.1 hq
  have hvalue := eq_of_decimals hk
  have hneg : ¬q < 0 := by linarith
  rw [if_neg hneg, one_mul] at hvalue
  rw [numberText, hk]
  simp only [hneg, if_false, List.nil_append]
  generalize q.num.natAbs * (10 ^ k / q.den) = m at hvalue ⊢
  have hten : (0 : ℚ) < 10 ^ k := by positivity
  have hlower : 10 * 10 ^ k ≤ m := by
    have : (10 : ℚ) * 10 ^ k ≤ m := by
      rw [hvalue, le_div_iff₀ hten] at h10
      exact h10
    exact_mod_cast this
  have hupper : m ≤ 300 * 10 ^ k := by
    have : (m : ℚ) ≤ 300 * 10 ^ k := by
      rw [hvalue, div_le_iff₀ hten] at h300
      exact h300
    exact_mod_cast this
  have hplain : m = 0 ∨ m < 10 ^ (21 + k) ∧ 10 ^ k ≤ m * 10 ^ 6 := by
    have hpow : 10 ^ (21 + k) = 10 ^ 21 * 10 ^ k := pow_add _ _ _
    have hpos : 0 < 10 ^ k := by positivity
    refine .inr ⟨?_, ?_⟩
    · rw [hpow]
      omega
    · omega
  rw [unsignedText, if_pos hplain]
  split
  · rename_i hzero
    have h := @sizeOf_digits (numeral m) [] [] (numeral_isDigit m) (numeral_ne_nil m) (by simp)
      (.inl ⟨rfl, rfl⟩)
    rw [List.nil_append, List.append_nil, readNumber_numeral] at h
    rw [h, hvalue, hzero]
    simp
  · rename_i hzero
    have h46 : encode "." = [46] := by decide
    have hmod : m % 10 ^ k < 10 ^ k := Nat.mod_lt _ (by positivity)
    have hlength : ((numeral (m % 10 ^ k)).leftpad k 48).length = k := by
      rw [List.length_leftpad, max_eq_left]
      exact numeral_length_le (by omega) hmod
    have hnef : (numeral (m % 10 ^ k)).leftpad k 48 ≠ [] := by
      intro hnil
      rw [hnil] at hlength
      exact hzero hlength.symm
    have h := sizeOf_digits (numeral_isDigit (m / 10 ^ k)) (numeral_ne_nil _) leftpad_digits
      (.inr ⟨rfl, hnef⟩)
    rw [readNumber_append, readNumber_numeral, readNumber_leftpad, hlength, Nat.mul_comm,
      Nat.div_add_mod, zpow_neg, zpow_natCast, ← div_eq_mul_inv, ← hvalue] at h
    rw [h46, ← h]
    simp

/-- An argument that no blank begins or ends. -/
def TsplArg.Edged (a : TsplArg) : Prop :=
  (∃ u ∈ a.written.head?, isEcmaWhitespace u = false) ∧
    ∃ u ∈ a.written.getLast?, isEcmaWhitespace u = false

theorem edged_of {a : TsplArg} (hne : a.written ≠ [])
    (hfirst : ∀ u ∈ a.written.head?, isEcmaWhitespace u = false)
    (hlast : ∀ u ∈ a.written.getLast?, isEcmaWhitespace u = false) : a.Edged := by
  obtain ⟨u, hu⟩ := Option.ne_none_iff_exists'.1 fun h => hne (List.head?_eq_none_iff.1 h)
  obtain ⟨v, hv⟩ := Option.ne_none_iff_exists'.1 fun h => hne (List.getLast?_eq_none_iff.1 h)
  exact ⟨⟨u, hu, hfirst u hu⟩, ⟨v, hv, hlast v hv⟩⟩

theorem edged_dots (n : ℤ) : (dots n).Edged := by
  have hblank : ∀ u ∈ (dots n).written, isEcmaWhitespace u = false := fun u hu =>
    isNumberUnit_not_blank ((numberText_intCast_units n).2 u hu)
  exact edged_of (numberText_intCast_units n).1 (fun u hu => hblank u (List.mem_of_mem_head? hu))
    fun u hu => hblank u (List.mem_of_getLast? hu)

theorem edged_string (value : Units) : (TsplArg.string value).Edged := by
  have hquote : isEcmaWhitespace tsplQuote = false := by decide
  refine edged_of (by simp [TsplArg.written]) (fun u hu => ?_) fun u hu => ?_
  · obtain rfl : tsplQuote = u := by simpa [TsplArg.written] using hu
    exact hquote
  · rw [TsplArg.written, List.getLast?_cons, List.getLast?_concat] at hu
    obtain rfl : tsplQuote = u := by simpa using hu
    exact hquote

theorem printable_letters {name : Units} (h : name.all isLetter = true) :
    needsImageRendering name = false := by
  refine printable_of_bounds fun u hu => ?_
  have hletter := List.all_eq_true.1 h u hu
  simp only [isLetter, Bool.or_eq_true, Bool.and_eq_true, decide_eq_true_eq,
    UInt16.le_iff_toNat_le] at hletter
  have h65 : (65 : UInt16).toNat = 65 := rfl
  have h90 : (90 : UInt16).toNat = 90 := rfl
  have h97 : (97 : UInt16).toNat = 97 := rfl
  have h122 : (122 : UInt16).toNat = 122 := rfl
  omega

theorem readable_of_printable {name : Units} {args : List TsplArg}
    (hname : name ≠ [] ∧ name.all isLetter = true ∧ asciiUpper name = name)
    (hclean : TsplStatement.Clean (name, args))
    (hfirst : ∀ a ∈ args.head?, a.Edged) (hlast : ∀ a ∈ args.getLast?, a.Edged)
    (hprintable : ∀ a ∈ args, needsImageRendering a.value = false) :
    TsplStatement.Readable (name, args) where
  clean := hclean
  letters := ⟨hname.1, hname.2.1⟩
  upper := hname.2.2
  first := fun a ha => (hfirst a ha).1
  last := fun a ha => (hlast a ha).2
  terminators := terminators_of_printable
    (printable_written (printable_letters hname.2.1) hprintable)

theorem size_written_edges {q : ℚ} (hq : decimals q ≠ none) :
    numberText q ++ encode " mm" ≠ [] ∧
      (∀ u ∈ (numberText q ++ encode " mm").head?, isEcmaWhitespace u = false) ∧
      ∀ u ∈ (numberText q ++ encode " mm").getLast?, isEcmaWhitespace u = false := by
  have hmm : encode " mm" = [32, 109, 109] := by decide
  obtain ⟨hne, hunits⟩ := numberText_units hq
  refine ⟨by simp [hne], fun u hu => ?_, fun u hu => ?_⟩
  · rw [List.head?_append_of_ne_nil _ hne] at hu
    exact isNumberUnit_not_blank (hunits u (List.mem_of_mem_head? hu))
  · rw [hmm, List.getLast?_append_of_ne_nil _ (by simp)] at hu
    obtain rfl : 109 = u := by simpa using hu
    decide +kernel

/-- The statement of the page's size can be taken apart. -/
theorem readable_size {widthMm heightMm : ℚ} (hwidth : decimals widthMm ≠ none)
    (hheight : decimals heightMm ≠ none) : TsplStatement.Readable (encode "SIZE",
      [.word (numberText widthMm ++ encode " mm"),
        .word (encode " " ++ numberText heightMm ++ encode " mm")]) := by
  obtain ⟨hwne, hwfirst, hwlast⟩ := size_written_edges hwidth
  obtain ⟨hhne, -, hhlast⟩ := size_written_edges hheight
  have hmm : needsImageRendering (encode " mm") = false := by decide +kernel
  have hspace : needsImageRendering (encode " ") = false := by decide +kernel
  have hname : encode "SIZE" ≠ [] ∧ (encode "SIZE").all isLetter = true ∧
      asciiUpper (encode "SIZE") = encode "SIZE" := by decide +kernel
  refine ⟨clean_header widthMm heightMm _ List.mem_cons_self, ⟨hname.1, hname.2.1⟩, hname.2.2,
    ?_, ?_, ?_⟩
  · intro a ha
    obtain rfl : TsplArg.word (numberText widthMm ++ encode " mm") = a := by simpa using ha
    exact (@edged_of (.word _) hwne hwfirst hwlast).1
  · intro a ha
    obtain rfl : TsplArg.word (encode " " ++ numberText heightMm ++ encode " mm") = a := by
      simpa using ha
    obtain ⟨u, hu⟩ := Option.ne_none_iff_exists'.1
      fun h => hhne (List.getLast?_eq_none_iff.1 h)
    refine ⟨u, ?_, hhlast u hu⟩
    rw [TsplArg.written, List.append_assoc, List.getLast?_append_of_ne_nil _ hhne]
    exact hu
  · refine terminators_of_printable (printable_written (by decide) ?_)
    intro a ha
    simp only [List.mem_cons, List.not_mem_nil, or_false] at ha
    rcases ha with rfl | rfl
    · simp [TsplArg.value, needsImageRendering_append, printable_numberText hwidth, hmm]
    · simp [TsplArg.value, needsImageRendering_append, printable_numberText hheight, hmm, hspace]

theorem tsplSourceLine_size {widthMm heightMm : ℚ} (hwidth : decimals widthMm ≠ none)
    (hheight : decimals heightMm ≠ none) (hw : 10 ≤ widthMm ∧ widthMm ≤ 300)
    (hh : 10 ≤ heightMm ∧ heightMm ≤ 300) (hsize : parse.size = none) :
    tsplSourceLine dpi parse (TsplStatement.written (encode "SIZE",
      [.word (numberText widthMm ++ encode " mm"),
        .word (encode " " ++ numberText heightMm ++ encode " mm")]), n) =
      .ok { parse with size := some (widthMm, heightMm) } := by
  obtain ⟨hwne, hwfirst, hwlast⟩ := size_written_edges hwidth
  obtain ⟨hhne, hhfirst, hhlast⟩ := size_written_edges hheight
  have hblank : encode " " = [32] := by decide
  have htrimw : ecmaTrim (numberText widthMm ++ encode " mm") = numberText widthMm ++ encode " mm" :=
    trimBy_eq_self ⟨hwfirst, hwlast⟩
  have htrimh : ecmaTrim (encode " " ++ numberText heightMm ++ encode " mm") =
      numberText heightMm ++ encode " mm" := by
    have hwrap := @trimBy_wrap isEcmaWhitespace (numberText heightMm ++ encode " mm") [32] []
      (by decide) (by simp) ⟨hhfirst, hhlast⟩
    rw [List.append_nil] at hwrap
    rw [hblank, List.append_assoc]
    exact hwrap
  rw [tsplSourceLine_written (readable_size hwidth hheight)]
  simp only [List.map_cons, List.map_nil, TsplArg.value, htrimw, htrimh]
  unfold tsplCommand
  simp only [if_true, hsize, Option.isSome_none, Bool.false_eq_true, if_false]
  rw [requiredArgument_ok rfl hwne]
  show (parseSize _ _ _ >>= _) = _
  rw [parseSize, sizeOf_numberText hwidth hw.1 hw.2]
  show (requiredArgument _ 1 _ _ >>= _) = _
  rw [requiredArgument_ok rfl hhne]
  show (parseSize _ _ _ >>= _) = _
  rw [parseSize, sizeOf_numberText hheight hh.1 hh.2]
  rfl

theorem tsplSourceLine_ignored {line command text : Units}
    (hline : tsplStatement (ecmaTrim line) = some (command, text))
    (hargs : (splitArgumentsFrom false [] text).isSome = true)
    (hcommand : command ≠ encode "SIZE" ∧ command ∈ ignoredTsplCommands) :
    tsplSourceLine dpi parse (line, n) = .ok parse := by
  have hne : ecmaTrim line ≠ [] := by
    intro hnil
    rw [hnil] at hline
    cases hline
  obtain ⟨args, hargs⟩ := Option.isSome_iff_exists.1 hargs
  unfold tsplSourceLine
  simp only [hne, if_false, hline, splitTsplArguments, hargs]
  show tsplCommand dpi parse n line command args = _
  rw [tsplCommand, if_neg hcommand.1, if_pos hcommand.2]

/-- The lines before the elements give the size. -/
theorem run_header {widthMm heightMm : ℚ} (hwidth : decimals widthMm ≠ none)
    (hheight : decimals heightMm ≠ none) (hw : 10 ≤ widthMm ∧ widthMm ≤ 300)
    (hh : 10 ≤ heightMm ∧ heightMm ≤ 300) :
    (((tsplHeader widthMm heightMm).map TsplStatement.written).zipIdx 1).foldlM
      (tsplSourceLine dpi) {} = .ok { size := some (widthMm, heightMm) } := by
  have hgap : tsplStatement (ecmaTrim (TsplStatement.written (encode "GAP",
      [.word (encode "2 mm"), .word (encode " 0 mm")]))) =
      some (encode "GAP", encode "2 mm, 0 mm") := by decide +kernel
  have hdirection : tsplStatement (ecmaTrim (TsplStatement.written (encode "DIRECTION",
      [.word (encode "1")]))) = some (encode "DIRECTION", encode "1") := by decide +kernel
  have hcls : tsplStatement (ecmaTrim (TsplStatement.written (encode "CLS", []))) =
      some (encode "CLS", []) := by decide +kernel
  simp only [tsplHeader, List.map_cons, List.map_nil, List.zipIdx_cons, List.zipIdx_nil,
    List.foldlM_cons, List.foldlM_nil]
  rw [tsplSourceLine_size hwidth hheight hw hh rfl, ok_bind,
    tsplSourceLine_ignored hgap (by decide +kernel) (by decide +kernel), ok_bind,
    tsplSourceLine_ignored hdirection (by decide +kernel) (by decide +kernel), ok_bind,
    tsplSourceLine_ignored hcls (by decide +kernel) (by decide +kernel)]
  rfl

end Header

/-! ## Elements -/

/-- A text that is written as one native statement. -/
structure LabelTextStyle.Plain (style : LabelTextStyle) : Prop where
  maxWidthMm : style.maxWidthMm = none
  lineHeight : style.lineHeight = none
  fontFamily : style.fontFamily = none
  decimals : decimals style.fontSizePt ≠ none

instance (style : LabelTextStyle) : Decidable style.Plain :=
  decidable_of_iff (style.maxWidthMm = none ∧ style.lineHeight = none ∧ style.fontFamily = none ∧
    Markiro.decimals style.fontSizePt ≠ none)
    ⟨fun h => ⟨h.1, h.2.1, h.2.2.1, h.2.2.2⟩, fun h => ⟨h.1, h.2, h.3, h.4⟩⟩

/-- An element the round trip is claimed of: no wrapped or rasterized text, values that are printable
and no placeholder, sizes of a dot or more, a valid SSCC, no logo. -/
def LabelElement.Exportable (data : LabelData) (dpi : PrinterDpi) : LabelElement → Prop
  | .text e => e.toLabelTextStyle.Plain ∧ e.text ≠ [] ∧ PrintableLiteral e.text
  | .field e => e.toLabelTextStyle.Plain ∧ displayText e data ≠ [] ∧
      PrintableLiteral (displayText e data)
  | .barcode e => 1 ≤ mmToDots e.sizeMm dpi ∧ (∀ w ∈ e.moduleWidthMm, 1 ≤ mmToDots w dpi) ∧
      (resolveBarcodeSource e.data data).1 ≠ [] ∧
      PrintableLiteral (resolveBarcodeSource e.data data).1 ∧
      (e.format = .code128 → e.data = .field .sscc → isValidSscc (data .sscc) = true)
  | .line e => 1 ≤ mmToDots e.thicknessMm dpi
  | .box e => 1 ≤ mmToDots e.widthMm dpi ∧ 1 ≤ mmToDots e.heightMm dpi ∧
      1 ≤ mmToDots e.thicknessMm dpi
  | .organizationLogo _ => False

instance (data : LabelData) (dpi : PrinterDpi) :
    (e : LabelElement) → Decidable (e.Exportable data dpi)
  | .text _ | .field _ | .barcode _ | .line _ | .box _ | .organizationLogo _ => by
    dsimp only [LabelElement.Exportable]
    infer_instance

def tsplSizeDots (e : LabelBarcodeElement) (dpi : PrinterDpi) : ℤ :=
  if e.format = .qr then max 1 (min 10 (mmToDots e.sizeMm dpi)) else mmToDots e.sizeMm dpi

/-- What an element's statement is imported as, when it is taken: values lose the blanks at their
edges, fields become texts and a barcode loses the width of its bars. -/
def importedTspl (data : LabelData) (dpi : PrinterDpi) (k : ℕ) : LabelElement → LabelElement
  | .text e => .text {
      toLabelTextStyle := tsplStyle k (mmToDots e.xMm dpi) (mmToDots e.yMm dpi) e.fontSizePt dpi
      text := ecmaTrim e.text }
  | .field e => .text {
      toLabelTextStyle := tsplStyle k (mmToDots e.xMm dpi) (mmToDots e.yMm dpi) e.fontSizePt dpi
      text := ecmaTrim (displayText e data) }
  | .barcode e => .barcode {
      id := importedElementId .tspl k
      xMm := dotsToMm (mmToDots e.xMm dpi) dpi
      yMm := dotsToMm (mmToDots e.yMm dpi) dpi
      format := e.format
      data := if e.format = .code128 ∧ e.data = .field .sscc then .field .sscc
        else .literal (ecmaTrim (resolveBarcodeSource e.data data).1)
      sizeMm := max (1 / 10) (dotsToMm (tsplSizeDots e dpi) dpi) }
  | .line e =>
    let thicknessDots := mmToDots e.thicknessMm dpi
    .line (tsplLine k (mmToDots (min e.xMm e.x2Mm) dpi) (mmToDots (min e.yMm e.y2Mm) dpi)
      (max (mmToDots |e.x2Mm - e.xMm| dpi) thicknessDots)
      (max (mmToDots |e.y2Mm - e.yMm| dpi) thicknessDots) dpi)
  | .box e => .box ⟨importedElementId .tspl k, dotsToMm (mmToDots e.xMm dpi) dpi,
      dotsToMm (mmToDots e.yMm dpi) dpi, dotsToMm (mmToDots e.widthMm dpi) dpi,
      dotsToMm (mmToDots e.heightMm dpi) dpi,
      max (1 / 10) (dotsToMm (mmToDots e.thicknessMm dpi) dpi)⟩
  | .organizationLogo e => .organizationLogo { e with id := importedElementId .tspl k }

/-- Whether an element's statement is taken: a value of blanks leaves no argument, and a text that
reads as an alignment leaves none for the text. -/
def LabelElement.Taken (data : LabelData) : LabelElement → Prop
  | .text e => TextTaken (ecmaTrim e.text)
  | .field e => TextTaken (ecmaTrim (displayText e data))
  | .barcode e => ecmaTrim (resolveBarcodeSource e.data data).1 ≠ []
  | _ => True

instance (data : LabelData) : (e : LabelElement) → Decidable (e.Taken data)
  | .text _ | .field _ | .barcode _ | .line _ | .box _ | .organizationLogo _ => by
    dsimp only [LabelElement.Taken]
    infer_instance

section Elements

variable {data : LabelData} {dpi : PrinterDpi} {parse : TsplParse} {n : ℕ}

theorem textStatements_plain {style : LabelTextStyle} (h : style.Plain) (value : Units) :
    textStatements style value dpi = [(encode "TEXT",
      [dots (mmToDots style.xMm dpi), dots (mmToDots style.yMm dpi), .string (encode "0"),
        .word (encode "0"), .word (numberText style.fontSizePt),
        .word (numberText style.fontSizePt), .string value])] := by
  simp [textStatements, wrapNativeText, h.maxWidthMm, nativeAlignOffsetDots, rasterAlignOffsetDots]

theorem tsplCommand_element {command source : Units} {args : List Units}
    {read : List Units → ℕ → Units → PrinterDpi → ℕ → Labels LabelElement}
    (hread : tsplElementParser command = some read)
    (hcommand : command ≠ encode "SIZE" ∧ command ∉ ignoredTsplCommands) :
    tsplCommand dpi parse n source command args =
      read args n source dpi (parse.elements.length + 1) >>= fun element =>
        addElement parse element n := by
  rw [tsplCommand, if_neg hcommand.1, if_neg hcommand.2, hread]

/-- What becomes of an element's statement. -/
structure ReadAs (data : LabelData) (dpi : PrinterDpi) (e : LabelElement) (st : TsplStatement) :
    Prop where
  statements : e.statements data dpi = [st]
  readable : st.Readable
  line : ∀ (parse : TsplParse) (n : ℕ), tsplSourceLine dpi parse (st.written, n) =
    if e.Taken data then addElement parse (importedTspl data dpi (parse.elements.length + 1) e) n
    else missingArgument n st.written

@[simp] theorem value_word (text : Units) : (TsplArg.word text).value = text := rfl

@[simp] theorem value_string (value : Units) : (TsplArg.string value).value = value := rfl

@[simp] theorem ecmaTrim_dots (z : ℤ) : ecmaTrim (dots z).value = numberText z :=
  ecmaTrim_numberText z

@[simp] theorem printable_dots (z : ℤ) : needsImageRendering (dots z).value = false :=
  printable_numberText (by simp)

theorem ecmaTrim_decimal {q : ℚ} (hq : decimals q ≠ none) : ecmaTrim
    (numberText q) = numberText q :=
  ecmaTrim_eq_self fun u hu => isNumberUnit_not_blank ((numberText_units hq).2 u hu)

theorem ReadAs.of {e : LabelElement} {name : Units} {x : ℤ} {args : List TsplArg} {last : TsplArg}
    {read : List Units → ℕ → Units → PrinterDpi → ℕ → Labels LabelElement}
    (hstatements : e.statements data dpi = [(name, dots x :: args)])
    (hname : name ≠ [] ∧ name.all isLetter = true ∧ asciiUpper name = name ∧
      name ≠ encode "SIZE" ∧ name ∉ ignoredTsplCommands)
    (hread : tsplElementParser name = some read)
    (hlast : (dots x :: args).getLast? = some last) (hedged : last.Edged)
    (hprintable : ∀ a ∈ args, needsImageRendering a.value = false)
    (hparsed : ∀ (source : Units) (n k : ℕ),
      read ((dots x :: args).map fun b => ecmaTrim b.value) n source dpi k =
        if e.Taken data then .ok (importedTspl data dpi k e) else missingArgument n source) :
    ReadAs data dpi e (name, dots x :: args) := by
  obtain ⟨hne, hletters, hupper, hsize, hignored⟩ := hname
  have hclean : TsplStatement.Clean (name, dots x :: args) :=
    clean_statements e _ (by rw [hstatements]; exact List.mem_cons_self)
  have hreadable : TsplStatement.Readable (name, dots x :: args) := by
    refine readable_of_printable ⟨hne, hletters, hupper⟩ hclean ?_ ?_ ?_
    · intro a ha
      obtain rfl : dots x = a := by simpa using ha
      exact edged_dots x
    · intro a ha
      rw [hlast] at ha
      cases ha
      exact hedged
    · intro a ha
      rcases List.mem_cons.1 ha with rfl | ha
      · exact printable_dots x
      · exact hprintable a ha
  refine ⟨hstatements, hreadable, fun parse n => ?_⟩
  rw [tsplSourceLine_written hreadable, tsplCommand_element hread ⟨hsize, hignored⟩, hparsed]
  split
  · rfl
  · rfl

theorem parser_TEXT : tsplElementParser (encode "TEXT") = some parseText := rfl

theorem parser_BARCODE : tsplElementParser (encode "BARCODE") = some parseBarcode := rfl

theorem parser_DMATRIX : tsplElementParser (encode "DMATRIX") = some parseDmatrix := rfl

theorem parser_QRCODE : tsplElementParser (encode "QRCODE") = some parseQrcode := rfl

theorem parser_BAR : tsplElementParser (encode "BAR") = some parseBar := rfl

theorem parser_BOX : tsplElementParser (encode "BOX") = some parseBox := rfl

theorem readAs_text {style : LabelTextStyle} (hvalid : style.Valid) (hplain : style.Plain)
    {value : Units} (hvalue : PrintableLiteral value) {e : LabelElement}
    (hstatements : e.statements data dpi = textStatements style value dpi)
    (htaken : e.Taken data ↔ TextTaken (ecmaTrim value))
    (himported : ∀ k, importedTspl data dpi k e = .text {
      toLabelTextStyle := tsplStyle k (mmToDots style.xMm dpi) (mmToDots style.yMm dpi)
        style.fontSizePt dpi
      text := ecmaTrim value }) : ∃ st, ReadAs data dpi e st := by
  have h0 : ecmaTrim (encode "0") = encode "0" := by decide
  have hprint0 : needsImageRendering (encode "0") = false := by decide
  have hsize := printable_numberText hplain.decimals
  refine ⟨_, .of (hstatements.trans (textStatements_plain hplain value)) (by decide)
    parser_TEXT rfl (edged_string value) ?_ fun source n k => ?_⟩
  · simp [hprint0, hsize, hvalue.1]
  · simp only [htaken, himported]
    refine parseText_eq _ _ hplain.decimals hvalid.2.1.1 hvalid.2.1.2 hvalue.2.trim ?_
    simp [h0, ecmaTrim_decimal hplain.decimals]

theorem readAs_bar {x y width height : ℤ} (hw : 0 < width) (hh : 0 < height) {e : LabelElement}
    (hstatements : e.statements data dpi = [barStatement x y width height])
    (htaken : e.Taken data)
    (himported : ∀ k, importedTspl data dpi k e = .line (tsplLine k x y width height dpi)) :
    ∃ st, ReadAs data dpi e st := by
  refine ⟨_, .of hstatements (by decide) parser_BAR rfl (edged_dots _) ?_ fun source n k => ?_⟩
  · simp
  · rw [if_pos htaken, himported]
    exact parseBar_eq hw hh (by simp)

theorem readAs_box {x y width height thickness : ℤ} (hw : 0 < width) (hh : 0 < height)
    {e : LabelElement}
    (hstatements : e.statements data dpi = [boxStatement x y width height thickness])
    (htaken : e.Taken data)
    (himported : ∀ k, importedTspl data dpi k e = .box ⟨importedElementId .tspl k, dotsToMm x dpi,
      dotsToMm y dpi, dotsToMm width dpi, dotsToMm height dpi,
      max (1 / 10) (dotsToMm thickness dpi)⟩) : ∃ st, ReadAs data dpi e st := by
  refine ⟨_, .of hstatements (by decide) parser_BOX rfl (edged_dots _) ?_ fun source n k => ?_⟩
  · simp
  · rw [if_pos htaken, himported]
    exact parseBox_eq hw hh (by simp)

section Barcodes

variable {e : LabelBarcodeElement}

theorem readAs_linear {type value : Units} (htype : needsImageRendering type = false)
    (htrim : ecmaTrim type = type) (hvalue : tsplBarcodeValue e data = value)
    (hprintable : needsImageRendering value = false)
    (hstatement : barcodeStatement e data dpi = linearStatement type e data dpi)
    (hparsed : ∀ (source : Units) (n k : ℕ), parseBarcode [numberText (mmToDots e.xMm dpi),
      numberText (mmToDots e.yMm dpi), type, numberText (mmToDots e.sizeMm dpi), encode "0",
      encode "0", numberText (narrowDots e dpi), numberText (narrowDots e dpi), ecmaTrim value]
      n source dpi k =
        if (LabelElement.barcode e).Taken data then .ok (importedTspl data dpi k (.barcode e))
        else missingArgument n source) : ∃ st, ReadAs data dpi (.barcode e) st := by
  have h0 : needsImageRendering (encode "0") = false ∧ ecmaTrim (encode "0") = encode "0" := by
    decide +kernel
  refine ⟨_, .of (congrArg (fun st => [st]) hstatement) (by decide) parser_BARCODE rfl
    (edged_string _) ?_ fun source n k => ?_⟩
  · simp [h0, htype, hvalue, hprintable]
  · rw [← hparsed]
    simp [h0, htrim, hvalue]

theorem readAs_literal {type : Units} {format : BarcodeFormat} (hformat : e.format = format)
    (hsscc : ¬(e.format = .code128 ∧ e.data = .field .sscc)) (hqr : format ≠ .qr)
    (hvalue : PrintableLiteral (resolveBarcodeSource e.data data).1)
    (hstatement : barcodeStatement e data dpi = linearStatement type e data dpi)
    (htype : needsImageRendering type = false ∧ ecmaTrim type = type ∧ asciiUpper type = type ∧
      tsplBarcodeFormat type = some format ∧ type ≠ [] ∧ type ≠ encode "EAN128") :
    ∃ st, ReadAs data dpi (.barcode e) st := by
  subst hformat
  obtain ⟨hprint, htrim, hupper, hread, hne, hean⟩ := htype
  refine readAs_linear hprint htrim (if_neg hsscc) hvalue.1 hstatement fun source n k => ?_
  rw [parseBarcode_eq _ _ _ _ hupper hread hne hean hvalue.2.trim rfl]
  simp only [LabelElement.Taken, importedTspl, hsscc, if_false, tsplSizeDots, hqr]

theorem isValidSscc_digits {sscc : Units} (h : isValidSscc sscc = true) :
    ∀ u ∈ sscc, isDigit u = true := by
  rw [isValidSscc, Bool.and_eq_true] at h
  exact (isDigits_iff.1 h.1).2

theorem readAs_sscc (hformat : e.format = .code128) (hbound : e.data = .field .sscc)
    (hne : (resolveBarcodeSource e.data data).1 ≠ []) (hvalid : isValidSscc (data .sscc) = true) :
    ∃ st, ReadAs data dpi (.barcode e) st := by
  have hdigits := isValidSscc_digits hvalid
  have h00 : encode "00" = [48, 48] := by decide
  have hunits : ∀ u ∈ encode "00" ++ data .sscc, isNumberUnit u = true := by
    intro u hu
    rw [h00] at hu
    simp only [List.cons_append, List.nil_append, List.mem_cons] at hu
    rcases hu with rfl | rfl | hu
    · decide +kernel
    · decide +kernel
    · exact isNumberUnit_of_isDigit (hdigits u hu)
  have htrim : ecmaTrim (encode "00" ++ data .sscc) = encode "00" ++ data .sscc :=
    ecmaTrim_eq_self fun u hu => isNumberUnit_not_blank (hunits u hu)
  have hprint : needsImageRendering (encode "00" ++ data .sscc) = false := by
    refine printable_of_bounds fun u hu => ?_
    have := isNumberUnit_bounds (hunits u hu)
    omega
  have hresolved : (resolveBarcodeSource e.data data).1 = data .sscc := by
    rw [hbound]
    rfl
  have htaken : (LabelElement.barcode e).Taken data := by
    show ecmaTrim (resolveBarcodeSource e.data data).1 ≠ []
    rw [ecmaTrim_eq_self]
    · exact hne
    · intro u hu
      rw [hresolved] at hu
      exact isNumberUnit_not_blank (isNumberUnit_of_isDigit (hdigits u hu))
  have htype : needsImageRendering (encode "EAN128") = false ∧
      ecmaTrim (encode "EAN128") = encode "EAN128" := by decide +kernel
  refine readAs_linear htype.1 htype.2 (if_pos ⟨hformat, hbound⟩) hprint
    (by simp [barcodeStatement, hformat, hbound]) fun source n k => ?_
  rw [htrim, parseBarcode_sscc _ _ _ _ hvalid rfl, if_pos htaken]
  simp [importedTspl, hformat, hbound, tsplSizeDots]

theorem readAs_matrix {name : Units} {args : List TsplArg}
    {read : List Units → ℕ → Units → PrinterDpi → ℕ → Labels LabelElement}
    (hformat : e.format ≠ .code128)
    (hprintable : needsImageRendering (resolveBarcodeSource e.data data).1 = false)
    (hstatement : barcodeStatement e data dpi = (name, dots (mmToDots e.xMm dpi) :: (args ++
      [.string (tsplBarcodeValue e data)])))
    (hname : name ≠ [] ∧ name.all isLetter = true ∧ asciiUpper name = name ∧
      name ≠ encode "SIZE" ∧ name ∉ ignoredTsplCommands)
    (hread : tsplElementParser name = some read)
    (hargs : ∀ a ∈ args, needsImageRendering a.value = false)
    (hparsed : ∀ (source : Units) (n k : ℕ), read (numberText (mmToDots e.xMm dpi) ::
      ((args.map fun b => ecmaTrim b.value) ++ [ecmaTrim (resolveBarcodeSource e.data data).1]))
        n source dpi k =
      if ecmaTrim (resolveBarcodeSource e.data data).1 ≠ [] then
        .ok (tsplMatrix k (mmToDots e.xMm dpi) (mmToDots e.yMm dpi) (tsplSizeDots e dpi) e.format
          (ecmaTrim (resolveBarcodeSource e.data data).1) dpi)
      else missingArgument n source) : ∃ st, ReadAs data dpi (.barcode e) st := by
  have hvalue : tsplBarcodeValue e data = (resolveBarcodeSource e.data data).1 :=
    if_neg fun h => hformat h.1
  rw [hvalue] at hstatement
  have hlast : (dots (mmToDots e.xMm dpi) :: (args ++
      [TsplArg.string (resolveBarcodeSource e.data data).1])).getLast? =
      some (.string (resolveBarcodeSource e.data data).1) := by
    rw [← List.cons_append, List.getLast?_concat]
  refine ⟨_, .of (congrArg (fun st => [st]) hstatement) hname hread hlast (edged_string _) ?_
    fun source n k => ?_⟩
  · intro a ha
    rcases List.mem_append.1 ha with ha | ha
    · exact hargs a ha
    · rw [List.mem_singleton.1 ha]
      exact hprintable
  · simp only [List.map_cons, List.map_append, List.map_nil, ecmaTrim_dots, value_string, hparsed]
    simp only [LabelElement.Taken, importedTspl, hformat, false_and, if_false, tsplMatrix]

theorem readAs_barcode (h : (LabelElement.barcode e).Exportable data dpi) :
    ∃ st, ReadAs data dpi (.barcode e) st := by
  obtain ⟨-, -, hne, hvalue, hsscc⟩ := h
  cases hformat : e.format with
  | code128 =>
    by_cases hbound : e.data = .field .sscc
    · exact readAs_sscc hformat hbound hne (hsscc hformat hbound)
    · have htype : needsImageRendering (encode "128") = false ∧
          ecmaTrim (encode "128") = encode "128" ∧ asciiUpper (encode "128") = encode "128" ∧
          tsplBarcodeFormat (encode "128") = some .code128 ∧ encode "128" ≠ [] ∧
          encode "128" ≠ encode "EAN128" := by decide
      exact readAs_literal hformat (fun h => hbound h.2) (by simp) hvalue
        (by simp [barcodeStatement, hformat, hbound]) htype
  | ean13 =>
    have htype : needsImageRendering (encode "EAN13") = false ∧
        ecmaTrim (encode "EAN13") = encode "EAN13" ∧ asciiUpper (encode "EAN13") = encode "EAN13" ∧
        tsplBarcodeFormat (encode "EAN13") = some .ean13 ∧ encode "EAN13" ≠ [] ∧
        encode "EAN13" ≠ encode "EAN128" := by decide
    exact readAs_literal hformat (by simp [hformat]) (by simp) hvalue
      (by simp [barcodeStatement, hformat]) htype
  | datamatrix =>
    have hstatement : barcodeStatement e data dpi = (encode "DMATRIX", dots (mmToDots e.xMm dpi) ::
        ([dots (mmToDots e.yMm dpi), dots (mmToDots e.sizeMm dpi), dots (mmToDots e.sizeMm dpi)] ++
          [.string (tsplBarcodeValue e data)])) := by
      simp [barcodeStatement, hformat]
    refine readAs_matrix (by simp [hformat]) hvalue.1 hstatement (by decide) parser_DMATRIX
      (by simp) fun source n k => ?_
    have hsize : tsplSizeDots e dpi = mmToDots e.sizeMm dpi := by simp [tsplSizeDots, hformat]
    rw [hsize, hformat]
    exact parseDmatrix_eq _ _ _ hvalue.2.trim (by simp)
  | qr =>
    have hM : needsImageRendering (encode "M") = false ∧ ecmaTrim (encode "M") = encode "M" := by
      decide +kernel
    have hA : needsImageRendering (encode "A") = false ∧ ecmaTrim (encode "A") = encode "A" := by
      decide +kernel
    have h0 : needsImageRendering (encode "0") = false ∧ ecmaTrim (encode "0") = encode "0" := by
      decide +kernel
    have hstatement : barcodeStatement e data dpi = (encode "QRCODE", dots (mmToDots e.xMm dpi) ::
        ([dots (mmToDots e.yMm dpi), .word (encode "M"),
          dots (max 1 (min 10 (mmToDots e.sizeMm dpi))), .word (encode "A"), .word (encode "0")] ++
          [.string (tsplBarcodeValue e data)])) := by
      simp [barcodeStatement, hformat]
    refine readAs_matrix (by simp [hformat]) hvalue.1 hstatement (by decide) parser_QRCODE
      (by simp [hM, hA, h0]) fun source n k => ?_
    have hsize : tsplSizeDots e dpi = max 1 (min 10 (mmToDots e.sizeMm dpi)) := by
      simp [tsplSizeDots, hformat]
    rw [hsize, hformat]
    exact parseQrcode_eq _ _ _ hvalue.2.trim (by simp [hM, hA, h0])

end Barcodes

/-- **Every element's statement is read as the imported element or refused.** -/
theorem exists_readAs {e : LabelElement} (hvalid : e.Valid) (h : e.Exportable data dpi) :
    ∃ st, ReadAs data dpi e st := by
  cases e with
  | text e => exact readAs_text hvalid h.1 h.2.2 rfl Iff.rfl fun _ => rfl
  | field e => exact readAs_text hvalid.1 h.1 h.2.2 rfl Iff.rfl fun _ => rfl
  | barcode e => exact readAs_barcode h
  | line e =>
    have ht : 0 < mmToDots e.thicknessMm dpi := by
      have : 1 ≤ mmToDots e.thicknessMm dpi := h
      omega
    exact readAs_bar (lt_of_lt_of_le ht (le_max_right _ _)) (lt_of_lt_of_le ht (le_max_right _ _))
      rfl trivial fun _ => rfl
  | box e =>
    obtain ⟨hw, hh, -⟩ := h
    exact readAs_box (by omega) (by omega) rfl trivial fun _ => rfl
  | organizationLogo e => exact absurd h (by simp [LabelElement.Exportable])

end Elements

/-! ## Documents -/

def importedTsplAll (data : LabelData) (dpi : PrinterDpi) (k : ℕ) (es : List LabelElement) :
    List LabelElement :=
  (es.zipIdx k).map fun (e, i) => importedTspl data dpi i e

section Run

variable {data : LabelData} {dpi : PrinterDpi} {parse parse' : TsplParse} {n : ℕ}

theorem importedTsplAll_cons (k : ℕ) (e : LabelElement) (es : List LabelElement) :
    importedTsplAll data dpi k (e :: es) =
      importedTspl data dpi k e :: importedTsplAll data dpi (k + 1) es := by
  simp [importedTsplAll, List.zipIdx_cons]

def elementLines (data : LabelData) (dpi : PrinterDpi) (es : List LabelElement) : List Units :=
  (es.flatMap (·.statements data dpi)).map TsplStatement.written

theorem addElement_ok {element : LabelElement} :
    addElement parse element n = .ok parse' ↔ parse.elements.length < maxLabelCodeElements ∧
      parse' = { parse with
        elements := parse.elements ++ [element]
        sourceLineByElementId := parse.sourceLineByElementId ++ [(element.id, n)] } := by
  unfold addElement
  split
  · rename_i h
    exact ⟨fun hok => (by cases hok), fun hlt => absurd hlt.1 (by omega)⟩
  · rename_i h
    rw [Except.ok.injEq]
    exact ⟨fun heq => ⟨by omega, heq.symm⟩, fun heq => heq.2.symm⟩

/-- **The lines of elements are read** exactly when each is taken and they are not too many, and then
as what they are imported as. -/
theorem run_elements {es : List LabelElement}
    (h : ∀ e ∈ es, ∃ st, ReadAs data dpi e st) :
    ((∃ parse', ((elementLines data dpi es).zipIdx n).foldlM (tsplSourceLine dpi) parse =
        .ok parse') ↔
      (∀ e ∈ es, e.Taken data) ∧
        (es = [] ∨ parse.elements.length + es.length ≤ maxLabelCodeElements)) ∧
      ∀ parse', ((elementLines data dpi es).zipIdx n).foldlM (tsplSourceLine dpi) parse =
        .ok parse' →
        parse'.elements = parse.elements ++ importedTsplAll data dpi (parse.elements.length + 1) es ∧
        parse'.size = parse.size ∧ parse'.warnings = parse.warnings := by
  induction es generalizing parse n with
  | nil =>
    refine ⟨⟨fun _ => ⟨by simp, .inl rfl⟩, fun _ => ⟨parse, rfl⟩⟩, fun parse' hrun => ?_⟩
    obtain rfl : parse = parse' := by simpa [elementLines, pure, Except.pure] using hrun
    simp [importedTsplAll]
  | cons e es ih =>
    obtain ⟨st, hst⟩ := h e List.mem_cons_self
    have hlines : (elementLines data dpi (e :: es)).zipIdx n =
        (st.written, n) :: (elementLines data dpi es).zipIdx (n + 1) := by
      simp [elementLines, hst.statements, List.zipIdx_cons]
    have ih := fun parse n => @ih parse n fun e he => h e (List.mem_cons_of_mem _ he)
    -- One step: the element is added when it is taken and there is room.
    have hstep : ∀ parse', tsplSourceLine dpi parse (st.written, n) = .ok parse' ↔
        e.Taken data ∧ parse.elements.length < maxLabelCodeElements ∧ parse' = { parse with
          elements := parse.elements ++ [importedTspl data dpi (parse.elements.length + 1) e]
          sourceLineByElementId := parse.sourceLineByElementId ++
            [((importedTspl data dpi (parse.elements.length + 1) e).id, n)] } := by
      intro parse'
      rw [hst.line]
      split
      · rename_i htaken
        rw [addElement_ok]
        simp [htaken]
      · rename_i htaken
        exact ⟨fun hok => (by cases hok), fun hok => absurd hok.1 htaken⟩
    rw [hlines]
    simp only [List.foldlM_cons, bind_eq_ok, hstep]
    constructor
    · constructor
      · rintro ⟨parse', -, ⟨htaken, hroom, rfl⟩, hrun⟩
        obtain ⟨htakens, hrooms⟩ := (ih _ _).1.1 ⟨parse', hrun⟩
        refine ⟨List.forall_mem_cons.2 ⟨htaken, htakens⟩, .inr ?_⟩
        rcases hrooms with rfl | hrooms
        · exact hroom
        · simp only [List.length_append, List.length_cons] at hrooms ⊢
          omega
      · rintro ⟨htakens, hroom⟩
        obtain ⟨htaken, htakens⟩ := List.forall_mem_cons.1 htakens
        have hroom : parse.elements.length + (es.length + 1) ≤ maxLabelCodeElements := by
          rcases hroom with hnil | hroom
          · cases hnil
          · exact hroom
        obtain ⟨parse', hrun⟩ := (ih { parse with
          elements := parse.elements ++ [importedTspl data dpi (parse.elements.length + 1) e]
          sourceLineByElementId := parse.sourceLineByElementId ++
            [((importedTspl data dpi (parse.elements.length + 1) e).id, n)] } (n + 1)).1.2
          ⟨htakens, .inr (by simp; omega)⟩
        exact ⟨parse', _, ⟨htaken, by omega, rfl⟩, hrun⟩
    · rintro parse' ⟨-, ⟨-, -, rfl⟩, hrun⟩
      obtain ⟨helements, hsize, hwarnings⟩ := (ih _ _).2 parse' hrun
      refine ⟨?_, hsize, hwarnings⟩
      rw [helements, importedTsplAll_cons]
      simp

end Run

end Markiro
