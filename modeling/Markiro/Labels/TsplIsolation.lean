import Markiro.Labels.TsplStatements

/-!
# Label data in TSPL statements

A printer takes a TSPL document a statement a line, with doubled quotes inside a string
(`readTspl`). Quotes are escaped and texts are printable, but the value of a barcode may hold a line
feed, which ends the statement: a document is read as the statements it was made of exactly when no
barcode's value does (`tspl_data_stays_data_iff`).
-/

namespace Markiro

open Utf16

/-! ## Reading as a printer -/

/-- The rest of a string after its opening quote: the value, and what follows the closing quote. -/
def readString : Units → Option (Units × Units)
  | u :: v :: rest =>
    if u = tsplQuote then
      if v = tsplQuote then (readString rest).map fun r => (tsplQuote :: r.1, r.2)
      else some ([], v :: rest)
    else (readString (v :: rest)).map fun r => (u :: r.1, r.2)
  | [u] => if u = tsplQuote then some ([], []) else none
  | [] => none

/-- The pieces between the commas that stand outside strings: the first and the others. -/
def splitPieces (isQuoted : Bool) : Units → Units × List Units
  | [] => ([], [])
  | u :: rest =>
    if u = 44 ∧ isQuoted = false then
      ([], (splitPieces false rest).1 :: (splitPieces false rest).2)
    else
      (u :: (splitPieces (if u = tsplQuote then !isQuoted else isQuoted) rest).1,
        (splitPieces (if u = tsplQuote then !isQuoted else isQuoted) rest).2)

/-- A piece is a string, to its end, or a word. -/
def readArgument : Units → Option TsplArg
  | [] => some (.word [])
  | u :: rest =>
    if u = tsplQuote then
      match readString rest with
      | some (value, []) => some (.string value)
      | _ => none
    else some (.word (u :: rest))

/-- A statement: the command before the first blank, and its arguments. -/
def readStatement (line : Units) : Option TsplStatement :=
  match line.dropWhile (· ≠ 32) with
  | [] => some (line, [])
  | _ :: text =>
    (((splitPieces false text).1 :: (splitPieces false text).2).mapM readArgument).map fun args =>
      (line.takeWhile (· ≠ 32), args)

def readTspl (doc : Units) : Option (List TsplStatement) :=
  (doc.splitOn lineFeed).dropLast.mapM readStatement

/-! ## Reading back one statement -/

/-- A word has neither a comma nor a quote in it. -/
def TsplArg.Clean : TsplArg → Prop
  | .word text => ∀ u ∈ text, u ≠ 44 ∧ u ≠ tsplQuote
  | .string _ => True

/-- A command without blanks, and clean arguments. -/
structure TsplStatement.Clean (st : TsplStatement) : Prop where
  name : ∀ u ∈ st.1, u ≠ 32
  args : ∀ a ∈ st.2, a.Clean

section Statement

theorem escapeTsplString_cons (u : UInt16) (s : Units) : escapeTsplString (u :: s) =
      (if u = tsplQuote then [tsplQuote, tsplQuote] else [u]) ++ escapeTsplString s := by
  rw [escapeTsplString, replaceAll, List.flatMap_cons, escapeTsplString, replaceAll]
  rfl

theorem tsplQuote_ne_comma : tsplQuote ≠ 44 := by decide

theorem splitPieces_string (value rest : Units) :
    splitPieces true (escapeTsplString value ++ tsplQuote :: rest) =
      (escapeTsplString value ++ tsplQuote :: (splitPieces false rest).1,
        (splitPieces false rest).2) := by
  induction value with
  | nil => simp [escapeTsplString, replaceAll, splitPieces, tsplQuote_ne_comma]
  | cons u value ih =>
    rw [escapeTsplString_cons]
    by_cases h : u = tsplQuote
    · simp only [h, if_true, List.cons_append, List.nil_append, splitPieces]
      simp [ih, tsplQuote_ne_comma]
    · simp only [h, if_false, List.cons_append, List.nil_append, splitPieces]
      simp [ih]

theorem splitPieces_word {text : Units} (h : ∀ u ∈ text, u ≠ 44 ∧ u ≠ tsplQuote) (rest : Units) :
    splitPieces false (text ++ rest) =
      (text ++ (splitPieces false rest).1, (splitPieces false rest).2) := by
  induction text with
  | nil => rfl
  | cons u text ih =>
    obtain ⟨h44, hquote⟩ := h u List.mem_cons_self
    rw [List.cons_append, splitPieces]
    simp [h44, hquote, ih fun v hv => h v (List.mem_cons_of_mem _ hv)]

theorem splitPieces_written {a : TsplArg} (h : a.Clean) (rest : Units) :
    splitPieces false (a.written ++ rest) =
      (a.written ++ (splitPieces false rest).1, (splitPieces false rest).2) := by
  cases a with
  | word text => exact splitPieces_word h rest
  | string value =>
    have hstring := splitPieces_string value rest
    rw [TsplArg.written, List.cons_append, List.append_assoc, List.singleton_append, splitPieces]
    simp [hstring, tsplQuote_ne_comma]

theorem splitPieces_join {a : TsplArg} {args : List TsplArg} (h : ∀ b ∈ a :: args, b.Clean) :
    splitPieces false (joinWith [44] ((a :: args).map TsplArg.written)) =
      (a.written, args.map TsplArg.written) := by
  induction args generalizing a with
  | nil =>
    have := splitPieces_written (h a List.mem_cons_self) []
    simpa [splitPieces] using this
  | cons b args ih =>
    have hrest := ih fun c hc => h c (List.mem_cons_of_mem _ hc)
    rw [List.map_cons, List.map_cons, join_cons_cons, ← List.map_cons,
      splitPieces_written (h a List.mem_cons_self), List.singleton_append, splitPieces, hrest]
    simp

theorem readString_escaped (value : Units) :
    readString (escapeTsplString value ++ [tsplQuote]) = some (value, []) := by
  induction value with
  | nil => simp [escapeTsplString, replaceAll, readString]
  | cons u value ih =>
    rw [escapeTsplString_cons]
    by_cases h : u = tsplQuote
    · simp only [h, if_true, List.cons_append, List.nil_append, readString, ih]
      rfl
    · simp only [h, if_false, List.cons_append, List.nil_append]
      cases htail : escapeTsplString value ++ [tsplQuote] with
      | nil => simp at htail
      | cons v rest =>
        rw [htail] at ih
        rw [readString, if_neg h, ih]
        rfl

theorem readArgument_written {a : TsplArg} (h : a.Clean) : readArgument a.written = some a := by
  cases a with
  | word text =>
    cases text with
    | nil => rfl
    | cons u text => simp [TsplArg.written, readArgument, (h u List.mem_cons_self).2]
  | string value =>
    rw [TsplArg.written, readArgument, if_pos rfl, readString_escaped]

/-- **A statement is read as it was written.** -/
theorem readStatement_written {st : TsplStatement} (h : st.Clean) :
    readStatement st.written = some st := by
  obtain ⟨name, args⟩ := st
  cases args with
  | nil =>
    have hdrop : name.dropWhile (· ≠ 32) = [] := by
      rw [List.dropWhile_eq_nil_iff]
      intro u hu
      simpa using h.name u hu
    rw [TsplStatement.written, if_pos rfl, readStatement, hdrop]
  | cons a args =>
    have hdrop : ∀ rest : Units, (name ++ 32 :: rest).dropWhile (· ≠ 32) = 32 :: rest := by
      intro rest
      rw [List.dropWhile_append_of_pos fun u hu => by simpa using h.name u hu]
      simp
    have htake : ∀ rest : Units, (name ++ 32 :: rest).takeWhile (· ≠ 32) = name := by
      intro rest
      rw [List.takeWhile_append_of_pos fun u hu => by simpa using h.name u hu]
      simp
    have hread : ∀ l : List TsplArg, (∀ b ∈ l, b.Clean) →
        (l.map TsplArg.written).mapM readArgument = some l := by
      intro l hl
      induction l with
      | nil => rfl
      | cons b l ih =>
        rw [List.map_cons, List.mapM_cons, readArgument_written (hl b List.mem_cons_self),
          ih fun c hc => hl c (List.mem_cons_of_mem _ hc)]
        rfl
    rw [TsplStatement.written_cons, readStatement, hdrop, htake]
    simp only [splitPieces_join h.args, ← List.map_cons, hread _ h.args, Option.map_some]

end Statement

/-! ## Reading back a document -/

section Document

variable {statements : List TsplStatement}

theorem readTspl_tsplText (hclean : ∀ st ∈ statements, st.Clean)
    (h : ∀ st ∈ statements, lineFeed ∉ st.written) :
    readTspl (tsplText statements) = some statements := by
  have hsplit := @Segments.splitOnP_ended UInt16 TsplStatement (· == lineFeed) lineFeed
    TsplStatement.written statements (by decide) (fun st hst u hu => by
      rw [beq_eq_false_iff_ne]
      rintro rfl
      exact h st hst hu)
  have hread : ∀ l : List TsplStatement, (∀ st ∈ l, st.Clean) →
      (l.map TsplStatement.written).mapM readStatement = some l := by
    intro l hl
    induction l with
    | nil => rfl
    | cons st l ih =>
      rw [List.map_cons, List.mapM_cons, readStatement_written (hl st List.mem_cons_self),
        ih fun t ht => hl t (List.mem_cons_of_mem _ ht)]
      rfl
  rw [readTspl, tsplText, List.splitOn_eq_splitOnP, hsplit, List.dropLast_concat]
  exact hread statements hclean

theorem length_of_mapM {α β : Type} {f : α → Option β} {l : List α} {out : List β}
    (h : l.mapM f = some out) : l.length = out.length := by
  induction l generalizing out with
  | nil =>
    cases h
    rfl
  | cons a l ih =>
    rw [List.mapM_cons] at h
    obtain ⟨b, -, h⟩ := Option.bind_eq_some_iff.1 h
    obtain ⟨bs, hbs, h⟩ := Option.bind_eq_some_iff.1 h
    cases h
    rw [List.length_cons, List.length_cons, ih hbs]

theorem length_splitOn (doc : Units) :
    (doc.splitOn lineFeed).dropLast.length = doc.count lineFeed := by
  rw [List.length_dropLast, List.splitOn_eq_splitOnP]
  induction doc with
  | nil => rfl
  | cons u doc ih =>
    have hne := List.splitOnP_ne_nil (· == lineFeed) doc
    have hpos : 0 < (doc.splitOnP (· == lineFeed)).length := List.length_pos_iff.2 hne
    rw [List.splitOnP_cons_eq_if_modifyHead, List.count_cons]
    by_cases h : u = lineFeed
    · simp only [h, beq_self_eq_true, if_true, List.length_cons]
      omega
    · simp only [beq_eq_false_iff_ne.2 h, Bool.false_eq_true, if_false, List.length_modifyHead]
      omega

theorem count_tsplText (statements : List TsplStatement) : (tsplText statements).count lineFeed =
      statements.length + (statements.map fun st => st.written.count lineFeed).sum := by
  induction statements with
  | nil => rfl
  | cons st statements ih =>
    rw [tsplText, List.flatMap_cons, List.count_append, List.count_append, List.map_cons,
      List.sum_cons, List.length_cons]
    have hsingle : [lineFeed].count lineFeed = 1 := rfl
    rw [tsplText] at ih
    omega

/-- **A document is read as its statements exactly when no line feed stands in them.** -/
theorem readTspl_iff (hclean : ∀ st ∈ statements, st.Clean) :
    readTspl (tsplText statements) = some statements ↔
      ∀ st ∈ statements, lineFeed ∉ st.written := by
  refine ⟨fun h => ?_, readTspl_tsplText hclean⟩
  have hlength := length_of_mapM h
  rw [length_splitOn, count_tsplText] at hlength
  intro st hst hmem
  have hsum : (statements.map fun st => st.written.count lineFeed).sum = 0 := by omega
  have hzero := List.sum_eq_zero_iff_forall_eq_nat.1 hsum (st.written.count lineFeed)
    (List.mem_map.2 ⟨st, hst, rfl⟩)
  exact (List.count_pos_iff.2 hmem).ne' hzero

end Document

/-! ## The statements of a template -/

section Template

variable {data : LabelData} {dpi : PrinterDpi}

theorem number_clean (q : ℚ) :
    ∀ u ∈ numberText q, u ≠ 44 ∧ u ≠ tsplQuote ∧ u ≠ lineFeed ∧ u ≠ 32 := by
  intro u hu
  have hunit : isNumberUnit u = true := by
    by_cases h : decimals q = none
    · simp [numberText, h] at hu
    · exact (numberText_units h).2 u hu
  refine ⟨?_, ?_, ?_, ?_⟩
  all_goals
    rintro rfl
    exact absurd hunit (by decide)

theorem clean_number (q : ℚ) : (TsplArg.word (numberText q)).Clean := fun u hu =>
  ⟨(number_clean q u hu).1, (number_clean q u hu).2.1⟩

def TsplArg.Unbroken : TsplArg → Prop
  | .word text => lineFeed ∉ text
  | .string value => lineFeed ∉ value

theorem unbroken_word {text : Units} : (TsplArg.word text).Unbroken ↔ lineFeed ∉ text := Iff.rfl

theorem unbroken_string {value : Units} : (TsplArg.string value).Unbroken ↔ lineFeed ∉ value :=
  Iff.rfl

theorem unbroken_number (q : ℚ) : (TsplArg.word (numberText q)).Unbroken := fun hmem =>
  (number_clean q _ hmem).2.2.1 rfl

theorem lineFeed_mem_escaped {value : Units} :
    lineFeed ∈ escapeTsplString value ↔ lineFeed ∈ value := by
  rw [escapeTsplString, replaceAll, List.mem_flatMap]
  constructor
  · rintro ⟨u, hu, hmem⟩
    split at hmem
    · exact absurd hmem (by decide)
    · rw [List.mem_singleton.1 hmem]
      exact hu
  · intro hmem
    exact ⟨lineFeed, hmem, by simp [lineFeed]⟩

theorem TsplArg.unbroken_iff (a : TsplArg) : a.Unbroken ↔ lineFeed ∉ a.written := by
  cases a with
  | word text => rfl
  | string value =>
    have hne : lineFeed ≠ tsplQuote := by decide
    simp [TsplArg.Unbroken, TsplArg.written, lineFeed_mem_escaped, hne]

theorem mem_join_iff {u v : UInt16} (l : List Units) (hne : u ≠ v) :
    u ∈ joinWith [v] l ↔ ∃ s ∈ l, u ∈ s := by
  induction l with
  | nil => simp [joinWith]
  | cons a l ih =>
    cases l with
    | nil => simp
    | cons b l =>
      rw [join_cons_cons, List.mem_append, List.mem_append, ih]
      simp [hne]

theorem TsplStatement.unbroken_iff {name : Units} {args : List TsplArg} (hname : lineFeed ∉ name) :
    lineFeed ∉ TsplStatement.written (name, args) ↔ ∀ a ∈ args, a.Unbroken := by
  cases args with
  | nil => simpa [TsplStatement.written] using hname
  | cons a args =>
    have h32 : lineFeed ≠ 32 := by decide
    rw [TsplStatement.written_cons, List.mem_append, List.mem_cons, mem_join_iff _ (by decide)]
    simp only [hname, h32, false_or, List.mem_map, not_exists, not_and]
    constructor
    · intro h b hb
      rw [TsplArg.unbroken_iff]
      exact h b.written ⟨b, hb, rfl⟩
    · rintro h s ⟨b, hb, rfl⟩
      rw [← TsplArg.unbroken_iff]
      exact h b hb

/-! ### Wrapped lines -/

variable {measure : Units → ℚ} {u : UInt16} {maxWidth : ℚ}

theorem mem_clipBetween {text : Units} {lo hi : ℕ}
    (h : u ∈ clipBetween text measure maxWidth lo hi) :
    u ∈ text ∨ u ∈ wrapEllipsis := by
  induction lo, hi using clipBetween.induct text measure maxWidth with
  | case1 lo hi hlt mid hfits ih =>
    rw [clipBetween, dif_pos hlt] at h
    exact ih (by simpa [mid, hfits] using h)
  | case2 lo hi hlt mid hfits ih =>
    rw [clipBetween, dif_pos hlt] at h
    exact ih (by simpa [mid, hfits] using h)
  | case3 lo hi hge =>
    rw [clipBetween, dif_neg hge] at h
    exact (List.mem_append.1 h).imp_left List.mem_of_mem_take

theorem mem_clipWithEllipsis {text : Units}
    (h : u ∈ clipWithEllipsis text measure maxWidth) : u ∈ text ∨ u ∈ wrapEllipsis := by
  unfold clipWithEllipsis at h
  split at h
  · cases h
  · exact mem_clipBetween h

theorem mem_charactersOf {s c : Units} (hc : c ∈ charactersOf s) (hu : u ∈ c) : u ∈ s := by
  induction s using charactersOf.induct with
  | case1 a b rest hpair ih =>
    rw [charactersOf, if_pos hpair] at hc
    rcases List.mem_cons.1 hc with rfl | hc
    · simp only [List.mem_cons, List.not_mem_nil, or_false] at hu
      rcases hu with rfl | rfl
      · exact List.mem_cons_self
      · exact List.mem_cons_of_mem _ List.mem_cons_self
    · exact List.mem_cons_of_mem _ (List.mem_cons_of_mem _ (ih hc))
  | case2 a b rest hpair ih =>
    rw [charactersOf, if_neg hpair] at hc
    rcases List.mem_cons.1 hc with rfl | hc
    · rw [List.mem_singleton.1 hu]
      exact List.mem_cons_self
    · exact List.mem_cons_of_mem _ (ih hc)
  | case3 a =>
    rw [charactersOf, List.mem_singleton] at hc
    rw [hc] at hu
    exact hu
  | case4 => cases hc

theorem mem_breakCharacters {chars : List Units}
    {current l : Units} (hl : l ∈ breakCharacters measure maxWidth current chars)
    (hu : u ∈ l) : u ∈ current ∨ ∃ c ∈ chars, u ∈ c := by
  induction chars generalizing current with
  | nil =>
    rw [breakCharacters] at hl
    split at hl
    · cases hl
    · rw [List.mem_singleton.1 hl] at hu
      exact .inl hu
  | cons c chars ih =>
    rw [breakCharacters] at hl
    split at hl
    · rcases List.mem_cons.1 hl with rfl | hl
      · exact .inl hu
      · rcases ih hl with h | ⟨d, hd, h⟩
        · exact .inr ⟨c, List.mem_cons_self, h⟩
        · exact .inr ⟨d, List.mem_cons_of_mem _ hd, h⟩
    · rcases ih hl with h | ⟨d, hd, h⟩
      · rcases List.mem_append.1 h with h | h
        · exact .inl h
        · exact .inr ⟨c, List.mem_cons_self, h⟩
      · exact .inr ⟨d, List.mem_cons_of_mem _ hd, h⟩

theorem mem_breakLongWord {word : Units} {l : Units} (hl : l ∈ breakLongWord word measure maxWidth)
    (hu : u ∈ l) : u ∈ word := by
  unfold breakLongWord at hl
  simp only at hl
  split at hl
  · rw [List.mem_singleton.1 hl] at hu
    exact hu
  · rcases mem_breakCharacters hl hu with h | ⟨c, hc, h⟩
    · cases h
    · exact mem_charactersOf hc h

theorem mem_wrapWords {words : List Units}
    {current l : Units} (hl : l ∈ wrapWords measure maxWidth current words)
    (hu : u ∈ l) : u ∈ current ∨ (∃ w ∈ words, u ∈ w) ∨ u ∈ encode " " := by
  induction words generalizing current with
  | nil =>
    rw [wrapWords] at hl
    split at hl
    · cases hl
    · rw [List.mem_singleton.1 hl] at hu
      exact .inl hu
  | cons word words ih =>
    have hlater : ∀ {c : Units}, l ∈ wrapWords measure maxWidth c words → (u ∈ c → u ∈ current ∨
        u ∈ word ∨ u ∈ encode " ") →
        u ∈ current ∨ (∃ w ∈ word :: words, u ∈ w) ∨ u ∈ encode " " := by
      intro c hc hcur
      rcases ih hc with h | ⟨w, hw, h⟩ | h
      · rcases hcur h with h | h | h
        · exact .inl h
        · exact .inr (.inl ⟨word, List.mem_cons_self, h⟩)
        · exact .inr (.inr h)
      · exact .inr (.inl ⟨w, List.mem_cons_of_mem _ hw, h⟩)
      · exact .inr (.inr h)
    have hflushed : l ∈ (if current = [] then [] else [current]) → u ∈ current := by
      intro h
      split at h
      · cases h
      · rw [List.mem_singleton.1 h] at hu
        exact hu
    rw [wrapWords] at hl
    simp only at hl
    by_cases hfits : measure (if current = [] then word else current ++ encode " " ++ word) ≤
        maxWidth
    · rw [if_pos hfits] at hl
      refine hlater hl fun h => ?_
      split at h
      · exact .inr (.inl h)
      · rcases List.mem_append.1 h with h | h
        · rcases List.mem_append.1 h with h | h
          · exact .inl h
          · exact .inr (.inr h)
        · exact .inr (.inl h)
    rw [if_neg hfits] at hl
    by_cases hword : measure word ≤ maxWidth
    · rw [if_pos hword] at hl
      rcases List.mem_append.1 hl with hl | hl
      · exact .inl (hflushed hl)
      · exact hlater hl fun h => .inr (.inl h)
    · rw [if_neg hword] at hl
      rcases List.mem_append.1 hl with hl | hl
      · rcases List.mem_append.1 hl with hl | hl
        · exact .inl (hflushed hl)
        · exact .inr (.inl ⟨word, List.mem_cons_self,
            mem_breakLongWord (List.dropLast_subset _ hl) hu⟩)
      · refine hlater hl fun h => .inr (.inl ?_)
        cases hlast : (breakLongWord word measure maxWidth).getLast? with
        | none =>
          rw [List.getLastD_eq_getLast?, hlast] at h
          cases h
        | some chunk =>
          rw [List.getLastD_eq_getLast?, hlast] at h
          exact mem_breakLongWord (List.mem_of_getLast? hlast) h

theorem mem_wordsOf {text w : Units} (hw : w ∈ wordsOf text) (hu : u ∈ w) : u ∈ text := by
  have hsplit : ∀ {t w : Units}, w ∈ t.splitOnP isEcmaWhitespace → u ∈ w → u ∈ t := by
    intro t
    induction t with
    | nil =>
      intro w hw huw
      simp at hw
      rw [hw] at huw
      exact huw
    | cons v t ih =>
      intro w hw huw
      rw [List.splitOnP_cons_eq_if_modifyHead] at hw
      split at hw
      · rcases List.mem_cons.1 hw with rfl | hw
        · cases huw
        · exact List.mem_cons_of_mem _ (ih hw huw)
      · cases hparts : t.splitOnP isEcmaWhitespace with
        | nil =>
          rw [hparts] at hw
          simp at hw
        | cons first others =>
          rw [hparts] at hw ih
          rw [List.modifyHead_cons] at hw
          rcases List.mem_cons.1 hw with rfl | hw
          · rcases List.mem_cons.1 huw with rfl | huw
            · exact List.mem_cons_self
            · exact List.mem_cons_of_mem _ (ih List.mem_cons_self huw)
          · exact List.mem_cons_of_mem _ (ih (List.mem_cons_of_mem _ hw) huw)
  exact hsplit (List.mem_of_mem_filter hw) hu

/-- The units of a wrapped line are the text's, blanks and the ellipsis. -/
theorem mem_wrapTextToWidth {text l : Units} {n : ℚ}
    (hl : l ∈ wrapTextToWidth text measure maxWidth n) (hu : u ∈ l) :
    u ∈ text ∨ u ∈ encode " " ∨ u ∈ wrapEllipsis := by
  have hwords : ∀ l ∈ wrapWords measure maxWidth [] (wordsOf text), u ∈ l →
      u ∈ text ∨ u ∈ encode " " ∨ u ∈ wrapEllipsis := by
    intro l hl hu
    rcases mem_wrapWords hl hu with h | ⟨w, hw, h⟩ | h
    · cases h
    · exact .inl (mem_wordsOf hw h)
    · exact .inr (.inl h)
  have hself : l = text → u ∈ text ∨ u ∈ encode " " ∨ u ∈ wrapEllipsis := by
    rintro rfl
    exact .inl hu
  unfold wrapTextToWidth at hl
  split at hl
  · exact hself (List.mem_singleton.1 hl)
  simp only at hl
  split at hl
  · exact hself (List.mem_singleton.1 hl)
  split at hl
  · rw [List.mem_singleton.1 hl] at hu
    cases hu
  split at hl
  · exact hwords l hl hu
  · rcases List.mem_append.1 hl with hl | hl
    · exact hwords l (List.mem_of_mem_take hl) hu
    · rw [List.mem_singleton.1 hl] at hu
      rcases mem_clipWithEllipsis hu with hu | hu
      · cases hlast : ((wrapWords measure maxWidth [] (wordsOf text)).take
            (max 1 ⌊n⌋.toNat)).getLast? with
        | none =>
          rw [List.getLastD_eq_getLast?, hlast] at hu
          cases hu
        | some chunk =>
          rw [List.getLastD_eq_getLast?, hlast] at hu
          exact hwords chunk (List.mem_of_mem_take (List.mem_of_getLast? hlast)) hu
      · exact .inr (.inr hu)

/-! ### Statements -/

theorem TsplStatement.Clean.of {name : Units} {args : List TsplArg}
    (hname : name.all (fun u => decide (u ≠ 32)) = true) (h : ∀ a ∈ args, a.Clean) :
    TsplStatement.Clean (name, args) :=
  ⟨fun u hu => by simpa using List.all_eq_true.1 hname u hu, h⟩

theorem clean_const {text : Units}
    (h : text.all (fun u => decide (u ≠ 44 ∧ u ≠ tsplQuote)) = true) : (TsplArg.word text).Clean :=
  fun u hu => by simpa using List.all_eq_true.1 h u hu

theorem clean_dots (n : ℤ) : (dots n).Clean := clean_number n

theorem unbroken_dots (n : ℤ) : (dots n).Unbroken := unbroken_number n

theorem clean_textStatements (style : LabelTextStyle) (value : Units) :
    ∀ st ∈ textStatements style value dpi, st.Clean := by
  intro st hst
  obtain ⟨⟨line, i⟩, -, rfl⟩ := List.mem_map.1 hst
  refine .of (by decide) fun a ha => ?_
  simp only [List.mem_cons, List.not_mem_nil, or_false] at ha
  rcases ha with rfl | rfl | rfl | rfl | rfl | rfl | rfl
  · exact clean_dots _
  · exact clean_dots _
  · trivial
  · exact clean_const (by decide)
  · exact clean_number _
  · exact clean_number _
  · trivial

theorem clean_linearStatement (type : Units) (e : LabelBarcodeElement) :
    (linearStatement type e data dpi).Clean := by
  refine .of (by decide) fun a ha => ?_
  simp only [List.mem_cons, List.not_mem_nil, or_false] at ha
  rcases ha with rfl | rfl | rfl | rfl | rfl | rfl | rfl | rfl | rfl
  · exact clean_dots _
  · exact clean_dots _
  · trivial
  · exact clean_dots _
  · exact clean_const (by decide)
  · exact clean_const (by decide)
  · exact clean_dots _
  · exact clean_dots _
  · trivial

theorem clean_barcodeStatement (e : LabelBarcodeElement) : (barcodeStatement e data dpi).Clean := by
  unfold barcodeStatement
  split
  · exact clean_linearStatement _ e
  · exact clean_linearStatement _ e
  · refine .of (by decide) fun a ha => ?_
    simp only [List.mem_cons, List.not_mem_nil, or_false] at ha
    rcases ha with rfl | rfl | rfl | rfl | rfl
    · exact clean_dots _
    · exact clean_dots _
    · exact clean_dots _
    · exact clean_dots _
    · trivial
  · refine .of (by decide) fun a ha => ?_
    simp only [List.mem_cons, List.not_mem_nil, or_false] at ha
    rcases ha with rfl | rfl | rfl | rfl | rfl | rfl | rfl
    · exact clean_dots _
    · exact clean_dots _
    · exact clean_const (by decide)
    · exact clean_dots _
    · exact clean_const (by decide)
    · exact clean_const (by decide)
    · trivial

theorem clean_numbers {name : Units} (hname : name.all (fun u => decide (u ≠ 32)) = true)
    (ns : List ℤ) : TsplStatement.Clean (name, ns.map dots) := by
  refine .of hname fun a ha => ?_
  obtain ⟨n, -, rfl⟩ := List.mem_map.1 ha
  exact clean_dots n

theorem clean_statements (e : LabelElement) : ∀ st ∈ e.statements data dpi, st.Clean := by
  cases e with
  | text e => exact clean_textStatements _ _
  | field e => exact clean_textStatements _ _
  | barcode e =>
    intro st hst
    rw [List.mem_singleton.1 hst]
    exact clean_barcodeStatement e
  | line e =>
    intro st hst
    rw [List.mem_singleton.1 hst]
    exact clean_numbers (by decide) [_, _, _, _]
  | box e =>
    intro st hst
    rw [List.mem_singleton.1 hst]
    exact clean_numbers (by decide) [_, _, _, _, _]
  | organizationLogo e =>
    intro st hst
    cases hst

theorem clean_header (widthMm heightMm : ℚ) : ∀ st ∈ tsplHeader widthMm heightMm, st.Clean := by
  intro st hst
  simp only [tsplHeader, List.mem_cons, List.not_mem_nil, or_false] at hst
  rcases hst with rfl | rfl | rfl | rfl
  · have hmm : ∀ u ∈ encode " mm", u ≠ 44 ∧ u ≠ tsplQuote := by decide
    have hblank : ∀ u ∈ encode " ", u ≠ 44 ∧ u ≠ tsplQuote := by decide
    refine .of (by decide) fun a ha => ?_
    simp only [List.mem_cons, List.not_mem_nil, or_false] at ha
    rcases ha with rfl | rfl
    · intro u hu
      rcases List.mem_append.1 hu with hu | hu
      · exact clean_number _ u hu
      · exact hmm u hu
    · intro u hu
      rcases List.mem_append.1 hu with hu | hu
      · rcases List.mem_append.1 hu with hu | hu
        · exact hblank u hu
        · exact clean_number _ u hu
      · exact hmm u hu
  · refine .of (by decide) fun a ha => ?_
    simp only [List.mem_cons, List.not_mem_nil, or_false] at ha
    rcases ha with rfl | rfl
    · exact clean_const (by decide)
    · exact clean_const (by decide)
  · refine .of (by decide) fun a ha => ?_
    rw [List.mem_singleton.1 ha]
    exact clean_const (by decide)
  · exact .of (by decide) (by simp)

theorem unbroken_header (widthMm heightMm : ℚ) :
    ∀ st ∈ tsplHeader widthMm heightMm, lineFeed ∉ st.written := by
  intro st hst
  simp only [tsplHeader, List.mem_cons, List.not_mem_nil, or_false] at hst
  rcases hst with rfl | rfl | rfl | rfl
  · have hmm : lineFeed ∉ encode " mm" := by decide
    have hblank : lineFeed ∉ encode " " := by decide
    rw [TsplStatement.unbroken_iff (by decide)]
    intro a ha
    simp only [List.mem_cons, List.not_mem_nil, or_false] at ha
    rcases ha with rfl | rfl
    · simpa [TsplArg.Unbroken, hmm] using unbroken_number widthMm
    · simpa [TsplArg.Unbroken, hmm, hblank] using unbroken_number heightMm
  · decide
  · decide
  · decide

theorem unbroken_textStatements {style : LabelTextStyle} {value : Units}
    (h : needsImageRendering value = false) :
    ∀ st ∈ textStatements style value dpi, lineFeed ∉ st.written := by
  have hvalue : lineFeed ∉ value := fun hmem => (oneLine_of_printable h lineFeed hmem).1 rfl
  have hlines : ∀ line ∈ wrapNativeText style value, lineFeed ∉ line := by
    intro line hline hmem
    unfold wrapNativeText at hline
    split at hline
    · rw [List.mem_singleton.1 hline] at hmem
      exact hvalue hmem
    · rcases mem_wrapTextToWidth hline hmem with hmem | hmem | hmem
      · exact hvalue hmem
      · exact absurd hmem (by decide)
      · exact absurd hmem (by decide)
  intro st hst
  obtain ⟨⟨line, i⟩, hline, rfl⟩ := List.mem_map.1 hst
  have hmem : line ∈ wrapNativeText style value := List.fst_mem_of_mem_zipIdx hline
  rw [TsplStatement.unbroken_iff (by decide)]
  intro a ha
  simp only [List.mem_cons, List.not_mem_nil, or_false] at ha
  rcases ha with rfl | rfl | rfl | rfl | rfl | rfl | rfl
  · exact unbroken_dots _
  · exact unbroken_dots _
  · unfold TsplArg.Unbroken
    decide
  · unfold TsplArg.Unbroken
    decide
  · exact unbroken_number _
  · exact unbroken_number _
  · exact hlines line hmem

theorem unbroken_barcodeStatement (e : LabelBarcodeElement) :
    lineFeed ∉ (barcodeStatement e data dpi).written ↔
      lineFeed ∉ (resolveBarcodeSource e.data data).1 := by
  have hvalue : lineFeed ∉ tsplBarcodeValue e data ↔
      lineFeed ∉ (resolveBarcodeSource e.data data).1 := by
    unfold tsplBarcodeValue
    split
    · rename_i hsscc
      have h00 : lineFeed ∉ encode "00" := by decide
      simp [hsscc.2, resolveBarcodeSource, h00]
    · rfl
  have hlinear : ∀ type : Units, lineFeed ∉ type →
      (lineFeed ∉ (linearStatement type e data dpi).written ↔
        lineFeed ∉ tsplBarcodeValue e data) := by
    intro type htype
    have h0 : lineFeed ∉ encode "0" := by decide
    rw [linearStatement, TsplStatement.unbroken_iff (by decide)]
    simp only [List.forall_mem_cons, unbroken_dots, unbroken_word, unbroken_string, htype, h0,
      not_false_eq_true, true_and, List.not_mem_nil, false_imp_iff, implies_true, and_true]
  rw [← hvalue]
  unfold barcodeStatement
  split
  · refine hlinear _ ?_
    split
    · decide
    · decide
  · exact hlinear _ (by decide)
  · rw [TsplStatement.unbroken_iff (by decide)]
    simp only [List.forall_mem_cons, unbroken_dots, unbroken_string, true_and, List.not_mem_nil,
      false_imp_iff, implies_true, and_true]
  · have h0 : lineFeed ∉ encode "0" := by decide
    have hM : lineFeed ∉ encode "M" := by decide
    have hA : lineFeed ∉ encode "A" := by decide
    rw [TsplStatement.unbroken_iff (by decide)]
    simp only [List.forall_mem_cons, unbroken_dots, unbroken_word, unbroken_string, h0, hM, hA,
      not_false_eq_true, true_and, List.not_mem_nil, false_imp_iff, implies_true, and_true]

end Template

/-! ## Documents -/

section Iff

variable {spec : LabelTemplateSpec} {data : LabelData} {deps : EmitDeps}

theorem clean_spec : ∀ st ∈ spec.statements data, st.Clean := by
  intro st hst
  rcases List.mem_append.1 hst with hst | hst
  · rcases List.mem_append.1 hst with hst | hst
    · exact clean_header _ _ st hst
    · obtain ⟨e, -, hst⟩ := List.mem_flatMap.1 hst
      exact clean_statements e st hst
  · rw [List.mem_singleton.1 hst]
    refine .of (by decide) fun a ha => ?_
    rw [List.mem_singleton.1 ha]
    exact clean_const (by decide)

theorem unbroken_statements {e : LabelElement} (h : PrintedNatively deps spec.dpi data e) :
    (∀ st ∈ e.statements data spec.dpi, lineFeed ∉ st.written) ↔
      ∀ b, e = .barcode b → lineFeed ∉ (resolveBarcodeSource b.data data).1 := by
  have hnative : ∀ {style : LabelTextStyle} {value : Units}, isRasterized style value = false →
      needsImageRendering value = false := by
    intro style value hr
    simp only [isRasterized, Bool.or_eq_false_iff] at hr
    exact hr.1.1
  have hchoice := h.choice
  have hnumbers : ∀ {name : Units} (ns : List ℤ), lineFeed ∉ name →
      lineFeed ∉ TsplStatement.written (name, ns.map dots) := by
    intro name ns hname
    rw [TsplStatement.unbroken_iff hname]
    intro a ha
    obtain ⟨n, -, rfl⟩ := List.mem_map.1 ha
    exact unbroken_dots n
  cases e with
  | text e =>
    have hraster : isRasterized e.toLabelTextStyle e.text = false := by
      simpa [rasterChoice] using hchoice
    exact ⟨fun _ _ hb => (by cases hb), fun _ => unbroken_textStatements (hnative hraster)⟩
  | field e =>
    have hraster : isRasterized e.toLabelTextStyle (displayText e data) = false := by
      simpa [rasterChoice] using hchoice
    exact ⟨fun _ _ hb => (by cases hb), fun _ => unbroken_textStatements (hnative hraster)⟩
  | barcode e =>
    rw [LabelElement.statements]
    simp only [List.mem_singleton, forall_eq, LabelElement.barcode.injEq, forall_eq']
    exact unbroken_barcodeStatement e
  | line e =>
    refine ⟨fun _ _ hb => (by cases hb), fun _ st hst => ?_⟩
    rw [List.mem_singleton.1 hst]
    exact hnumbers [_, _, _, _] (by decide)
  | box e =>
    refine ⟨fun _ _ hb => (by cases hb), fun _ st hst => ?_⟩
    rw [List.mem_singleton.1 hst]
    exact hnumbers [_, _, _, _, _] (by decide)
  | organizationLogo e => simp [LabelElement.statements]

/-- **Label data never becomes printer commands, exactly when no barcode's value holds a line feed**:
the document of a template without rasters is read as the statements it was made of, and each string
as the value it was made from. -/
theorem tspl_data_stays_data_iff (spec : LabelTemplateSpec) (data : LabelData) (deps : EmitDeps)
    (hnative : ∀ e ∈ spec.elements, PrintedNatively deps spec.dpi data e) :
    (∃ doc, generateTspl spec data deps = .ok doc ∧
      readTspl doc = some (spec.statements data)) ↔
      ∀ e, .barcode e ∈ spec.elements → lineFeed ∉ (resolveBarcodeSource e.data data).1 := by
  rw [generateTspl_native hnative]
  simp only [Except.ok.injEq, exists_eq_left', readTspl_iff clean_spec]
  constructor
  · intro h e he
    refine (unbroken_statements (hnative _ he)).1 (fun st hst => h st ?_) e rfl
    exact List.mem_append_left _ (List.mem_append_right _ (List.mem_flatMap.2 ⟨_, he, hst⟩))
  · intro h st hst
    rcases List.mem_append.1 hst with hst | hst
    · rcases List.mem_append.1 hst with hst | hst
      · exact unbroken_header _ _ st hst
      · obtain ⟨e, he, hst⟩ := List.mem_flatMap.1 hst
        exact (unbroken_statements (hnative e he)).2 (fun b hb => h b (hb ▸ he)) st hst
    · rw [List.mem_singleton.1 hst]
      decide

end Iff

/-! ### A line feed in a barcode -/

namespace Sample

def tsplQrSpec (text : Units) : LabelTemplateSpec where
  widthMm := 58
  heightMm := 40
  dpi := .dpi203
  language := .tspl
  elements := [.barcode {
    id := encode "qr", xMm := 2, yMm := 2, format := .qr, data := .literal text, sizeMm := 1 / 2 }]

theorem tsplQrSpec_valid (text : Units) : (tsplQrSpec text).Valid := by
  refine ⟨by simp [tsplQrSpec]; norm_num, by simp [tsplQrSpec]; norm_num, ?_, by simp [tsplQrSpec]⟩
  intro e he
  rw [List.mem_singleton.1 he]
  have hid : encode "qr" ≠ [] := by decide
  exact ⟨hid, by norm_num, by simp⟩

theorem tsplQrSpec_native (text : Units) (data : LabelData) :
    ∀ e ∈ (tsplQrSpec text).elements, PrintedNatively {} (tsplQrSpec text).dpi data e := by
  intro e he
  rw [List.mem_singleton.1 he]
  exact ⟨by simp [rasterChoice, kmRasterOf], by simp⟩

end Sample

open Sample

/-- The line feed of a QR code's text ends its statement, and a command follows. -/
theorem line_feed_breaks_statement : ∃ doc, (tsplQrSpec (encode "a\nCLS")).Valid ∧
      (∀ e ∈ (tsplQrSpec (encode "a\nCLS")).elements,
        PrintedNatively {} .dpi203 (fun _ => []) e) ∧
      generateTspl (tsplQrSpec (encode "a\nCLS")) (fun _ => []) = .ok doc ∧
      readTspl doc ≠ some ((tsplQrSpec (encode "a\nCLS")).statements fun _ => []) := by
  refine ⟨_, tsplQrSpec_valid _, tsplQrSpec_native _ _,
    generateTspl_native (tsplQrSpec_native _ _), ?_⟩
  rw [Ne, readTspl_iff clean_spec]
  intro h
  refine (unbroken_barcodeStatement _).1 (h _ (List.mem_append_left _ (List.mem_append_right _
    (List.mem_flatMap.2 ⟨_, List.mem_cons_self, List.mem_cons_self⟩)))) ?_
  decide

/-- Quotes and commas stay in the string. -/
theorem tspl_data_stays_data_iff_sample :
    ∃ doc, generateTspl (tsplQrSpec (encode "\",\"Ж")) (fun _ => []) = .ok doc ∧
      readTspl doc = some ((tsplQrSpec (encode "\",\"Ж")).statements fun _ => []) := by
  refine (tspl_data_stays_data_iff _ _ {} (tsplQrSpec_native _ _)).2 ?_
  intro e he
  have hliteral : lineFeed ∉ encode "\",\"Ж" := by decide
  simp only [tsplQrSpec, List.mem_singleton, LabelElement.barcode.injEq] at he
  rw [he]
  exact hliteral

end Markiro
