import Markiro.Domain.Wrap

/-!
# Wrapping drops nothing silently

The lines of a text carry its ink, the units that are no blanks, in order (`ink_wrapWords`), and
each was measured before it was kept (`kept_wrapWords`). What does not fit is cut off behind an ellipsis
(`clipWithEllipsis_spec`).
-/

namespace Markiro

open Utf16

/-! ## Ink -/

/-- The units of a text that are no blanks. -/
def ink (s : Units) : Units := s.filter fun u => !isEcmaWhitespace u

@[simp] theorem ink_nil : ink [] = [] := rfl

@[simp] theorem ink_append (s t : Units) : ink (s ++ t) = ink s ++ ink t := List.filter_append ..

@[simp] theorem ink_space : ink (encode " ") = [] := by decide

theorem ink_eq_self {s : Units} (h : ∀ u ∈ s, isEcmaWhitespace u = false) : ink s = s :=
  List.filter_eq_self.2 fun u hu => by rw [h u hu]; rfl

theorem ink_length_le (s : Units) : (ink s).length ≤ s.length := List.length_filter_le _ _

theorem flatten_splitOnP {α : Type} (p : α → Bool) (s : List α) :
    (s.splitOnP p).flatten = s.filter fun a => !p a := by
  induction s with
  | nil => simp
  | cons a s ih =>
    rw [List.splitOnP_cons_eq_if_modifyHead]
    cases ha : p a with
    | true => simp [ha, ih]
    | false =>
      cases hparts : s.splitOnP p with
      | nil => exact absurd hparts (List.splitOnP_ne_nil p s)
      | cons first rest =>
        rw [hparts, List.flatten_cons] at ih
        simp [ha, ih]

theorem flatten_filter_ne_nil {α : Type} [DecidableEq α] (l : List (List α)) :
    (l.filter fun w => decide (w ≠ [])).flatten = l.flatten := by
  induction l with
  | nil => rfl
  | cons w l ih =>
    by_cases hw : w = []
    · rw [hw, List.filter_cons_of_neg (by simp), ih]
      rfl
    · rw [List.filter_cons_of_pos (by simp [hw]), List.flatten_cons, ih, List.flatten_cons]

/-- A word has ink and nothing else. -/
structure IsWord (w : Units) : Prop where
  ne_nil : w ≠ []
  ink : ∀ u ∈ w, isEcmaWhitespace u = false

theorem flatten_wordsOf (text : Units) : (wordsOf text).flatten = ink text := by
  rw [wordsOf, flatten_filter_ne_nil, flatten_splitOnP]
  rfl

theorem isWord_of_mem {text w : Units} (h : w ∈ wordsOf text) : IsWord w := by
  have hne := of_decide_eq_true (List.mem_filter.1 h).2
  refine ⟨hne, fun u hu => ?_⟩
  have hmem : u ∈ ink text := by
    rw [← flatten_wordsOf]
    exact List.mem_flatten.2 ⟨w, h, hu⟩
  rw [ink, List.mem_filter] at hmem
  exact Bool.not_eq_true' _ ▸ hmem.2

theorem wordsOf_eq_nil {text : Units} : wordsOf text = [] ↔ ink text = [] := by
  rw [← flatten_wordsOf]
  constructor
  · intro h
    rw [h]
    rfl
  · intro h
    refine List.eq_nil_iff_forall_not_mem.2 fun w hw => (isWord_of_mem hw).ne_nil ?_
    exact List.flatten_eq_nil_iff.1 h w hw

/-! ## Characters -/

theorem flatten_charactersOf (s : Units) : (charactersOf s).flatten = s := by
  induction s using charactersOf.induct with
  | case1 u v rest hpair ih =>
    rw [charactersOf, if_pos hpair, List.flatten_cons, ih]
    rfl
  | case2 u v rest hpair ih =>
    rw [charactersOf, if_neg hpair, List.flatten_cons, ih]
    rfl
  | case3 u => rfl
  | case4 => rfl

/-- A text of one code point. -/
def Single (s : Units) : Prop := charactersOf s = [s]

theorem single_of_mem {s c : Units} (h : c ∈ charactersOf s) : Single c := by
  induction s using charactersOf.induct with
  | case1 u v rest hpair ih =>
    rw [charactersOf, if_pos hpair] at h
    rcases List.mem_cons.1 h with rfl | h
    · show charactersOf [u, v] = [[u, v]]
      rw [charactersOf, if_pos hpair]
      rfl
    · exact ih h
  | case2 u v rest hpair ih =>
    rw [charactersOf, if_neg hpair] at h
    rcases List.mem_cons.1 h with rfl | h
    · rfl
    · exact ih h
  | case3 u =>
    rw [charactersOf, List.mem_singleton] at h
    rw [h]
    rfl
  | case4 => cases h

/-! ## Chunks of a word -/

section Wrap

variable {K : Type} [LinearOrder K] (measure : Units → K) (maxWidth : K)

/-- A line of one code point, or one that was measured. -/
def Fits (line : Units) : Prop := Single line ∨ measure line ≤ maxWidth

variable {measure maxWidth}

theorem flatten_breakCharacters (current : Units) (chars : List Units) :
    (breakCharacters measure maxWidth current chars).flatten = current ++ chars.flatten := by
  induction chars generalizing current with
  | nil =>
    rw [breakCharacters]
    split_ifs with h
    · rw [h]
      rfl
    · rw [List.flatten_singleton, List.flatten_nil, List.append_nil]
  | cons c chars ih =>
    rw [breakCharacters]
    split_ifs
    · rw [List.flatten_cons, ih, List.flatten_cons]
    · rw [ih, List.flatten_cons, List.append_assoc]

/-- Every chunk is one code point or was measured; none is empty. -/
theorem fits_breakCharacters {current : Units} {chars : List Units}
    (hcurrent : current = [] ∨ Fits measure maxWidth current) (hchars : ∀ c ∈ chars, Single c) :
    ∀ l ∈ breakCharacters measure maxWidth current chars, l ≠ [] ∧ Fits measure maxWidth l := by
  induction chars generalizing current with
  | nil =>
    intro l hl
    rw [breakCharacters] at hl
    split_ifs at hl with h
    · cases hl
    · rw [List.mem_singleton.1 hl]
      exact ⟨h, hcurrent.resolve_left h⟩
  | cons c chars ih =>
    have hc := hchars c List.mem_cons_self
    have hrest := fun d hd => hchars d (List.mem_cons_of_mem _ hd)
    intro l hl
    rw [breakCharacters] at hl
    split_ifs at hl with h
    · rcases List.mem_cons.1 hl with rfl | hl
      · exact ⟨h.1, hcurrent.resolve_left h.1⟩
      · exact ih (.inr (.inl hc)) hrest l hl
    · refine ih (.inr ?_) hrest l hl
      by_cases hempty : current = []
      · rw [hempty]
        exact .inl hc
      · exact .inr (not_lt.1 fun hwide => h ⟨hempty, hwide⟩)

theorem breakLongWord_eq {word : Units} (h : word ≠ []) : breakLongWord word measure maxWidth =
    breakCharacters measure maxWidth [] (charactersOf word) := by
  refine if_neg fun hnil => h ?_
  have hflat := @flatten_breakCharacters K _ measure maxWidth [] (charactersOf word)
  rw [hnil, flatten_charactersOf] at hflat
  exact hflat.symm

theorem breakLongWord_ne_nil (word : Units) : breakLongWord word measure maxWidth ≠ [] := by
  unfold breakLongWord
  dsimp only
  split_ifs with h
  · exact List.cons_ne_nil _ _
  · exact h

theorem flatten_breakLongWord {word : Units} (h : word ≠ []) :
    (breakLongWord word measure maxWidth).flatten = word := by
  rw [breakLongWord_eq h, flatten_breakCharacters, flatten_charactersOf]
  rfl

/-! ## Lines of words -/

/-- The lines of a word that starts a line of its own, and the line it begins. -/
theorem lines_of_word {word : Units} (h : IsWord word) :
    (breakLongWord word measure maxWidth).dropLast.flatten ++
        (breakLongWord word measure maxWidth).getLastD [] = word ∧
      ∀ l ∈ breakLongWord word measure maxWidth, IsWord l ∧ Fits measure maxWidth l := by
  have hne := @breakLongWord_ne_nil K _ measure maxWidth word
  have hflat := @flatten_breakLongWord K _ measure maxWidth word h.ne_nil
  constructor
  · rw [List.getLastD_eq_getLast?, List.getLast?_eq_some_getLast hne, Option.getD_some]
    have hsplit := congrArg List.flatten (List.dropLast_append_getLast hne)
    rw [List.flatten_append, List.flatten_singleton, hflat] at hsplit
    exact hsplit
  · intro l hl
    have hmem := hl
    rw [breakLongWord_eq h.ne_nil] at hmem
    obtain ⟨hl0, hfits⟩ := fits_breakCharacters (.inl rfl) (fun c hc => single_of_mem hc) l hmem
    refine ⟨⟨hl0, fun u hu => h.ink u ?_⟩, hfits⟩
    rw [← hflat]
    exact List.mem_flatten.2 ⟨l, hl, hu⟩

structure Kept (measure : Units → K) (maxWidth : K) (line : Units) : Prop where
  ink : ink line ≠ []
  fits : Fits measure maxWidth line

theorem IsWord.ink_eq {w : Units} (h : IsWord w) : Markiro.ink w = w := ink_eq_self h.ink

theorem IsWord.kept {w : Units} (h : IsWord w) (hfits : Fits measure maxWidth w) :
    Kept measure maxWidth w := by
  refine ⟨?_, hfits⟩
  rw [h.ink_eq]
  exact h.ne_nil

theorem flushed_spec (current : Units) :
    ink (if current = [] then [] else [current]).flatten = ink current ∧
      ((current = [] ∨ Kept measure maxWidth current) →
        ∀ l ∈ (if current = [] then [] else [current]), Kept measure maxWidth l) := by
  by_cases h : current = []
  · rw [if_pos h, h]
    exact ⟨rfl, fun _ l hl => absurd hl List.not_mem_nil⟩
  · rw [if_neg h, List.flatten_singleton]
    refine ⟨rfl, fun hkept l hl => ?_⟩
    rw [List.mem_singleton.1 hl]
    exact hkept.resolve_left h

/-- **What the loop does with a word**: it flushes lines and goes on with another, and together they
carry the line begun and the word. -/
theorem wrapWords_cons {word : Units} (hword : IsWord word) (current : Units) (words : List Units) :
    ∃ flushed next, wrapWords measure maxWidth current (word :: words) =
        flushed ++ wrapWords measure maxWidth next words ∧
      ink flushed.flatten ++ ink next = ink current ++ word ∧
      ((current = [] ∨ Kept measure maxWidth current) →
        (∀ l ∈ flushed, Kept measure maxWidth l) ∧ Kept measure maxWidth next) := by
  obtain ⟨hink, hkept⟩ := @flushed_spec K _ measure maxWidth current
  rw [wrapWords]
  dsimp only
  by_cases hfits : measure (if current = [] then word else current ++ encode " " ++ word) ≤ maxWidth
  · rw [if_pos hfits]
    refine ⟨[], _, rfl, ?_, fun _ => ⟨fun l hl => absurd hl List.not_mem_nil, ?_, .inr hfits⟩⟩
    · by_cases h : current = []
      · rw [if_pos h, h, hword.ink_eq]
        rfl
      · rw [if_neg h, ink_append, ink_append, ink_space, List.append_nil, hword.ink_eq]
        rfl
    · by_cases h : current = []
      · rw [if_pos h, hword.ink_eq]
        exact hword.ne_nil
      · rw [if_neg h, ink_append, hword.ink_eq]
        exact List.append_ne_nil_of_right_ne_nil _ hword.ne_nil
  rw [if_neg hfits]
  by_cases hself : measure word ≤ maxWidth
  · rw [if_pos hself]
    refine ⟨_, word, rfl, ?_, fun hcurrent => ⟨hkept hcurrent, hword.kept (.inr hself)⟩⟩
    rw [hink, hword.ink_eq]
  · rw [if_neg hself]
    obtain ⟨hsplit, hchunks⟩ := @lines_of_word K _ measure maxWidth word hword
    have hne := @breakLongWord_ne_nil K _ measure maxWidth word
    have hlast : (breakLongWord word measure maxWidth).getLastD [] ∈
        breakLongWord word measure maxWidth := by
      rw [List.getLastD_eq_getLast?, List.getLast?_eq_some_getLast hne, Option.getD_some]
      exact List.getLast_mem hne
    have hlines : ∀ l ∈ breakLongWord word measure maxWidth, Kept measure maxWidth l :=
      fun l hl => (hchunks l hl).1.kept (hchunks l hl).2
    refine ⟨_, _, rfl, ?_, fun hcurrent => ⟨fun l hl => ?_, hlines _ hlast⟩⟩
    · rw [List.flatten_append, ink_append, hink, List.append_assoc, ← ink_append, hsplit,
        hword.ink_eq]
    · rcases List.mem_append.1 hl with hl | hl
      · exact hkept hcurrent l hl
      · exact hlines l (List.dropLast_subset _ hl)

/-- **The lines of words carry their ink in order.** -/
theorem ink_wrapWords {current : Units} {words : List Units} (hwords : ∀ w ∈ words, IsWord w) :
    ink (wrapWords measure maxWidth current words).flatten = ink current ++ words.flatten := by
  induction words generalizing current with
  | nil =>
    rw [wrapWords, List.flatten_nil, List.append_nil]
    exact (@flushed_spec K _ measure maxWidth current).1
  | cons word words ih =>
    obtain ⟨flushed, next, heq, hink, -⟩ :=
      @wrapWords_cons K _ measure maxWidth word (hwords word List.mem_cons_self) current words
    rw [heq, List.flatten_append, ink_append, ih fun w hw => hwords w (List.mem_cons_of_mem _ hw),
      ← List.append_assoc, hink, List.flatten_cons, List.append_assoc]

/-- **Every line has ink, and is one code point or was measured.** -/
theorem kept_wrapWords {current : Units} {words : List Units}
    (hcurrent : current = [] ∨ Kept measure maxWidth current) (hwords : ∀ w ∈ words, IsWord w) :
    ∀ l ∈ wrapWords measure maxWidth current words, Kept measure maxWidth l := by
  induction words generalizing current with
  | nil =>
    rw [wrapWords]
    exact (@flushed_spec K _ measure maxWidth current).2 hcurrent
  | cons word words ih =>
    obtain ⟨flushed, next, heq, -, hkept⟩ :=
      @wrapWords_cons K _ measure maxWidth word (hwords word List.mem_cons_self) current words
    obtain ⟨hflushed, hnext⟩ := hkept hcurrent
    intro l hl
    rw [heq] at hl
    rcases List.mem_append.1 hl with hl | hl
    · exact hflushed l hl
    · exact ih (.inr hnext) (fun w hw => hwords w (List.mem_cons_of_mem _ hw)) l hl

/-! ## Cutting off -/

/-- The search keeps a prefix that fits, and finds the longest where a longer prefix is never
narrower. -/
theorem clipBetween_spec (text : Units) {lo hi : ℕ} (hle : lo ≤ hi)
    (hlo : measure (text.take lo ++ wrapEllipsis) ≤ maxWidth) :
    ∃ k, lo ≤ k ∧ k ≤ hi ∧ clipBetween text measure maxWidth lo hi = text.take k ++ wrapEllipsis ∧
      measure (text.take k ++ wrapEllipsis) ≤ maxWidth ∧
      ((∀ i j, i ≤ j → measure (text.take i ++ wrapEllipsis) ≤
          measure (text.take j ++ wrapEllipsis)) →
        ∀ j ≤ hi, measure (text.take j ++ wrapEllipsis) ≤ maxWidth → j ≤ k) := by
  induction lo, hi using clipBetween.induct text measure maxWidth with
  | case1 lo hi hlt mid hfits ih =>
    obtain ⟨k, h1, h2, h3, h4, h5⟩ := ih (by omega) hfits
    rw [clipBetween, dif_pos hlt]
    dsimp only
    rw [if_pos hfits]
    exact ⟨k, by omega, h2, h3, h4, h5⟩
  | case2 lo hi hlt mid hfits ih =>
    obtain ⟨k, h1, h2, h3, h4, h5⟩ := ih (by omega) hlo
    rw [clipBetween, dif_pos hlt]
    dsimp only
    rw [if_neg hfits]
    refine ⟨k, h1, by omega, h3, h4, fun hmono j hj hjfits => h5 hmono j ?_ hjfits⟩
    -- A prefix from the middle on is at least as wide as the one that was refused.
    by_contra hlong
    exact hfits ((hmono mid j (by omega)).trans hjfits)
  | case3 lo hi hge =>
    rw [clipBetween, dif_neg hge]
    exact ⟨lo, le_rfl, hle, rfl, hlo, fun _ j hj _ => by omega⟩

/-- **What is cut off**: nothing is left when the ellipsis does not fit, else a prefix that fits
with it. -/
theorem clipWithEllipsis_spec (text : Units) :
    (maxWidth < measure wrapEllipsis → clipWithEllipsis text measure maxWidth = []) ∧
    (measure wrapEllipsis ≤ maxWidth → ∃ k ≤ text.length,
      clipWithEllipsis text measure maxWidth = text.take k ++ wrapEllipsis ∧
      measure (text.take k ++ wrapEllipsis) ≤ maxWidth ∧
      ((∀ i j, i ≤ j → measure (text.take i ++ wrapEllipsis) ≤
          measure (text.take j ++ wrapEllipsis)) →
        ∀ j ≤ text.length, measure (text.take j ++ wrapEllipsis) ≤ maxWidth → j ≤ k)) := by
  refine ⟨fun h => if_pos h, fun h => ?_⟩
  obtain ⟨k, -, h2, h3, h4, h5⟩ := @clipBetween_spec K _ measure maxWidth text 0 text.length
    (Nat.zero_le _) h
  exact ⟨k, h2, (if_neg (not_lt.2 h)).trans h3, h4, h5⟩

/-! ## Lines of a text -/

/-- Math.max(1, Math.floor(maxLines)). -/
def lineLimit (maxLines : ℚ) : ℕ := max 1 ⌊maxLines⌋.toNat

def unlimitedLines (text : Units) (measure : Units → K) (maxWidth : K) : List Units :=
  if wordsOf text = [] then [text] else wrapWords measure maxWidth [] (wordsOf text)

theorem ink_unlimitedLines (text : Units) :
    ink (unlimitedLines text measure maxWidth).flatten = ink text := by
  unfold unlimitedLines
  by_cases h : wordsOf text = []
  · rw [if_pos h, List.flatten_singleton]
  · rw [if_neg h, ink_wrapWords fun w hw => isWord_of_mem hw, flatten_wordsOf]
    rfl

theorem kept_unlimitedLines {text : Units} (h : ink text ≠ []) :
    ∀ l ∈ unlimitedLines text measure maxWidth, Kept measure maxWidth l := by
  unfold unlimitedLines
  rw [if_neg (mt wordsOf_eq_nil.1 h)]
  exact kept_wrapWords (.inl rfl) fun w hw => isWord_of_mem hw

theorem length_le_ink {l : List Units} (h : ∀ line ∈ l, ink line ≠ []) :
    l.length ≤ (ink l.flatten).length := by
  induction l with
  | nil => exact le_rfl
  | cons line l ih =>
    have hline := List.length_pos_iff.2 (h line List.mem_cons_self)
    have hrest := ih fun x hx => h x (List.mem_cons_of_mem _ hx)
    rw [List.flatten_cons, ink_append, List.length_append, List.length_cons]
    omega

theorem unlimitedLines_length_le (text : Units) :
    (unlimitedLines text measure maxWidth).length ≤ max 1 text.length := by
  by_cases h : ink text = []
  · unfold unlimitedLines
    rw [if_pos (wordsOf_eq_nil.2 h)]
    exact le_max_left _ _
  · have hle := length_le_ink fun line hl =>
      (@kept_unlimitedLines K _ measure maxWidth text h line hl).ink
    rw [ink_unlimitedLines] at hle
    exact (hle.trans (ink_length_le text)).trans (le_max_right _ _)

theorem unlimitedLines_ne_nil (text : Units) : unlimitedLines text measure maxWidth ≠ [] := by
  by_cases h : ink text = []
  · unfold unlimitedLines
    rw [if_pos (wordsOf_eq_nil.2 h)]
    exact List.cons_ne_nil _ _
  · intro hnil
    have hink := @ink_unlimitedLines K _ measure maxWidth text
    rw [hnil] at hink
    exact h hink.symm

/-- **Wrapping is the unlimited one**, cut off at the limit. -/
theorem wrapTextToWidth_eq [Zero K] (text : Units) (hwidth : 0 < maxWidth) (maxLines : ℚ) :
    wrapTextToWidth text measure maxWidth maxLines =
      if (unlimitedLines text measure maxWidth).length ≤ lineLimit maxLines then
        unlimitedLines text measure maxWidth
      else (unlimitedLines text measure maxWidth).take (lineLimit maxLines - 1) ++
        [clipWithEllipsis (((unlimitedLines text measure maxWidth).take
          (lineLimit maxLines)).getLastD []) measure maxWidth] := by
  have hne := @unlimitedLines_ne_nil K _ measure maxWidth text
  unfold wrapTextToWidth
  rw [if_neg (not_le.2 hwidth)]
  dsimp only
  by_cases h : wordsOf text = []
  · have hlines : unlimitedLines text measure maxWidth = [text] := if_pos h
    have hone : [text].length ≤ lineLimit maxLines := le_max_left _ _
    rw [if_pos h, hlines, if_pos hone]
  · have hlines : unlimitedLines text measure maxWidth = wrapWords measure maxWidth []
        (wordsOf text) := if_neg h
    rw [hlines] at hne ⊢
    rw [if_neg h, if_neg hne]
    rfl

theorem wrapTextToWidth_cut [Zero K] (text : Units) (hwidth : 0 < maxWidth) {maxLines : ℚ}
    (h : lineLimit maxLines < (unlimitedLines text measure maxWidth).length) :
    ∃ line, (unlimitedLines text measure maxWidth)[lineLimit maxLines - 1]? = some line ∧
      wrapTextToWidth text measure maxWidth maxLines =
        (unlimitedLines text measure maxWidth).take (lineLimit maxLines - 1) ++
          [clipWithEllipsis line measure maxWidth] := by
  have hpos : 1 ≤ lineLimit maxLines := le_max_left _ _
  have hlast : lineLimit maxLines - 1 < (unlimitedLines text measure maxWidth).length := by omega
  refine ⟨_, List.getElem?_eq_getElem hlast, ?_⟩
  have hline : ((unlimitedLines text measure maxWidth).take (lineLimit maxLines)).getLastD [] =
      (unlimitedLines text measure maxWidth).get ⟨lineLimit maxLines - 1, hlast⟩ := by
    rw [List.getLastD_eq_getLast?, List.getLast?_take, if_neg (by omega),
      List.getElem?_eq_getElem hlast]
    rfl
  rw [wrapTextToWidth_eq text hwidth, if_neg (not_le.2 h), hline]
  rfl

theorem wrapTextToWidth_length_le [Zero K] (text : Units) (hwidth : 0 < maxWidth) (maxLines : ℚ) :
    (wrapTextToWidth text measure maxWidth maxLines).length ≤ lineLimit maxLines := by
  by_cases h : (unlimitedLines text measure maxWidth).length ≤ lineLimit maxLines
  · rw [wrapTextToWidth_eq text hwidth, if_pos h]
    exact h
  · obtain ⟨line, -, hcut⟩ := wrapTextToWidth_cut text hwidth (not_le.1 h)
    have hpos : 1 ≤ lineLimit maxLines := le_max_left _ _
    rw [hcut, List.length_append, List.length_take, List.length_singleton]
    omega

/-! ## Strict wrapping -/

/-- A text of the language: no longer than a safe integer counts. -/
abbrev JsString := { s : Units // s.length ≤ maxSafeInteger }

theorem ink_splitLines (text : Units) : ink (splitLines text).flatten = ink text := by
  have hstrip : ∀ s : Units, ink (if s.getLast? = some 13 then s.dropLast else s) = ink s := by
    intro s
    by_cases h : s.getLast? = some 13
    · have hreturn : ink [13] = [] := by decide
      obtain ⟨t, rfl⟩ : ∃ t, s = t ++ [13] := List.getLast?_eq_some_iff.1 h
      rw [if_pos h, List.dropLast_concat, ink_append, hreturn, List.append_nil]
    · rw [if_neg h]
  have hmap : ∀ l : List Units, ink (l.map fun s =>
      if s.getLast? = some 13 then s.dropLast else s).flatten = ink l.flatten := by
    intro l
    induction l with
    | nil => rfl
    | cons s l ih => rw [List.map_cons, List.flatten_cons, ink_append, hstrip, ih,
        List.flatten_cons, ink_append]
  have hne : text.splitOn lineFeed ≠ [] := List.splitOnP_ne_nil _ _
  have hcut : ((text.splitOn lineFeed).dropLast ++ (text.splitOn lineFeed).getLast?.toList) =
      text.splitOn lineFeed := by
    rw [List.getLast?_eq_some_getLast hne, Option.toList_some, List.dropLast_append_getLast]
  have hflat : ink (text.splitOn lineFeed).flatten = ink text := by
    have hfeed : isEcmaWhitespace lineFeed = true := by decide
    show ink (text.splitOnP (· == lineFeed)).flatten = ink text
    rw [flatten_splitOnP, ink, ink, List.filter_filter]
    refine List.filter_congr fun u _ => ?_
    by_cases hu : u = lineFeed
    · rw [hu, hfeed]
      rfl
    · rw [beq_eq_false_iff_ne.2 hu]
      exact Bool.and_true _
  unfold splitLines
  dsimp only
  rw [List.flatten_append, ink_append, hmap, ← ink_append, ← List.flatten_append, hcut, hflat]

theorem length_splitLines {text line : Units} (h : line ∈ splitLines text) :
    line.length ≤ text.length := by
  have hpiece : ∀ s ∈ text.splitOn lineFeed, s.length ≤ text.length := by
    intro s hs
    have hsub : s.Sublist (text.splitOnP (· == lineFeed)).flatten :=
      List.sublist_flatten_of_mem hs
    rw [flatten_splitOnP] at hsub
    exact hsub.length_le.trans (List.length_filter_le _ _)
  unfold splitLines at h
  dsimp only at h
  rcases List.mem_append.1 h with h | h
  · obtain ⟨s, hs, rfl⟩ := List.mem_map.1 h
    have hs' := hpiece s (List.dropLast_subset _ hs)
    split_ifs
    · rw [List.length_dropLast]
      omega
    · exact hs'
  · exact hpiece line (List.mem_of_getLast? (Option.mem_toList.1 h))

theorem ink_flatMap (l : List Units) (f : Units → List Units)
    (h : ∀ s ∈ l, ink (f s).flatten = ink s) : ink (l.flatMap f).flatten = ink l.flatten := by
  induction l with
  | nil => rfl
  | cons s l ih =>
    rw [List.flatMap_cons, List.flatten_append, ink_append, h s List.mem_cons_self,
      ih fun t ht => h t (List.mem_cons_of_mem _ ht), List.flatten_cons, ink_append]

/-- **Strict wrapping carries the whole text on lines that fit, or throws.** -/
theorem wrapTextToWidthStrict_ok [Zero K] (text : JsString) {maxLines : ℚ} {lines : List Units}
    (h : wrapTextToWidthStrict text.1 measure maxWidth maxLines = .ok lines) :
    (lines.length : ℚ) ≤ maxLines ∧ (∀ l ∈ lines, measure l ≤ maxWidth) ∧
      ink lines.flatten = ink text.1 := by
  unfold wrapTextToWidthStrict at h
  by_cases hbounds : maxWidth ≤ 0 ∨ isSafeInteger maxLines = false ∨ maxLines < 1
  · rw [if_pos hbounds] at h
    cases h
  rw [if_neg hbounds] at h
  dsimp only at h
  split_ifs at h with hfits
  obtain ⟨hcount, hwide⟩ := not_or.1 hfits
  have hwidth : 0 < maxWidth := not_le.1 (not_or.1 hbounds).1
  have hlimit : lineLimit (maxSafeInteger : ℚ) = maxSafeInteger := by
    rw [lineLimit, Int.floor_natCast, Int.toNat_natCast]
    decide
  have hline : ∀ line ∈ splitLines text.1,
      ink (wrapTextToWidth line measure maxWidth maxSafeInteger).flatten = ink line := by
    intro line hl
    have hlength := (length_splitLines hl).trans text.2
    have hlines := @unlimitedLines_length_le K _ measure maxWidth line
    have hmax : 1 ≤ maxSafeInteger := by decide
    rw [wrapTextToWidth_eq line hwidth, hlimit, if_pos (by omega), ink_unlimitedLines]
  rw [← Except.ok.inj h]
  refine ⟨not_lt.1 hcount, fun l hl => ?_, ?_⟩
  · refine not_lt.1 fun hlt => hwide (List.any_eq_true.2 ⟨l, hl, decide_eq_true hlt⟩)
  · rw [ink_flatMap _ _ hline, ink_splitLines]

/-! ## The whole of it -/

/-- **Wrapping drops nothing silently**, with any measure: the unlimited lines carry the ink of the
text and were measured, the kept ones are the first of these, the last of them cut off behind an
ellipsis, and strict wrapping carries every line whole or throws. -/
theorem wrapping_drops_nothing [Zero K] (measure : Units → K) :
    (∀ (maxWidth : { w : K // 0 < w }) (maxLines : ℚ) (text : Units),
      (wrapTextToWidth text measure maxWidth.1 maxLines).length ≤ lineLimit maxLines ∧
      ink (unlimitedLines text measure maxWidth.1).flatten = ink text ∧
      (ink text = [] → unlimitedLines text measure maxWidth.1 = [text]) ∧
      (ink text ≠ [] → ∀ line ∈ unlimitedLines text measure maxWidth.1,
        Single line ∨ measure line ≤ maxWidth.1) ∧
      ((unlimitedLines text measure maxWidth.1).length ≤ lineLimit maxLines →
        wrapTextToWidth text measure maxWidth.1 maxLines =
          unlimitedLines text measure maxWidth.1) ∧
      (lineLimit maxLines < (unlimitedLines text measure maxWidth.1).length → ∃ line cut,
        (unlimitedLines text measure maxWidth.1)[lineLimit maxLines - 1]? = some line ∧
        wrapTextToWidth text measure maxWidth.1 maxLines =
          (unlimitedLines text measure maxWidth.1).take (lineLimit maxLines - 1) ++ [cut] ∧
        (maxWidth.1 < measure wrapEllipsis → cut = []) ∧
        (measure wrapEllipsis ≤ maxWidth.1 → ∃ k ≤ line.length,
          cut = line.take k ++ wrapEllipsis ∧ measure cut ≤ maxWidth.1 ∧
          ((∀ i j, i ≤ j → measure (line.take i ++ wrapEllipsis) ≤
              measure (line.take j ++ wrapEllipsis)) →
            ∀ j ≤ line.length, measure (line.take j ++ wrapEllipsis) ≤ maxWidth.1 → j ≤ k)))) ∧
    ∀ (maxWidth : K) (maxLines : ℚ) (text : JsString) (lines : List Units),
      wrapTextToWidthStrict text.1 measure maxWidth maxLines = .ok lines →
        (lines.length : ℚ) ≤ maxLines ∧ (∀ line ∈ lines, measure line ≤ maxWidth) ∧
          ink lines.flatten = ink text.1 := by
  constructor
  · intro maxWidth maxLines text
    refine ⟨wrapTextToWidth_length_le text maxWidth.2 maxLines, ink_unlimitedLines text, ?_, ?_, ?_,
      ?_⟩
    · intro hblank
      exact if_pos (wordsOf_eq_nil.2 hblank)
    · intro hink line hl
      exact (kept_unlimitedLines hink line hl).fits
    · intro hfew
      rw [wrapTextToWidth_eq text maxWidth.2, if_pos hfew]
    · intro hmany
      obtain ⟨line, hline, hcut⟩ := wrapTextToWidth_cut text maxWidth.2 hmany
      obtain ⟨hnone, hsome⟩ := @clipWithEllipsis_spec K _ measure maxWidth.1 line
      refine ⟨line, _, hline, hcut, hnone, fun hfits => ?_⟩
      obtain ⟨k, hk, heq, hwide, hlongest⟩ := hsome hfits
      refine ⟨k, hk, heq, ?_, hlongest⟩
      rw [heq]
      exact hwide
  · intro maxWidth maxLines text lines h
    exact wrapTextToWidthStrict_ok text h

end Wrap

/-- A measure that is never less for a longer text: two texts are wide, and what begins with one of
them. -/
def kernedWidth (s : Units) : ℚ :=
  if encode "aa b" <+: s ∨ (encode "a" ++ wrapEllipsis) <+: s then 2 else 0

/-- Two blanks come back as they are, wider than the line; and where an ellipsis is wider behind a
shorter prefix, a longer one would have fitted. -/
theorem blanks_stay_wide :
    (wrapTextToWidth (encode "  ") (fun s => (s.length : ℚ)) 1 1 = [encode "  "] ∧
      ¬ Single (encode "  ") ∧ ¬ ((encode "  ").length : ℚ) ≤ 1) ∧
    (∀ s t, s <+: t → kernedWidth s ≤ kernedWidth t) ∧
    wrapTextToWidth (encode "aa b") kernedWidth 1 1 = [wrapEllipsis] ∧
    kernedWidth (encode "aa" ++ wrapEllipsis) ≤ 1 := by
  refine ⟨⟨?_, ?_, ?_⟩, ?_, ?_, ?_⟩
  · decide +kernel
  · unfold Single
    decide
  · have h : (encode "  ").length = 2 := by decide
    rw [h]
    norm_num
  · intro s t hst
    unfold kernedWidth
    by_cases hs : encode "aa b" <+: s ∨ (encode "a" ++ wrapEllipsis) <+: s
    · rw [if_pos hs, if_pos (hs.imp (·.trans hst) (·.trans hst))]
    · rw [if_neg hs]
      split_ifs <;> norm_num
  · decide +kernel
  · decide +kernel

end Markiro
