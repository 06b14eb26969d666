import Markiro.Domain.Gs1

/-!
# The grammar of a marking code

A code is `01`, the GTIN, `21` and the serial, then groups of a separator, an identifier and a value.
`KmSegments.render` writes it; the parser is its inverse on the well-formed parts and accepts no
other text.
-/

namespace Markiro

open Utf16

/-! ## Writing -/

def KmAi.render (x : KmAi) : Units := GS :: (x.ai ++ x.value)

def renderAis (ais : List KmAi) : Units := ais.flatMap KmAi.render

def KmSegments.render (k : KmSegments) : Units :=
  encode "01" ++ k.gtin14 ++ encode "21" ++ k.serial ++ renderAis k.ais

/-- Two digits and a value that is not empty and has no separator. -/
structure KmAi.WellFormed (x : KmAi) : Prop where
  ai : isDigits 2 x.ai = true
  value : x.value ≠ []
  one : GS ∉ x.value

structure KmSegments.WellFormed (k : KmSegments) : Prop where
  gtin14 : isDigits 14 k.gtin14 = true
  serial : k.serial ≠ []
  one : GS ∉ k.serial
  ais : ∀ x ∈ k.ais, x.WellFormed

/-- The text of a code: its parts, written after `]d2` or not. -/
def KmText (raw : Units) (k : KmSegments) : Prop :=
  k.WellFormed ∧ (raw = k.render ∨ raw = aim ++ k.render)

/-! ## Digits -/

theorem GS_not_mem_of_isDigits {n : ℕ} {s : Units} (h : isDigits n s = true) : GS ∉ s := by
  intro hGS
  have := (isDigits_iff.1 h).2 GS hGS
  exact absurd this (by decide)

/-! ## The trailing groups -/

section Ais

variable {rest : Units} {ais out : List KmAi} {x : KmAi}

theorem KmAi.WellFormed.GS_not_mem (h : x.WellFormed) : GS ∉ x.ai ++ x.value := by
  rw [List.mem_append, not_or]
  exact ⟨GS_not_mem_of_isDigits h.ai, h.one⟩

theorem KmAi.WellFormed.ai_length (h : x.WellFormed) : x.ai.length = 2 := (isDigits_iff.1 h.ai).1

theorem KmAi.WellFormed.two_lt (h : x.WellFormed) : 2 < (x.ai ++ x.value).length := by
  have := List.length_pos_of_ne_nil h.value
  rw [List.length_append, h.ai_length]
  omega

theorem parseKmAis_nil : parseKmAis [] ais = .ok ais := by
  rw [parseKmAis]
  rfl

/-- One pass of the loop over a group. -/
theorem parseKmAis_group {fin : Option ℕ} {tail : Units} (h : x.WellFormed)
    (hrest : rest = x.ai ++ x.value ++ tail) (hfin : rest.idxOf? GS = fin)
    (hup : upTo fin rest = x.ai ++ x.value) (hlast : fin ≠ some (rest.length - 1)) :
    parseKmAis rest ais = parseKmAis (after fin rest) (ais ++ [x]) := by
  have hlen := h.two_lt
  have htake : rest.take 2 = x.ai := by
    rw [hrest, List.append_assoc, ← h.ai_length, List.take_left]
  have hvalue : (upTo fin rest).drop 2 = x.value := by
    rw [hup, ← h.ai_length, List.drop_left]
  have hlong : 2 < rest.length := by
    rw [hrest, List.length_append]
    omega
  have hhead : [GS].isPrefixOf rest = false := by
    rw [Bool.eq_false_iff, ne_eq, List.isPrefixOf_iff_prefix]
    rintro ⟨t, ht⟩
    have hmem : GS ∈ rest.take 2 := by
      rw [← ht]
      simp
    rw [htake] at hmem
    exact GS_not_mem_of_isDigits h.ai hmem
  have hne : x.value.length ≠ 0 := by simpa using h.value
  rw [parseKmAis, hfin]
  simp only [hvalue, htake, h.ai, hhead, hne, hlast, if_false, Bool.false_eq_true,
    Bool.true_eq_false, show ¬ rest.length = 0 by omega, show ¬ rest.length ≤ 2 by omega]

theorem parseKmAis_last (h : x.WellFormed) : parseKmAis (x.ai ++ x.value) ais = .ok
    (ais ++ [x]) := by
  have hfin : (x.ai ++ x.value).idxOf? GS = none := List.idxOf?_eq_none_iff.2 h.GS_not_mem
  rw [parseKmAis_group h (List.append_nil _).symm hfin rfl (by simp), after,
    parseKmAis_nil]

theorem parseKmAis_next {b : Units} (h : x.WellFormed) (hb : b ≠ []) :
    parseKmAis (x.ai ++ x.value ++ GS :: b) ais = parseKmAis b (ais ++ [x]) := by
  have hfin := idxOf?_append (b := b) h.GS_not_mem
  have hpos := List.length_pos_of_ne_nil hb
  have hlast : some (x.ai ++ x.value).length ≠
      some ((x.ai ++ x.value ++ GS :: b).length - 1) := by
    simp only [List.length_append, List.length_cons, ne_eq, Option.some.injEq]
    omega
  rw [parseKmAis_group h rfl hfin upTo_append hlast, after_append]

theorem renderAis_cons (x : KmAi) (ais : List KmAi) :
    renderAis (x :: ais) = GS :: (x.ai ++ x.value ++ renderAis ais) := by
  simp [renderAis, KmAi.render]

theorem parseKmAis_render (hx : x.WellFormed) (h : ∀ y ∈ out, y.WellFormed) :
    parseKmAis (x.ai ++ x.value ++ renderAis out) ais = .ok (ais ++ x :: out) := by
  induction out generalizing x ais with
  | nil =>
    rw [renderAis, List.flatMap_nil, List.append_nil]
    exact parseKmAis_last hx
  | cons y out ih =>
    have hy := h y List.mem_cons_self
    have hne : y.ai ++ y.value ++ renderAis out ≠ [] := by
      have := hy.value
      simp [this]
    rw [renderAis_cons, parseKmAis_next hx hne, ih hy fun z hz => h z (List.mem_cons_of_mem _ hz)]
    simp

/-- A pass that does not fail found a group; either it was the last, or one follows. -/
theorem parseKmAis_ok (h : parseKmAis rest ais = .ok out) (hne : rest ≠ []) :
    ∃ x : KmAi, x.WellFormed ∧ (rest = x.ai ++ x.value ∨
      ∃ b, b ≠ [] ∧ rest = x.ai ++ x.value ++ GS :: b) := by
  rw [parseKmAis] at h
  have hlen : ¬ rest.length = 0 := by simpa using hne
  simp only [hlen, if_false] at h
  split at h
  · cases h
  split at h
  · cases h
  split at h
  · cases h
  next hshort hdigits =>
    have hdigits : isDigits 2 (rest.take 2) = true := by simpa using hdigits
    split at h
    · cases h
    next hvalue =>
      split at h
      · cases h
      next hlast =>
        have hai : (rest.take 2).length = 2 := (isDigits_iff.1 hdigits).1
        rcases idxOf?_cases GS rest with ⟨hGS, hfin⟩ | ⟨a, b, hrest, hGS, hfin⟩
        · rw [hfin, upTo] at hvalue
          refine ⟨⟨rest.take 2, rest.drop 2⟩, ⟨hdigits, ?_, ?_⟩, .inl ?_⟩
          · exact fun hnil => hvalue (List.length_eq_zero_iff.2 hnil)
          · exact fun hmem => hGS (List.mem_of_mem_drop hmem)
          · exact (List.take_append_drop 2 rest).symm
        · have hup : upTo (rest.idxOf? GS) rest = a := by
            rw [hfin, hrest, upTo_append]
          rw [hup] at hvalue
          have ha : 2 < a.length := by
            by_contra hle
            exact hvalue (by simp; omega)
          have htake : rest.take 2 = a.take 2 := by
            rw [hrest, List.take_append_of_le_length (by omega)]
          refine ⟨⟨a.take 2, a.drop 2⟩, ⟨htake ▸ hdigits, ?_, ?_⟩, .inr ⟨b, ?_, ?_⟩⟩
          · exact fun hnil => hvalue (List.length_eq_zero_iff.2 hnil)
          · exact fun hmem => hGS (List.mem_of_mem_drop hmem)
          · rintro rfl
            rw [hfin, hrest] at hlast
            simp at hlast
          · rw [List.take_append_drop, hrest]

/-- **The loop accepts rendered groups only, and returns them.** -/
theorem parseKmAis_sound (h : parseKmAis rest ais = .ok out) (hne : rest ≠ []) :
    ∃ groups, (∀ x ∈ groups, KmAi.WellFormed x) ∧ out = ais ++ groups ∧
      GS :: rest = renderAis groups := by
  induction hn : rest.length using Nat.strong_induction_on generalizing rest ais with
  | h n ih =>
    obtain ⟨x, hx, rfl | ⟨b, hb, rfl⟩⟩ := parseKmAis_ok h hne
    · rw [parseKmAis_last hx] at h
      obtain rfl := Except.ok.inj h
      refine ⟨[x], by simpa using hx, rfl, ?_⟩
      rw [renderAis_cons, renderAis, List.flatMap_nil, List.append_nil]
    · rw [parseKmAis_next hx hb] at h
      have hlt : b.length < n := by
        rw [← hn]
        simp
        omega
      obtain ⟨groups, hgroups, rfl, hb'⟩ := ih _ hlt h hb rfl
      refine ⟨x :: groups, ?_, by simp, ?_⟩
      · rintro y (_ | ⟨_, hy⟩)
        · exact hx
        · exact hgroups y hy
      · rw [renderAis_cons, ← hb']

end Ais

/-! ## The whole code -/

section Segments

variable {raw : Units} {k : KmSegments}

theorem withoutAim_append (s : Units) : withoutAim (aim ++ s) = s := by
  have : aim.isPrefixOf (aim ++ s) = true := List.isPrefixOf_iff_prefix.2 (List.prefix_append _ _)
  rw [withoutAim, if_pos this]
  rfl

theorem withoutAim_of_not {s : Units} (h : aim.isPrefixOf s = false) : withoutAim s = s := by
  rw [withoutAim, h]
  rfl

theorem withoutAim_cases (s : Units) : s = withoutAim s ∨ s = aim ++ withoutAim s := by
  cases h : aim.isPrefixOf s with
  | false => exact .inl (withoutAim_of_not h).symm
  | true =>
    obtain ⟨t, rfl⟩ := List.isPrefixOf_iff_prefix.1 h
    rw [withoutAim_append]
    exact .inr rfl

theorem KmSegments.render_not_aim (k : KmSegments) : aim.isPrefixOf k.render = false := rfl

theorem KmText.withoutAim (h : KmText raw k) : Markiro.withoutAim raw = k.render := by
  rcases h.2 with rfl | rfl
  · exact withoutAim_of_not k.render_not_aim
  · exact withoutAim_append _

theorem parseKmSegments_gtin {gtin14 s : Units}
    (hs : withoutAim raw = encode "01" ++ gtin14 ++ s) (hgtin : isDigits 14 gtin14 = true) :
    parseKmSegments raw =
      if (encode "21").isPrefixOf s = false then
        fail .kmNoSerial (encode "KM must carry AI 21 serial")
      else
        let gsAt := s.idxOf? GS
        let serial := (upTo gsAt s).drop 2
        let rest := after gsAt s
        if serial.length = 0 then fail .kmNoSerial (encode "KM serial is empty")
        else if gsAt ≠ none ∧ rest.length = 0 then
          fail .kmEmptyAi (encode "KM contains an empty trailing AI segment")
        else (parseKmAis rest []).map fun ais => ⟨gtin14, serial, ais⟩ := by
  have hraw : raw.length ≠ 0 := by
    intro hnil
    rw [List.length_eq_zero_iff.1 hnil] at hs
    exact absurd hs (by simp [withoutAim, aim, encode, encodeChars, encodeChar])
  have hlen : (encode "01" ++ gtin14).length = 16 := by
    rw [List.length_append, (isDigits_iff.1 hgtin).1]
    rfl
  have hstart : (encode "01").isPrefixOf (encode "01" ++ gtin14 ++ s) = true := by
    rw [List.append_assoc]
    exact List.isPrefixOf_iff_prefix.2 (List.prefix_append _ _)
  have hcolumn : ((encode "01" ++ gtin14 ++ s).take 16).drop 2 = gtin14 := by
    rw [← hlen, List.take_left]
    rfl
  have hrest : (encode "01" ++ gtin14 ++ s).drop 16 = s := by rw [← hlen, List.drop_left]
  rw [parseKmSegments, if_neg hraw, hs]
  simp only [hstart, hcolumn, hrest, hgtin, Bool.true_eq_false, if_false]

theorem parseKmSegments_render (hk : k.WellFormed) (hs : withoutAim raw = k.render) :
    parseKmSegments raw = .ok k := by
  obtain ⟨gtin14, serial, ais⟩ := k
  have hs' : withoutAim raw = encode "01" ++ gtin14 ++ (encode "21" ++ serial ++ renderAis ais) := by
    rw [hs, KmSegments.render]
    simp only [List.append_assoc]
  have hstart : (encode "21").isPrefixOf (encode "21" ++ serial ++ renderAis ais) = true := by
    rw [List.append_assoc]
    exact List.isPrefixOf_iff_prefix.2 (List.prefix_append _ _)
  have hserial : (encode "21" ++ serial).drop 2 = serial := rfl
  have hpos : serial.length ≠ 0 := fun hnil => hk.serial (List.length_eq_zero_iff.1 hnil)
  have hGS : GS ∉ encode "21" ++ serial := by
    rw [List.mem_append, not_or]
    exact ⟨by decide, hk.one⟩
  rw [parseKmSegments_gtin hs' hk.gtin14, hstart]
  cases ais with
  | nil =>
    have hfin : (encode "21" ++ serial).idxOf? GS = none := List.idxOf?_eq_none_iff.2 hGS
    rw [show renderAis [] = [] from rfl, List.append_nil, hfin]
    simp only [upTo, after, hserial, hpos, parseKmAis_nil]
    rfl
  | cons x ais =>
    have hx := hk.ais x List.mem_cons_self
    have hne : (x.ai ++ x.value ++ renderAis ais).length ≠ 0 := by
      have := hx.two_lt
      rw [List.length_append]
      omega
    rw [renderAis_cons, idxOf?_append hGS]
    simp only [upTo_append, after_append, hserial, hpos, hne, Bool.true_eq_false, and_false,
      if_false, parseKmAis_render hx fun y hy => hk.ais y (List.mem_cons_of_mem _ hy)]
    rfl

/-- A text that is not refused before the serial has its two columns. -/
theorem parseKmSegments_columns (h : parseKmSegments raw = .ok k) :
    ∃ gtin14 t, isDigits 14 gtin14 = true ∧
      withoutAim raw = encode "01" ++ gtin14 ++ (encode "21" ++ t) := by
  unfold parseKmSegments at h
  simp only at h
  split at h
  · cases h
  split at h
  · cases h
  split at h
  · cases h
  split at h
  · cases h
  next h01 hgtin h21 =>
    obtain ⟨t, ht⟩ := List.isPrefixOf_iff_prefix.1 (Bool.not_eq_false _ ▸ h21)
    refine ⟨((withoutAim raw).take 16).drop 2, t, by simpa using hgtin, ?_⟩
    obtain ⟨t', ht'⟩ := List.isPrefixOf_iff_prefix.1 (Bool.not_eq_false _ ▸ h01)
    rw [ht, ← ht']
    show encode "01" ++ t' = encode "01" ++ t'.take 14 ++ t'.drop 14
    rw [List.append_assoc, List.take_append_drop]

theorem parseKmSegments_sound (h : parseKmSegments raw = .ok k) :
    k.WellFormed ∧ withoutAim raw = k.render := by
  obtain ⟨gtin14, t, hgtin, hs⟩ := parseKmSegments_columns h
  have hstart : (encode "21").isPrefixOf (encode "21" ++ t) = true :=
    List.isPrefixOf_iff_prefix.2 (List.prefix_append _ _)
  rw [parseKmSegments_gtin hs hgtin, hstart] at h
  simp only [Bool.true_eq_false, if_false] at h
  have hserial (a : Units) : (encode "21" ++ a).drop 2 = a := rfl
  rcases idxOf?_cases GS t with ⟨hGS, -⟩ | ⟨a, b, rfl, hGS, -⟩
  · -- No separator: the serial is all there is.
    have hfin : (encode "21" ++ t).idxOf? GS = none := by
      rw [List.idxOf?_eq_none_iff, List.mem_append, not_or]
      exact ⟨by decide, hGS⟩
    simp only [hfin, upTo, after, hserial, parseKmAis_nil] at h
    split at h
    · cases h
    next hpos =>
      obtain rfl := Except.ok.inj h
      refine ⟨⟨hgtin, fun hnil => hpos (List.length_eq_zero_iff.2 hnil), hGS, by simp⟩, ?_⟩
      rw [hs, KmSegments.render]
      simp [renderAis]
  · have hGS' : GS ∉ encode "21" ++ a := by
      rw [List.mem_append, not_or]
      exact ⟨by decide, hGS⟩
    rw [← List.append_assoc, idxOf?_append hGS'] at h
    simp only [upTo_append, after_append, hserial] at h
    split at h
    · cases h
    split at h
    · cases h
    next hpos hrest =>
      have hb : b ≠ [] := by
        rintro rfl
        exact hrest ⟨by simp, rfl⟩
      cases hais : parseKmAis b [] with
      | error e => rw [hais] at h; cases h
      | ok ais =>
        rw [hais] at h
        obtain rfl := Except.ok.inj h
        obtain ⟨groups, hgroups, rfl, hb'⟩ := parseKmAis_sound hais hb
        refine ⟨⟨hgtin, fun hnil => hpos (List.length_eq_zero_iff.2 hnil), hGS, hgroups⟩, ?_⟩
        rw [hs, hb', KmSegments.render]
        simp only [List.append_assoc]

/-- **The parser's answer is the parts of the text, and it answers exactly the texts of a code.** -/
theorem parseKmSegments_ok_iff : parseKmSegments raw = .ok k ↔ KmText raw k := by
  constructor
  · intro h
    obtain ⟨hk, hs⟩ := parseKmSegments_sound h
    refine ⟨hk, ?_⟩
    rw [← hs]
    exact withoutAim_cases raw
  · intro h
    exact parseKmSegments_render h.1 h.withoutAim

end Segments

/-! ## The check digit and the record -/

theorem normalizeToGtin14_ok_iff {gtin14 out : Units} (h : isDigits 14 gtin14 = true) :
    normalizeToGtin14 gtin14 = .ok out ↔ hasValidCheckDigit gtin14 = true ∧ out = gtin14 := by
  obtain ⟨hlen, hall⟩ := isDigits_iff.1 h
  have hshape : ¬ (gtin14.all isDigit = false ∨ gtin14.length ∉ [8, 12, 13, 14]) := by
    rw [List.all_eq_true.2 hall, hlen]
    decide
  have hpad : gtin14.leftpad 14 48 = gtin14 := by simp [List.leftpad, hlen]
  rw [normalizeToGtin14, if_neg hshape, hpad]
  cases hasValidCheckDigit gtin14 with
  | false => simp [fail]
  | true => simp [eq_comm]

theorem recordOfAis_ok_iff {l acc out : List KmAi} (hacc : (acc.map KmAi.ai).Nodup) :
    recordOfAis l acc = .ok out ↔ ((acc ++ l).map KmAi.ai).Nodup ∧ out = acc ++ l := by
  induction l generalizing acc with
  | nil => simp [recordOfAis, hacc, eq_comm]
  | cons x l ih =>
    rw [recordOfAis]
    by_cases hx : x.ai ∈ acc.map KmAi.ai
    · have hany : (acc.any fun y => decide (y.ai = x.ai)) = true := by simpa using hx
      rw [if_pos hany]
      constructor
      · intro h
        cases h
      · rintro ⟨hnodup, -⟩
        rw [List.map_append, List.nodup_append] at hnodup
        exact absurd rfl (hnodup.2.2 _ hx _ (by simp))
    · have hany : ¬ (acc.any fun y => decide (y.ai = x.ai)) = true := by simpa using hx
      have hacc' : ((acc ++ [x]).map KmAi.ai).Nodup := by
        rw [List.map_append, List.nodup_append]
        refine ⟨hacc, List.nodup_singleton _, ?_⟩
        rintro a ha b hb rfl
        exact hx (List.mem_singleton.1 hb ▸ ha)
      rw [if_neg hany, ih hacc', List.append_assoc]
      rfl

theorem recordOfAis_nil_ok_iff {l out : List KmAi} :
    recordOfAis l [] = .ok out ↔ (l.map KmAi.ai).Nodup ∧ out = l := by
  simpa using @recordOfAis_ok_iff l [] out List.nodup_nil

theorem parseKm_ok_iff {raw : Units} {km : ParsedKm} :
    parseKm raw = .ok km ↔ ∃ k, KmText raw k ∧ hasValidCheckDigit k.gtin14 = true ∧
      (k.ais.map KmAi.ai).Nodup ∧ km = ⟨k.gtin14, k.serial, raw, k.ais⟩ := by
  have hbind : parseKm raw = .ok km ↔ ∃ k gtin14 ais, parseKmSegments raw = .ok k ∧
      normalizeToGtin14 k.gtin14 = .ok gtin14 ∧ recordOfAis k.ais [] = .ok ais ∧
      km = ⟨gtin14, k.serial, raw, ais⟩ := by
    unfold parseKm
    cases hk : parseKmSegments raw with
    | error e => simp [bind, Except.bind]
    | ok k =>
      cases hg : normalizeToGtin14 k.gtin14 with
      | error e => simp [bind, Except.bind, hg]
      | ok gtin14 =>
        cases hr : recordOfAis k.ais [] with
        | error e => simp [bind, Except.bind, hg, hr]
        | ok ais => simp [bind, Except.bind, hg, hr, pure, Except.pure, eq_comm]
  rw [hbind]
  constructor
  · rintro ⟨k, gtin14, ais, hk, hg, hr, rfl⟩
    have htext := parseKmSegments_ok_iff.1 hk
    obtain ⟨hvalid, rfl⟩ := (normalizeToGtin14_ok_iff htext.1.gtin14).1 hg
    obtain ⟨hnodup, rfl⟩ := recordOfAis_nil_ok_iff.1 hr
    exact ⟨k, htext, hvalid, hnodup, rfl⟩
  · rintro ⟨k, htext, hvalid, hnodup, rfl⟩
    exact ⟨k, k.gtin14, k.ais, parseKmSegments_ok_iff.2 htext,
      (normalizeToGtin14_ok_iff htext.1.gtin14).2 ⟨hvalid, rfl⟩,
      recordOfAis_nil_ok_iff.2 ⟨hnodup, rfl⟩, rfl⟩

/-- **The parser accepts exactly the grammar and undoes the writing.** It answers a text if and only
if the text writes some well-formed parts, its answer writes the text back, the written parts come
back as they are, and `parseKm` accepts the texts of the grammar with a right check digit and
identifiers that are pairwise distinct. -/
theorem parser_inverts_render :
    (∀ raw, (∃ k, parseKmSegments raw = .ok k) ↔ ∃ k, KmText raw k) ∧
    (∀ raw k, parseKmSegments raw = .ok k → k.WellFormed ∧ k.render = withoutAim raw) ∧
    (∀ k : KmSegments, k.WellFormed →
      parseKmSegments k.render = .ok k ∧ parseKmSegments (aim ++ k.render) = .ok k) ∧
    ∀ raw, (∃ km, parseKm raw = .ok km) ↔ ∃ k, KmText raw k ∧
      hasValidCheckDigit k.gtin14 = true ∧ (k.ais.map KmAi.ai).Nodup := by
  refine ⟨fun raw => exists_congr fun k => parseKmSegments_ok_iff, ?_, ?_, ?_⟩
  · intro raw k h
    obtain ⟨hk, hs⟩ := parseKmSegments_sound h
    exact ⟨hk, hs.symm⟩
  · intro k hk
    exact ⟨parseKmSegments_ok_iff.2 ⟨hk, .inl rfl⟩, parseKmSegments_ok_iff.2 ⟨hk, .inr rfl⟩⟩
  · intro raw
    constructor
    · rintro ⟨km, h⟩
      obtain ⟨k, htext, hvalid, hnodup, -⟩ := parseKm_ok_iff.1 h
      exact ⟨k, htext, hvalid, hnodup⟩
    · rintro ⟨k, htext, hvalid, hnodup⟩
      exact ⟨_, parseKm_ok_iff.2 ⟨k, htext, hvalid, hnodup, rfl⟩⟩

/-- A code with two trailing groups. -/
def Sample.segments : KmSegments :=
  ⟨encode "04600682000013", encode "5Kj)aX", [⟨encode "91", encode "EE10"⟩, ⟨encode "92", encode "x="⟩]⟩

theorem Sample.segments_wellFormed : Sample.segments.WellFormed := by
  refine ⟨by decide, by decide, by decide, ?_⟩
  intro x hx
  simp only [Sample.segments, List.mem_cons, List.not_mem_nil, or_false] at hx
  rcases hx with rfl | rfl <;> exact ⟨by decide, by decide, by decide⟩

theorem parser_inverts_render_sample :
    parseKmSegments (aim ++ Sample.segments.render) = .ok Sample.segments :=
  (parser_inverts_render.2.2.1 Sample.segments Sample.segments_wellFormed).2

end Markiro
