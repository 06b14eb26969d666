import Markiro.Km.Grammar

/-!
# The canonical form of a scan

`canonicalizeKm` removes the edge blanks and one `]d2`, and the parser behind it removes a `]d2` of
its own. A scan with two of them is accepted with one left in the stored text; every other accepted
scan comes to a normal form (`canonical_unless_two_aims`).
-/

namespace Markiro

open Utf16

/-- What the canonical text of an accepted scan is: no `]d2`, from `01` on, bare of blanks, its own
canonical form, and that of every scan that wraps it. -/
structure CanonicalForm (km : ParsedKm) : Prop where
  notAim : aim.isPrefixOf km.raw = false
  start : (encode "01").isPrefixOf km.raw = true
  bare : Bare isBlank km.raw
  idempotent : canonicalizeKm km.raw = .ok km
  scans : ∀ a symbology b c : Units, (∀ u ∈ a, isBlank u = true) → symbology ∈ [[], aim] →
    (∀ u ∈ b, isBlank u = true) → (∀ u ∈ c, isBlank u = true) →
    canonicalizeKm (a ++ symbology ++ b ++ km.raw ++ c) = .ok km

/-- The scan begins with two `]d2`, blanks apart. -/
def TwoAims (raw : Units) : Prop :=
  ∃ a b t : Units, (∀ u ∈ a, isBlank u = true) ∧ (∀ u ∈ b, isBlank u = true) ∧
    raw = a ++ aim ++ b ++ aim ++ t

variable {raw r s : Units} {km : ParsedKm}

theorem canonicalizeKm_congr (h : scannedText r = scannedText s) :
    canonicalizeKm r = canonicalizeKm s := by
  unfold canonicalizeKm
  rw [h]

theorem canonicalizeKm_ok (h : canonicalizeKm raw = .ok km) :
    km.raw = scannedText raw ∧ ∃ k, KmText (scannedText raw) k ∧ km.gtin14 = k.gtin14 := by
  have hparse : parseKm (scannedText raw) = .ok km := by
    unfold canonicalizeKm at h
    simp only at h
    split at h
    · cases h
    split at h
    · cases h
    · cases h
    split at h
    · cases h
    · exact h
  obtain ⟨k, htext, -, -, rfl⟩ := parseKm_ok_iff.1 hparse
  exact ⟨rfl, k, htext, rfl⟩

/-! ## Two symbology identifiers -/

theorem aim_last : ∀ u ∈ aim.getLast?, isBlank u = false := by
  rintro u ⟨⟩
  decide

theorem aim_append_last (s : Units) : ∀ u ∈ (s ++ aim).getLast?, isBlank u = false := by
  intro u hu
  rw [List.getLast?_append_of_ne_nil _ (by decide)] at hu
  exact aim_last u hu

theorem trimBy_aim {a b t : Units} (ha : ∀ u ∈ a, isBlank u = true) :
    trimBy isBlank (a ++ aim ++ b ++ aim ++ t) = aim ++ b ++ aim ++ t.rdropWhile isBlank := by
  have hassoc : a ++ aim ++ b ++ aim ++ t = a ++ (aim ++ b ++ aim ++ t) := by
    simp only [List.append_assoc]
  rw [trimBy, hassoc, List.dropWhile_append_of_pos ha, dropWhile_eq_self (by rintro u ⟨⟩; rfl),
    rdropWhile_append (by simp [aim, encode, encodeChars, encodeChar]) (aim_append_last _)]

/-- A `]d2` is left in the text exactly when the scan begins with two. -/
theorem aim_scannedText : aim.isPrefixOf (scannedText raw) = true ↔ TwoAims raw := by
  constructor
  · intro h
    obtain ⟨t, ht⟩ := List.isPrefixOf_iff_prefix.1 h
    obtain ⟨a, c, ha, -, hr⟩ := exists_trimBy isBlank raw
    obtain ⟨b, d, hb, -, hw⟩ := exists_trimBy isBlank (withoutAim (trimBy isBlank raw))
    rcases withoutAim_cases (trimBy isBlank raw) with hsame | haim
    · -- Nothing was removed, so the text began with no `]d2`.
      exfalso
      rw [scannedText, ← hsame, trimBy_eq_self (trimBy_bare raw)] at ht
      rw [← ht, withoutAim_append] at hsame
      have := congrArg List.length hsame
      rw [List.length_append, show aim.length = 3 from rfl] at this
      omega
    · refine ⟨a, b, t ++ d ++ c, ha, hb, ?_⟩
      rw [scannedText] at ht
      rw [← ht] at hw
      rw [hw] at haim
      rw [haim] at hr
      rw [hr]
      simp only [List.append_assoc]
  · rintro ⟨a, b, t, ha, hb, rfl⟩
    rw [scannedText, trimBy_aim ha, List.append_assoc, List.append_assoc, withoutAim_append, trimBy,
      List.dropWhile_append_of_pos hb, dropWhile_eq_self (by rintro u ⟨⟩; rfl),
      rdropWhile_append (by decide) aim_last]
    exact List.isPrefixOf_iff_prefix.2 (List.prefix_append _ _)

/-! ## Wrapping a canonical text -/

theorem scannedText_wrap {a b c symbology : Units} (hbare : Bare isBlank s) (hne : s ≠ [])
    (hs : aim.isPrefixOf s = false) (ha : ∀ u ∈ a, isBlank u = true) (hsym : symbology ∈ [[], aim])
    (hb : ∀ u ∈ b, isBlank u = true) (hc : ∀ u ∈ c, isBlank u = true) :
    scannedText (a ++ symbology ++ b ++ s ++ c) = s := by
  simp only [List.mem_cons, List.not_mem_nil, or_false] at hsym
  rcases hsym with rfl | rfl
  · have hab : ∀ u ∈ a ++ b, isBlank u = true := by
      intro u hu
      rcases List.mem_append.1 hu with hu | hu
      · exact ha u hu
      · exact hb u hu
    rw [List.append_nil, scannedText, trimBy_wrap hab hc hbare, withoutAim_of_not hs,
      trimBy_eq_self hbare]
  · have hassoc : a ++ aim ++ b ++ s ++ c = a ++ (aim ++ (b ++ s)) ++ c := by
      simp only [List.append_assoc]
    have hlast : Bare isBlank (aim ++ (b ++ s)) := by
      refine ⟨by rintro u ⟨⟩; rfl, ?_⟩
      rw [← List.append_assoc, List.getLast?_append_of_ne_nil _ hne]
      exact hbare.2
    have hwrap := trimBy_wrap hb (show ∀ u ∈ ([] : Units), isBlank u = true by simp) hbare
    rw [List.append_nil] at hwrap
    rw [hassoc, scannedText, trimBy_wrap ha hc hlast, withoutAim_append, hwrap]

/-! ## The key -/

theorem kmKey_eq_iff {km km' : ParsedKm} (h : km.gtin14.length = km'.gtin14.length) :
    kmKey km = kmKey km' ↔ km.gtin14 = km'.gtin14 ∧ km.serial = km'.serial := by
  constructor
  · intro heq
    unfold kmKey at heq
    rw [List.append_assoc, List.append_assoc, List.append_assoc, List.append_assoc] at heq
    obtain ⟨hgtin, hrest⟩ := List.append_inj (List.append_cancel_left heq) h
    exact ⟨hgtin, List.append_cancel_left hrest⟩
  · rintro ⟨hgtin, hserial⟩
    rw [kmKey, kmKey, hgtin, hserial]

/-! ## The normal form -/

theorem canonicalForm_of_not_aim (h : canonicalizeKm raw = .ok km)
    (hs : aim.isPrefixOf (scannedText raw) = false) : CanonicalForm km := by
  obtain ⟨hraw, k, htext, -⟩ := canonicalizeKm_ok h
  have hrender : scannedText raw = k.render := by
    rw [← htext.withoutAim, withoutAim_of_not hs]
  have hbare : Bare isBlank (scannedText raw) := trimBy_bare _
  have hne : scannedText raw ≠ [] := by
    rw [hrender]
    simp [KmSegments.render, encode, encodeChars, encodeChar]
  have hscans : ∀ a symbology b c : Units, (∀ u ∈ a, isBlank u = true) → symbology ∈ [[], aim] →
      (∀ u ∈ b, isBlank u = true) → (∀ u ∈ c, isBlank u = true) →
      canonicalizeKm (a ++ symbology ++ b ++ km.raw ++ c) = .ok km := by
    intro a symbology b c ha hsym hb hc
    rw [← h]
    apply canonicalizeKm_congr
    rw [hraw, scannedText_wrap hbare hne hs ha hsym hb hc]
  refine ⟨hraw ▸ hs, ?_, hraw ▸ hbare, ?_, hscans⟩
  · rw [hraw, hrender, KmSegments.render]
    simp only [List.append_assoc]
    exact List.isPrefixOf_iff_prefix.2 (List.prefix_append _ _)
  · simpa using hscans [] [] [] [] (by simp) (by simp) (by simp) (by simp)

/-- **An accepted scan comes to a normal form exactly when it does not begin with two `]d2`.** The
keys of two accepted scans are equal exactly when the GTINs and the serials are. -/
theorem canonical_unless_two_aims (h : canonicalizeKm raw = .ok km) :
    (CanonicalForm km ↔ ¬ TwoAims raw) ∧
    ∀ raw' km', canonicalizeKm raw' = .ok km' →
      (kmKey km = kmKey km' ↔ km.gtin14 = km'.gtin14 ∧ km.serial = km'.serial) := by
  obtain ⟨hraw, k, htext, hgtin⟩ := canonicalizeKm_ok h
  refine ⟨⟨?_, ?_⟩, ?_⟩
  · intro hform htwo
    have hnot := hform.notAim
    rw [hraw, aim_scannedText.2 htwo] at hnot
    cases hnot
  · intro htwo
    apply canonicalForm_of_not_aim h
    rw [Bool.eq_false_iff]
    exact fun haim => htwo (aim_scannedText.1 haim)
  · intro raw' km' h'
    obtain ⟨-, k', htext', hgtin'⟩ := canonicalizeKm_ok h'
    apply kmKey_eq_iff
    rw [hgtin, hgtin', (isDigits_iff.1 htext.1.gtin14).1, (isDigits_iff.1 htext'.1.gtin14).1]

/-! ## A scan with two identifiers -/

/-- The parts of a code without trailing groups. -/
def Sample.short : KmSegments := ⟨encode "04600682000013", encode "serial", []⟩

theorem Sample.short_wellFormed : Sample.short.WellFormed :=
  ⟨by decide, by decide, by decide, by simp [Sample.short]⟩

theorem Sample.canonicalize {raw : Units} (htext : KmText (scannedText raw) Sample.short)
    (hclean : 0xfffd ∉ scannedText raw ∧ unitFault (scannedText raw) = none ∧
      utf8Length (scannedText raw) ≤ maxKmUtf8Bytes) :
    canonicalizeKm raw = .ok ⟨Sample.short.gtin14, Sample.short.serial, scannedText raw, []⟩ := by
  have hparse := parseKm_ok_iff.2 ⟨Sample.short, htext, by decide +kernel, by decide +kernel, rfl⟩
  obtain ⟨hfffd, hfault, hlen⟩ := hclean
  unfold canonicalizeKm
  simp only [hfffd, hfault, not_lt.2 hlen, if_false]
  exact hparse

theorem canonical_unless_two_aims_sample :
    CanonicalForm ⟨Sample.short.gtin14, Sample.short.serial, Sample.short.render, []⟩ := by
  have h := @Sample.canonicalize (encode " ]d2" ++ Sample.short.render)
    ⟨Sample.short_wellFormed, .inl (by decide +kernel)⟩ (by decide +kernel)
  refine (canonical_unless_two_aims h).1.2 ?_
  rw [← aim_scannedText]
  decide +kernel

/-- `]d2]d2` before a code: the text that is stored still begins with `]d2`, and is canonicalized
further. -/
theorem two_aims_not_canonical :
    ∃ km, canonicalizeKm (encode "]d2]d2010460068200001321serial") = .ok km ∧
      ¬ CanonicalForm km := by
  refine ⟨_, @Sample.canonicalize (encode "]d2]d2010460068200001321serial")
    ⟨Sample.short_wellFormed, .inr (by decide +kernel)⟩ (by decide +kernel), ?_⟩
  intro hform
  exact absurd hform.notAim (by decide +kernel)

end Markiro
