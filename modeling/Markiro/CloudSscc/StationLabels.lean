import Markiro.CloudSscc.BurnedOnce

/-!
# The labels of the stations

What `buildSscc` writes of the serials that the stations burn: a label is read back to its serial,
and no two are alike.
-/

namespace Markiro.CloudSscc

open Utf16

variable {k k' : Key} {size : ℕ+} {w : System}

/-- The label of a serial. -/
def Key.label (k : Key) (serial : ℕ) : Domain Units :=
  buildSscc k.extensionDigit k.issuerPrefix.units serial

theorem Reached.ssccArgs (h : Reached k size w) (hdigit : k.extensionDigit ≤ 9) {s : ℕ}
    (hs : s ∈ w.burned.map Prod.snd) :
    SsccArgs k.extensionDigit k.issuerPrefix.units s := by
  obtain ⟨x, hx, rfl⟩ := List.mem_map.1 hs
  obtain ⟨b, hb, -, -, hle⟩ := h.inv.covered x hx
  have hserial : x.2 < serialSpace := hle.trans_lt (h.inv.sound.proper b hb).2.1
  refine ⟨hdigit, k.issuerPrefix.digits, ?_, ?_, ?_⟩
  · rw [k.issuerPrefix.length]
    decide
  · rw [k.issuerPrefix.length]
    decide
  · rw [k.issuerPrefix.length]
    exact hserial

theorem Key.label_injective {s s' : ℕ} {x : Units} (h : k.label s = .ok x)
    (h' : k'.label s' = .ok x) :
    k.extensionDigit = k'.extensionDigit ∧ k.issuerPrefix = k'.issuerPrefix ∧ s = s' := by
  obtain ⟨hdigit, hprefix, hserial⟩ := buildSscc_injective h h'
    (k.issuerPrefix.length.trans k'.issuerPrefix.length.symm)
  refine ⟨Nat.cast_injective hdigit, ?_, Nat.cast_injective hserial⟩
  cases hk : k.issuerPrefix with
  | mk units digits length =>
    cases hk' : k'.issuerPrefix with
    | mk units' digits' length' =>
      rw [hk, hk'] at hprefix
      obtain rfl : units = units' := hprefix
      rfl

/-- **No two labels are alike.** In every system some run comes to, each burned serial has a label
that the cloud reads back to the extension digit, the issuer and the serial; the labels of the burns
are distinct; and no serial of another digit or issuer has one of them. -/
theorem station_labels (h : Reached k size w) (hdigit : k.extensionDigit ≤ 9) :
    (∀ x ∈ w.burned, ∃ sscc, k.label x.2 = .ok sscc ∧ parseSscc sscc issuerPrefixLength =
      .ok (some ⟨k.extensionDigit, k.issuerPrefix.units, x.2⟩)) ∧
    (w.burned.map fun x => (k.label x.2).toOption).Nodup ∧
    ∀ x ∈ w.burned, ∀ (k' : Key) (s : ℕ), k.label x.2 = k'.label s →
      k.extensionDigit = k'.extensionDigit ∧ k.issuerPrefix = k'.issuerPrefix ∧ x.2 = s := by
  have hlabel (s : ℕ) (hs : s ∈ w.burned.map Prod.snd) : ∃ sscc, k.label s = .ok sscc ∧
      parseSscc sscc issuerPrefixLength =
        .ok (some ⟨k.extensionDigit, k.issuerPrefix.units, s⟩) := by
    have hread := parseSscc_buildSscc (h.ssccArgs hdigit hs)
    rw [k.issuerPrefix.length] at hread
    exact hread
  refine ⟨fun x hx => hlabel x.2 (List.mem_map_of_mem hx), ?_, fun x hx k' s heq => ?_⟩
  · have hmap : w.burned.map (fun x => (k.label x.2).toOption) =
        (w.burned.map Prod.snd).map fun s => (k.label s).toOption := by
      rw [List.map_map]
      rfl
    rw [hmap]
    refine h.inv.distinct.map_on fun s hs s' hs' heq => ?_
    obtain ⟨x, hx, -⟩ := hlabel s hs
    obtain ⟨x', hx', -⟩ := hlabel s' hs'
    rw [hx, hx'] at heq
    obtain rfl : x = x' := Option.some.inj heq
    exact (Key.label_injective hx hx').2.2
  · obtain ⟨sscc, hsscc, -⟩ := hlabel x.2 (List.mem_map_of_mem hx)
    exact Key.label_injective hsscc (heq ▸ hsscc)

theorem station_labels_sample : ∃ w, Reached Sample.boxes 3 w ∧ w.burned = [("first", 1)] ∧
    (w.burned.map fun x => (Sample.boxes.label x.2).toOption).Nodup := by
  have hfetch : Reached Sample.boxes 3 _ := .tail .refl (.fetch System.start "first" _ Sample.bundle
    (Prod.ext rfl Sample.bundle_read))
  have hdrop : Reached Sample.boxes 3 _ := .tail hfetch (.drop _ "first" 0 _ rfl le_rfl)
  have hadd : Reached Sample.boxes 3 _ := .tail hdrop (.add _ "first" _ rfl)
  have hburn : Reached Sample.boxes 3 _ := .tail hadd (.burn _ "first" (.inl rfl))
  exact ⟨_, hburn, rfl, (station_labels hburn (by decide)).2.1⟩

end Markiro.CloudSscc
