import Markiro.CloudSscc.Blocks

/-!
# A printed serial is not cut again

`recordConsumedSerial` learns from a box closure that a serial stands on a box, also when the block
it came from was revoked meanwhile. The floor below which a counter is not seeded is one past these
serials, but it is looked at only when the counter is seeded: a serial that is reported when the
counter already stands at or below it is cut again.
-/

namespace Markiro.CloudSscc

open Utf16

def recordedSerial (t : Tables) : Event → Option (String × ParsedSscc)
  | .call (.recordConsumedSerial tenantId sscc) =>
    match parseSscc sscc issuerPrefixLength with
    | .ok (some p) => if t.ssccBlocks.any (·.covers tenantId p) then some (tenantId, p) else none
    | _ => none
  | _ => none

def NeverCutAgain (events : List Event) : Prop :=
  ∀ before e after, events = before ++ e :: after →
    ∀ tenantId p, recordedSerial (run before).tables e = some (tenantId, p) →
      ∀ b ∈ (run events).tables.ssccBlocks.drop (run (before ++ [e])).tables.ssccBlocks.length,
        b.covers tenantId p = false

/-- The counter of a parsed number stands above its serial. -/
def Passed (t : Tables) (tenantId : String) (p : ParsedSscc) : Prop :=
  ∀ k : Key, k.tenantId = tenantId → k.issuerPrefix.units = p.gs1Prefix →
    k.extensionDigit = p.extensionDigit → ∃ n, t.ssccCounters k = some n ∧ p.serial < n

/-- Every serial is recorded while its counter stands above it. -/
def InTime (events : List Event) : Prop :=
  ∀ before e after, events = before ++ e :: after →
    ∀ tenantId p, recordedSerial (run before).tables e = some (tenantId, p) →
      Passed (run before).tables tenantId p

/-! ## A recorded serial -/

/-- The key of a number that a block covers. -/
structure KeyOf (tenantId : String) (p : ParsedSscc) (k : Key) : Prop where
  tenant : k.tenantId = tenantId
  issuer : k.issuerPrefix.units = p.gs1Prefix
  digit : k.extensionDigit = p.extensionDigit

/-- A serial of the key was recorded when there were `since` blocks: the counter is above it, a block
holds the record, and none of the blocks cut since covers it. -/
structure Kept (tenantId : String) (p : ParsedSscc) (k : Key) (since : ℕ) (t : Tables) : Prop where
  passed : ∃ n, t.ssccCounters k = some n ∧ p.serial < n
  printed : ∃ b ∈ t.ssccBlocks, b.toKey = k ∧ ∃ c, b.consumedThroughSerial = some c ∧ p.serial ≤ c
  since_le : since ≤ t.ssccBlocks.length
  spared : ∀ b ∈ t.ssccBlocks.drop since, b.covers tenantId p = false

variable {tenantId : String} {p : ParsedSscc} {k : Key} {since : ℕ} {t : Tables}

theorem BlockRow.covers_iff {b : BlockRow} : b.covers tenantId p = true ↔
    KeyOf tenantId p b.toKey ∧ b.fromSerial ≤ p.serial ∧ p.serial ≤ b.toSerial := by
  simp only [BlockRow.covers, decide_eq_true_eq]
  exact ⟨fun ⟨h1, h2, h3, h4, h5⟩ => ⟨⟨h1, h2, h3⟩, h4, h5⟩,
    fun ⟨⟨h1, h2, h3⟩, h4, h5⟩ => ⟨h1, h2, h3, h4, h5⟩⟩

theorem KeyOf.eq {k' : Key} (h : KeyOf tenantId p k) (h' : KeyOf tenantId p k') : k' = k := by
  obtain ⟨te, ⟨u, hd, hl⟩, ex⟩ := k
  obtain ⟨te', ⟨u', hd', hl'⟩, ex'⟩ := k'
  obtain ⟨rfl, h2, rfl⟩ := h
  obtain ⟨rfl, h2', rfl⟩ := h'
  have : u' = u := h2'.trans h2.symm
  subst this
  rfl

theorem Kept.lt_floor (h : Kept tenantId p k since t) : p.serial < seedFloor t k := by
  obtain ⟨b, hb, rfl, c, hc, hle⟩ := h.printed
  exact lt_seedFloor hb hc hle

theorem Kept.cut (h : Kept tenantId p k since t) (hkey : KeyOf tenantId p k) {k' : Key}
    (deviceId : String) (size : ℕ+) (hlt : startOf t k' < serialSpace) :
    Kept tenantId p k since (CloudSscc.cut t k' deviceId size) := by
  obtain ⟨n, hn, hserial⟩ := h.passed
  have hstart : n ≤ startOf t k := by
    unfold startOf
    rw [hn]
    exact le_max_left _ _
  refine ⟨?_, ?_, ?_, ?_⟩
  · by_cases hk : k = k'
    · subst hk
      refine ⟨endOf (startOf t k) size, Function.update_self _ _ _, ?_⟩
      have := @endOf_gt size (startOf t k) hlt
      omega
    · exact ⟨n, (Function.update_of_ne hk _ _).trans hn, hserial⟩
  · obtain ⟨b, hb, hrest⟩ := h.printed
    exact ⟨b, List.mem_append_left _ hb, hrest⟩
  · exact h.since_le.trans (by simp [CloudSscc.cut, setCounter])
  · intro b hb
    have hdrop : (CloudSscc.cut t k' deviceId size).ssccBlocks.drop since =
        t.ssccBlocks.drop since ++ [cutRow t k' deviceId size] :=
      List.drop_append_of_le_length h.since_le
    rw [hdrop] at hb
    rcases List.mem_append.1 hb with hb | hb
    · exact h.spared b hb
    · obtain rfl := List.mem_singleton.1 hb
      -- The new block begins at the counter, which has passed the serial.
      rw [Bool.eq_false_iff]
      intro hcovers
      obtain ⟨hkey', hfrom, -⟩ := BlockRow.covers_iff.1 hcovers
      have hk : k' = k := hkey.eq hkey'
      have hfrom : startOf t k' ≤ p.serial := hfrom
      rw [hk] at hfrom
      omega

/-- Blocks rewritten in place keep a recorded serial when no record is lowered. -/
theorem Kept.mapBlocks (h : Kept tenantId p k since t) {t' : Tables} {f : BlockRow → BlockRow}
    (hblocks : t'.ssccBlocks = t.ssccBlocks.map f)
    (hkey : ∀ b, (f b).toKey = b.toKey)
    (hfrom : ∀ b, (f b).fromSerial = b.fromSerial) (hto : ∀ b, (f b).toSerial = b.toSerial)
    (hconsumed : ∀ b c, b.consumedThroughSerial = some c →
      ∃ c', (f b).consumedThroughSerial = some c' ∧ c ≤ c')
    (hpassed : ∃ n, t'.ssccCounters k = some n ∧ p.serial < n) : Kept tenantId p k since t' := by
  refine ⟨hpassed, ?_, ?_, ?_⟩
  · obtain ⟨b, hb, hk, c, hc, hle⟩ := h.printed
    obtain ⟨c', hc', hle'⟩ := hconsumed b c hc
    exact ⟨f b, by rw [hblocks]; exact List.mem_map_of_mem hb, (hkey b).trans hk, c', hc',
      hle.trans hle'⟩
  · rw [hblocks, List.length_map]
    exact h.since_le
  · intro b hb
    rw [hblocks, ← List.map_drop] at hb
    obtain ⟨a, ha, rfl⟩ := List.mem_map.1 hb
    have hspared := h.spared a ha
    rw [Bool.eq_false_iff] at hspared ⊢
    intro hcovers
    obtain ⟨hkey', hrest⟩ := BlockRow.covers_iff.1 hcovers
    rw [hfrom, hto] at hrest
    rw [hkey] at hkey'
    exact hspared (BlockRow.covers_iff.2 ⟨hkey', hrest⟩)

theorem Kept.served (h : Kept tenantId p k since t) (hkey : KeyOf tenantId p k) {c : Call}
    {r : Tables × Except Refusal Unit} (hs : Served t c r) : Kept tenantId p k since r.1 := by
  cases hs with
  | refused _ e => exact h
  | kept _ hc => exact h
  | cut _ hc k' deviceId size hlt => exact h.cut hkey deviceId size hlt
  | consumed tenantId' sscc q hq =>
    refine h.mapBlocks rfl ?_ ?_ ?_ (fun b c hc => ?_) h.passed
    · intro b
      split <;> rfl
    · intro b
      split <;> rfl
    · intro b
      split <;> rfl
    · split
      · refine ⟨max c q.serial, ?_, le_max_left _ _⟩
        simp [raiseTo, hc]
      · exact ⟨c, hc, le_rfl⟩
  | reseeded now k' n hb hfloor =>
    have hpassed : ∃ m, Function.update t.ssccCounters k' (some n) k = some m ∧ p.serial < m := by
      by_cases hk : k = k'
      · subst hk
        exact ⟨n, Function.update_self _ _ _, h.lt_floor.trans_le hfloor⟩
      · rw [Function.update_of_ne hk]
        exact h.passed
    show Kept tenantId p k since (reseed now t k' n)
    unfold reseed
    split
    · exact ⟨hpassed, h.printed, h.since_le, h.spared⟩
    · refine h.mapBlocks rfl ?_ ?_ ?_ (fun b c hc => ?_) hpassed
      · intro b
        split <;> rfl
      · intro b
        split <;> rfl
      · intro b
        split <;> rfl
      · split
        · exact ⟨c, hc, le_rfl⟩
        · exact ⟨c, hc, le_rfl⟩

theorem Kept.run (hkey : KeyOf tenantId p k) (events : List Event) {w : World}
    (h : Kept tenantId p k since w.tables) :
    Kept tenantId p k since (events.foldl World.step w).tables := by
  refine List.foldlRecOn (motive := fun w => Kept tenantId p k since w.tables) events World.step h
    fun w h e _ => ?_
  cases e with
  | call c => exact h.served hkey (CloudSscc.served c w.tables)
  | elsewhere shifts stationDevices => exact ⟨h.passed, h.printed, h.since_le, h.spared⟩

theorem kept_of_recorded {w : World} {e : Event}
    (hr : recordedSerial w.tables e = some (tenantId, p)) (hp : Passed w.tables tenantId p) :
    ∃ k, KeyOf tenantId p k ∧
      Kept tenantId p k (w.step e).tables.ssccBlocks.length (w.step e).tables := by
  cases e with
  | elsewhere shifts stationDevices => cases hr
  | call c =>
    cases c with
    | recordConsumedSerial tenant sscc =>
      simp only [recordedSerial] at hr
      split at hr
      · rename_i q hq
        split at hr
        · rename_i hany
          cases hr
          obtain ⟨b, hb, hcovers⟩ := List.any_eq_true.1 hany
          obtain ⟨hkey, hfrom, hto⟩ := BlockRow.covers_iff.1 hcovers
          have hserve : serve (.recordConsumedSerial tenantId sscc) w.tables =
              (consume w.tables tenantId p, .ok ()) := by
            simp only [serve, transaction, Call.body, recordConsumedSerial, hq]
            rfl
          have hstep : (w.step (.call (.recordConsumedSerial tenantId sscc))).tables =
              consume w.tables tenantId p := by
            simp only [World.step, hserve]
          rw [hstep]
          refine ⟨b.toKey, hkey, ?_, ?_, le_rfl, by simp⟩
          · exact hp b.toKey hkey.tenant hkey.issuer hkey.digit
          · refine ⟨_, List.mem_map_of_mem hb, ?_⟩
            rw [if_pos hcovers]
            exact ⟨rfl, _, rfl, le_max_right _ _⟩
        · cases hr
      · cases hr
    | allocate k deviceId size => cases hr
    | allocateOrderedForBundle k deviceId size => cases hr
    | topUpForDevice tenantId issuerPrefix deviceId size threshold => cases hr
    | seedCounter now k n => cases hr

/-- **A printed serial is not cut again** in a run that records every serial while its counter stands
above it. -/
theorem printed_serial_never_cut_again (events : List Event) (h : InTime events) :
    NeverCutAgain events := by
  intro before e after hevents tenantId p hr b hb
  obtain ⟨k, hkey, hkept⟩ := kept_of_recorded hr (h before e after hevents tenantId p hr)
  have hrun : run (before ++ [e]) = (run before).step e := by
    rw [run, List.foldl_append]
    rfl
  have hall : run events = after.foldl World.step ((run before).step e) := by
    rw [hevents, run, List.foldl_append]
    rfl
  rw [hall, hrun] at hb
  exact (hkept.run hkey after).spared b hb

/-! ## A late closure -/

namespace Sample

def issuer : IssuerPrefix := ⟨encode "460000000", by decide, by decide⟩

def boxes : Key := ⟨"tenant", issuer, boxExtensionDigit⟩

/-- The shift is closed, and its device was seen since. -/
def closed : Event :=
  .elsewhere [⟨"tenant", "shift", .closed, "AUG26", 1, .admin, some 10⟩]
    [⟨"tenant", "first", "Line 1", some 11, none⟩]

/-- The SSCC of the serial 2. -/
def second : Units := encode "046000000000000022"

def record : Event := .call (.recordConsumedSerial "tenant" second)

def block (deviceId : String) : Event := .call (.allocate boxes deviceId 3)

/-- The first device's block is revoked by a reseed before its box of the serial 2 is uploaded, and
another device is then given the serials from 1 on. -/
def late : List Event :=
  [closed, block "first", .call (.seedCounter 20 boxes 1), record, block "other"]

/-- The closure arrives while the counter is still past the first block. -/
def timely : List Event := [closed, block "first", record, block "other"]

end Sample

theorem late_closure_cut_again : ¬NeverCutAgain Sample.late := by
  intro h
  have hcut := h [Sample.closed, Sample.block "first", .call (.seedCounter 20 Sample.boxes 1)]
    Sample.record [Sample.block "other"] rfl "tenant" ⟨0, encode "460000000", 2⟩ (by decide +kernel)
    ⟨Sample.boxes, 1, "other", 1, 3, none, none⟩ (by decide +kernel)
  revert hcut
  decide +kernel

theorem Sample.timely_inTime : InTime Sample.timely := by
  intro before e after hevents tenantId p hr
  have hrecord : e = Sample.record → before = [Sample.closed, Sample.block "first"] →
      Passed (run before).tables tenantId p := by
    rintro rfl rfl
    have hp : recordedSerial (run [Sample.closed, Sample.block "first"]).tables Sample.record =
        some ("tenant", ⟨0, encode "460000000", 2⟩) := by decide +kernel
    rw [hp] at hr
    cases hr
    intro k htenant hissuer hdigit
    obtain rfl : k = Sample.boxes :=
      @KeyOf.eq "tenant" ⟨0, encode "460000000", 2⟩ Sample.boxes k ⟨rfl, rfl, rfl⟩
        ⟨htenant, hissuer, hdigit⟩
    exact ⟨4, by decide +kernel, by decide⟩
  rw [Sample.timely] at hevents
  rcases before with _ | ⟨a, _ | ⟨b, _ | ⟨c, _ | ⟨d, before⟩⟩⟩⟩ <;>
    simp only [List.nil_append, List.cons_append, List.cons.injEq] at hevents
  · obtain ⟨rfl, -⟩ := hevents
    cases hr
  · obtain ⟨-, rfl, -⟩ := hevents
    cases hr
  · obtain ⟨rfl, rfl, rfl, -⟩ := hevents
    exact hrecord rfl rfl
  · obtain ⟨-, -, -, rfl, -⟩ := hevents
    cases hr
  · obtain ⟨-, -, -, -, hnil⟩ := hevents
    cases before <;> cases hnil

theorem printed_serial_never_cut_again_timely : NeverCutAgain Sample.timely :=
  printed_serial_never_cut_again Sample.timely Sample.timely_inTime

end Markiro.CloudSscc
