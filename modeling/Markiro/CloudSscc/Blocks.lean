import Markiro.CloudSscc.Service

/-!
# Live blocks never overlap

The counter of a prefix and a digit moves forward with every block that is cut and to wherever an
administrator puts it. `Served` lists what a call can do to the tables; `Tables.Sound` is what every
call keeps: live blocks lie apart and below the counter, which the revocation of a moved counter
preserves because it leaves none.
-/

namespace Markiro.CloudSscc

open Utf16

/-! ## What a call does -/

/-- The serials of a prefix and a digit: seven digits are left of the sixteen. -/
def serialSpace : ℕ := 10 ^ 7

theorem IssuerPrefix.capacity (p : IssuerPrefix) :
    ssccSerialCapacity p.units = .ok serialSpace := by
  rw [ssccSerialCapacity, if_pos ⟨p.digits, by rw [p.length]; decide, by rw [p.length]; decide⟩,
    p.length]
  rfl

/-- Where the next block begins. -/
def startOf (t : Tables) (k : Key) : ℕ :=
  max ((t.ssccCounters k).getD 0) (firstSerial k.extensionDigit)

def endOf (start : ℕ) (size : ℕ+) : ℕ := min (start + size) serialSpace

def cutRow (t : Tables) (k : Key) (deviceId : String) (size : ℕ+) : BlockRow :=
  ⟨k, nextOrder t k deviceId, deviceId, startOf t k, endOf (startOf t k) size - 1, none, none⟩

def cut (t : Tables) (k : Key) (deviceId : String) (size : ℕ+) : Tables :=
  { setCounter t k (endOf (startOf t k) size) with
    ssccBlocks := t.ssccBlocks ++ [cutRow t k deviceId size] }

variable {size : ℕ+}

theorem endOf_gt {start : ℕ} (h : start < serialSpace) : start < endOf start size := by
  have := size.pos
  unfold endOf
  omega

theorem endOf_le (start : ℕ) (size : ℕ+) : endOf start size ≤ serialSpace := min_le_right _ _

theorem rawNext_eq (t : Tables) (k : Key) (size : ℕ+) : rawNext t k size = startOf t k + size := by
  unfold rawNext startOf
  cases t.ssccCounters k with
  | none => simp
  | some n => rfl

variable {t t' : Tables} {deviceId : String}

theorem allocate_ok {k : Key} {block : SsccBlock}
    (h : allocate k deviceId size t = (t', .ok block)) :
    startOf t k < serialSpace ∧ t' = cut t k deviceId size ∧
      block = ⟨k.issuerPrefix, k.extensionDigit, startOf t k, endOf (startOf t k) size - 1,
        none⟩ := by
  have hclamped : (if min (startOf t k + size) serialSpace = startOf t k + size then
        setCounter t k (startOf t k + size)
      else setCounter (setCounter t k (startOf t k + size)) k
        (min (startOf t k + size) serialSpace)) = setCounter t k (endOf (startOf t k) size) := by
    split
    · rename_i h
      rw [endOf, h]
    · simp only [setCounter, Function.update_idem]
      rfl
  simp only [allocate, k.issuerPrefix.capacity, rawNext_eq, Nat.add_sub_cancel, hclamped] at h
  split at h
  · cases h
  · rename_i hlt
    split at h
    · cases h
    · obtain ⟨rfl, hblock⟩ := Prod.mk.inj h
      exact ⟨not_le.1 hlt, rfl, (Except.ok.inj hblock).symm⟩

def consume (t : Tables) (tenantId : String) (p : ParsedSscc) : Tables :=
  { t with ssccBlocks := t.ssccBlocks.map fun b =>
      if b.covers tenantId p then
        { b with consumedThroughSerial := raiseTo b.consumedThroughSerial p.serial }
      else b }

/-- The counter at a new value, and the live blocks revoked when that moved it. -/
def reseed (now : ℤ) (t : Tables) (k : Key) (nextSerial : ℕ) : Tables :=
  if t.ssccCounters k = some nextSerial then setCounter t k nextSerial
  else revokeBlocks now (setCounter t k nextSerial) k

theorem seedCounter_ok {now : ℤ} {k : Key} {n : ℕ} (h : seedCounter now k n t = (t', .ok ())) :
    findSeedBlocker t k = none ∧ seedFloor t k ≤ n ∧ t' = reseed now t k n := by
  unfold seedCounter at h
  split at h
  · cases h
  · cases h
  · rename_i hblock
    split at h
    · cases h
    · rename_i hfloor
      refine ⟨hblock, not_lt.1 hfloor, ?_⟩
      split at h
      · cases h
      · rename_i seeded hseed
        have hseeded : seeded = setCounter t k n := by
          unfold atomicSeedSscc at hseed
          cases hc : t.ssccCounters k with
          | none =>
            rw [hc] at hseed
            exact (Option.some.inj hseed).symm
          | some m =>
            rw [hc] at hseed
            simp only at hseed
            split at hseed
            · exact (Option.some.inj hseed).symm
            · cases hseed
        subst hseeded
        unfold reseed
        split at h
        · cases h
        · split at h
          · rename_i hsame
            rw [if_pos hsame]
            exact (Prod.mk.inj h).1.symm
          · rename_i hmoved
            rw [if_neg hmoved]
            exact (Prod.mk.inj h).1.symm

theorem lt_seedFloor {t : Tables} {b : BlockRow} (hb : b ∈ t.ssccBlocks) {c serial : ℕ}
    (hc : b.consumedThroughSerial = some c) (hle : serial ≤ c) : serial < seedFloor t b.toKey := by
  have hmem : c ∈ (t.ssccBlocks.filter (·.toKey = b.toKey)).filterMap (·.consumedThroughSerial) :=
    List.mem_filterMap.2 ⟨b, List.mem_filter.2 ⟨hb, decide_eq_true rfl⟩, hc⟩
  unfold seedFloor printed
  cases hmax : ((t.ssccBlocks.filter (·.toKey = b.toKey)).filterMap
      (·.consumedThroughSerial)).max? with
  | none =>
    rw [List.max?_eq_none_iff] at hmax
    rw [hmax] at hmem
    cases hmem
  | some n =>
    have := (List.max?_eq_some_iff.1 hmax).2 _ hmem
    show serial < max (n + 1) _
    omega

def Call.seeds : Call → Option (Key × ℕ)
  | .seedCounter _ k n => some (k, n)
  | _ => none

/-- What a call can do: nothing, a block more, a serial recorded, or a counter moved. -/
inductive Served (t : Tables) : Call → Tables × Except Refusal Unit → Prop where
  | refused (c : Call) (e : Refusal) : Served t c (t, .error e)
  | kept (c : Call) (hc : c.seeds = none) : Served t c (t, .ok ())
  | cut (c : Call) (hc : c.seeds = none) (k : Key) (deviceId : String) (size : ℕ+)
      (hlt : startOf t k < serialSpace) : Served t c (cut t k deviceId size, .ok ())
  | consumed (tenantId : String) (sscc : Units) (p : ParsedSscc)
      (hp : parseSscc sscc issuerPrefixLength = .ok (some p)) :
      Served t (.recordConsumedSerial tenantId sscc) (consume t tenantId p, .ok ())
  | reseeded (now : ℤ) (k : Key) (n : ℕ) (hb : findSeedBlocker t k = none)
      (hfloor : seedFloor t k ≤ n) : Served t (.seedCounter now k n) (reseed now t k n, .ok ())

theorem allocateOrdered_ok {k : Key}
    {block : OrderedSsccBlock} (h : allocateOrdered k deviceId size t = (t', .ok block)) :
    startOf t k < serialSpace ∧ t' = cut t k deviceId size ∧
      block.fromSerial = startOf t k ∧ block.toSerial = endOf (startOf t k) size - 1 ∧
      block.consumedThroughSerial = none ∧ block.issuerPrefix = k.issuerPrefix ∧
      block.extensionDigit = k.extensionDigit := by
  unfold allocateOrdered at h
  split at h
  · cases h
  · rename_i t1 b hal
    obtain ⟨hlt, rfl, rfl⟩ := allocate_ok hal
    split at h
    · cases h
    · obtain ⟨rfl, hblock⟩ := Prod.mk.inj h
      obtain rfl := Except.ok.inj hblock
      exact ⟨hlt, rfl, rfl, rfl, rfl, rfl, rfl⟩

theorem allocateOrderedForBundle_ok {k : Key}
    {block : OrderedSsccBlock} (h : allocateOrderedForBundle k deviceId size t = (t', .ok block)) :
    (∃ b, latestLive t k deviceId = some b ∧ t' = t ∧ block = b.toOrdered) ∨
      startOf t k < serialSpace ∧ t' = cut t k deviceId size ∧
        block.fromSerial = startOf t k ∧ block.toSerial = endOf (startOf t k) size - 1 ∧
        block.consumedThroughSerial = none ∧ block.issuerPrefix = k.issuerPrefix ∧
        block.extensionDigit = k.extensionDigit := by
  unfold allocateOrderedForBundle at h
  split at h
  · exact .inr (allocateOrdered_ok h)
  · rename_i b hb
    split at h
    · obtain ⟨rfl, hblock⟩ := Prod.mk.inj h
      exact .inl ⟨b, hb, rfl, (Except.ok.inj hblock).symm⟩
    · exact .inr (allocateOrdered_ok h)

theorem transaction_ok {α : Type} {body : Body α} {a : α}
    (h : transaction body t = (t', .ok a)) : body t = (t', .ok a) := by
  unfold transaction at h
  split at h
  · rename_i hbody
    rw [hbody, h]
  · cases h

theorem transaction_error {α : Type} {body : Body α} {e : Refusal}
    (h : transaction body t = (t', .error e)) : t' = t := by
  unfold transaction at h
  split at h
  · cases h
  · exact (Prod.mk.inj h).1.symm

theorem topUpForDevice_ok {tenantId : String} {issuerPrefix : IssuerPrefix} {threshold : ℕ}
    (h : topUpForDevice tenantId issuerPrefix deviceId size threshold t = (t', .ok ())) :
    t' = t ∨ ∃ k, startOf t k < serialSpace ∧ t' = cut t k deviceId size := by
  simp only [topUpForDevice] at h
  split at h
  · split at h
    · rename_i hal
      obtain ⟨hlt, ht, -⟩ := allocate_ok (transaction_ok hal)
      exact .inr ⟨_, hlt, (Prod.mk.inj h).1.symm.trans ht⟩
    · rename_i hal
      exact .inl ((Prod.mk.inj h).1.symm.trans (transaction_error hal))
    · cases h
  · exact .inl (Prod.mk.inj h).1.symm

theorem served (c : Call) (t : Tables) : Served t c (serve c t) := by
  unfold serve transaction
  split
  · rename_i t' u hbody
    cases c with
    | allocate k deviceId size =>
      simp only [Call.body, Prod.map, id_eq] at hbody
      generalize hal : allocate k deviceId size t = r at hbody
      obtain ⟨t1, b | b⟩ := r
      · cases hbody
      · obtain ⟨hlt, ht, -⟩ := allocate_ok hal
        rw [← (Prod.mk.inj hbody).1, ht]
        exact .cut _ rfl k deviceId size hlt
    | allocateOrderedForBundle k deviceId size =>
      simp only [Call.body, Prod.map, id_eq] at hbody
      generalize hal : allocateOrderedForBundle k deviceId size t = r at hbody
      obtain ⟨t1, b | b⟩ := r
      · cases hbody
      · rw [← (Prod.mk.inj hbody).1]
        obtain ⟨-, -, rfl, -⟩ | ⟨hlt, rfl, -⟩ := allocateOrderedForBundle_ok hal
        · exact .kept _ rfl
        · exact .cut _ rfl k deviceId size hlt
    | topUpForDevice tenantId issuerPrefix deviceId size threshold =>
      obtain rfl | ⟨k, hlt, rfl⟩ := topUpForDevice_ok hbody
      · exact .kept _ rfl
      · exact .cut _ rfl k deviceId size hlt
    | recordConsumedSerial tenantId sscc =>
      simp only [Call.body, recordConsumedSerial] at hbody
      split at hbody
      · cases hbody
      · rw [← (Prod.mk.inj hbody).1]
        exact .kept _ rfl
      · rename_i p hp
        rw [← (Prod.mk.inj hbody).1]
        exact .consumed tenantId sscc p hp
    | seedCounter now k n =>
      obtain ⟨hb, hfloor, rfl⟩ := seedCounter_ok hbody
      exact .reseeded now k n hb hfloor
  · exact .refused c _

/-! ## What every call keeps -/

def Apart (a b : BlockRow) : Prop :=
  a.toKey = b.toKey → a.live = true → b.live = true →
    a.toSerial < b.fromSerial ∨ b.toSerial < a.fromSerial

/-- The later of two blocks of a device's stream has the greater order. -/
def InOrder (a b : BlockRow) : Prop :=
  a.toKey = b.toKey → a.deviceId = b.deviceId → a.allocationOrder < b.allocationOrder

structure Tables.Sound (t : Tables) : Prop where
  proper : ∀ b ∈ t.ssccBlocks, b.fromSerial ≤ b.toSerial ∧ b.toSerial < serialSpace ∧
    firstSerial b.extensionDigit ≤ b.fromSerial
  apart : t.ssccBlocks.Pairwise Apart
  below : ∀ b ∈ t.ssccBlocks, b.live = true → ∃ n, t.ssccCounters b.toKey = some n ∧ b.toSerial < n
  ordered : t.ssccBlocks.Pairwise InOrder

theorem Tables.Sound.empty : Tables.empty.Sound where
  proper := by simp [Tables.empty]
  apart := .nil
  below := by simp [Tables.empty]
  ordered := .nil

section Steps

variable {t : Tables}

theorem lt_startOf (h : t.Sound) {b : BlockRow} (hb : b ∈ t.ssccBlocks) (hlive : b.live = true) :
    b.toSerial < startOf t b.toKey := by
  obtain ⟨n, hn, hlt⟩ := h.below b hb hlive
  unfold startOf
  rw [hn, Option.getD_some]
  omega

theorem lt_nextOrder {b : BlockRow} {k : Key} {deviceId : String} (hb : b ∈ t.ssccBlocks)
    (hk : b.toKey = k) (hd : b.deviceId = deviceId) :
    b.allocationOrder < nextOrder t k deviceId := by
  have hmem : b.allocationOrder ∈
      (t.ssccBlocks.filter (·.isOf k deviceId)).map (·.allocationOrder) :=
    List.mem_map.2 ⟨b, List.mem_filter.2 ⟨hb, decide_eq_true ⟨hk, hd⟩⟩, rfl⟩
  unfold nextOrder
  cases hmax : ((t.ssccBlocks.filter (·.isOf k deviceId)).map (·.allocationOrder)).max? with
  | none =>
    rw [List.max?_eq_none_iff] at hmax
    rw [hmax] at hmem
    cases hmem
  | some n =>
    have := (List.max?_eq_some_iff.1 hmax).2 _ hmem
    rw [Option.getD_some]
    omega

theorem Tables.Sound.cut (h : t.Sound) {k : Key} (deviceId : String) (size : ℕ+)
    (hlt : startOf t k < serialSpace) : (CloudSscc.cut t k deviceId size).Sound := by
  have hend := @endOf_gt size (startOf t k) hlt
  have hle := endOf_le (startOf t k) size
  refine ⟨fun b hb => ?_, ?_, fun b hb hlive => ?_, ?_⟩
  · rcases List.mem_append.1 hb with hb | hb
    · exact h.proper b hb
    · obtain rfl := List.mem_singleton.1 hb
      refine ⟨?_, ?_, le_max_right _ _⟩
      · show startOf t k ≤ endOf (startOf t k) size - 1
        omega
      · show endOf (startOf t k) size - 1 < serialSpace
        omega
  · refine List.pairwise_append.2 ⟨h.apart, List.pairwise_singleton _ _, fun a ha b hb => ?_⟩
    obtain rfl := List.mem_singleton.1 hb
    intro hk hlive _
    left
    have hstart := lt_startOf h ha hlive
    rwa [hk] at hstart
  · rcases List.mem_append.1 hb with hb | hb
    · obtain ⟨n, hn, hlt'⟩ := h.below b hb hlive
      by_cases hk : b.toKey = k
      · have hstart := lt_startOf h hb hlive
        rw [hk] at hstart
        refine ⟨endOf (startOf t k) size, ?_, by omega⟩
        rw [hk]
        exact Function.update_self _ _ _
      · exact ⟨n, (Function.update_of_ne hk _ _).trans hn, hlt'⟩
    · obtain rfl := List.mem_singleton.1 hb
      refine ⟨endOf (startOf t k) size, Function.update_self _ _ _, ?_⟩
      show endOf (startOf t k) size - 1 < endOf (startOf t k) size
      omega
  · refine List.pairwise_append.2 ⟨h.ordered, List.pairwise_singleton _ _, fun a ha b hb => ?_⟩
    obtain rfl := List.mem_singleton.1 hb
    exact fun hk hd => lt_nextOrder ha hk hd

/-- Blocks rewritten in place, none of them made live. -/
theorem Tables.Sound.mapBlocks (h : t.Sound) {t' : Tables} {f : BlockRow → BlockRow}
    (hblocks : t'.ssccBlocks = t.ssccBlocks.map f)
    (hkey : ∀ b, (f b).toKey = b.toKey) (hdevice : ∀ b, (f b).deviceId = b.deviceId)
    (horder : ∀ b, (f b).allocationOrder = b.allocationOrder)
    (hfrom : ∀ b, (f b).fromSerial = b.fromSerial) (hto : ∀ b, (f b).toSerial = b.toSerial)
    (hlive : ∀ b, (f b).live = true → b.live = true)
    (hcounter : ∀ b ∈ t.ssccBlocks, (f b).live = true →
      t'.ssccCounters b.toKey = t.ssccCounters b.toKey) : t'.Sound := by
  refine ⟨fun b hb => ?_, ?_, fun b hb hl => ?_, ?_⟩
  · rw [hblocks] at hb
    obtain ⟨a, ha, rfl⟩ := List.mem_map.1 hb
    have hext : (f a).extensionDigit = a.extensionDigit := congrArg Key.extensionDigit (hkey a)
    rw [hfrom, hto, hext]
    exact h.proper a ha
  · rw [hblocks, List.pairwise_map]
    refine h.apart.imp fun {a b} hab hk ha hb => ?_
    rw [hto, hto, hfrom, hfrom]
    exact hab ((hkey a).symm.trans (hk.trans (hkey b))) (hlive a ha) (hlive b hb)
  · rw [hblocks] at hb
    obtain ⟨a, ha, rfl⟩ := List.mem_map.1 hb
    rw [hkey, hto, hcounter a ha hl]
    exact h.below a ha (hlive a hl)
  · rw [hblocks, List.pairwise_map]
    refine h.ordered.imp fun {a b} hab hk hd => ?_
    rw [horder, horder]
    exact hab ((hkey a).symm.trans (hk.trans (hkey b)))
      ((hdevice a).symm.trans (hd.trans (hdevice b)))

theorem Tables.Sound.consume (h : t.Sound) (tenantId : String) (p : ParsedSscc) :
    (CloudSscc.consume t tenantId p).Sound := by
  refine h.mapBlocks rfl ?_ ?_ ?_ ?_ ?_ ?_ fun _ _ _ => rfl
  all_goals
    intro b
    split
    · first | rfl | exact id
    · first | rfl | exact id

theorem setCounter_self {k : Key} {n : ℕ} (h : t.ssccCounters k = some n) :
    setCounter t k n = t := by
  unfold setCounter
  rw [← h, Function.update_eq_self]

theorem Tables.Sound.reseed (h : t.Sound) (now : ℤ) (k : Key) (n : ℕ) :
    (CloudSscc.reseed now t k n).Sound := by
  unfold CloudSscc.reseed
  split
  · rename_i hsame
    rwa [setCounter_self hsame]
  · refine h.mapBlocks rfl ?_ ?_ ?_ ?_ ?_ ?_ fun b hb hl => ?_
    -- A block of the moved counter that is still live would have been revoked.
    rotate_left 6
    · by_cases hk : b.toKey = k
      · split at hl
        · cases hl
        · rename_i hnot
          exact absurd ⟨hk, hl⟩ hnot
      · exact Function.update_of_ne hk _ _
    all_goals
      intro b
      split
      · first | rfl | (intro hl; cases hl)
      · first | rfl | exact id

end Steps

theorem Served.sound {t : Tables} {c : Call} {r : Tables × Except Refusal Unit}
    (hs : Served t c r) (h : t.Sound) : r.1.Sound := by
  cases hs with
  | refused _ e => exact h
  | kept _ hc => exact h
  | cut _ hc k deviceId size hlt => exact h.cut deviceId size hlt
  | consumed tenantId sscc p hp => exact h.consume tenantId p
  | reseeded now k n hb hfloor => exact h.reseed now k n

/-! ## Runs -/

inductive Event where
  | call (c : Call)
  | elsewhere (shifts : List ShiftRow) (stationDevices : List DeviceRow)

/-- The tables, and the value each counter was last seeded with. -/
structure World where
  tables : Tables
  seeded : Key → ℕ

def World.start : World := ⟨Tables.empty, fun _ => 0⟩

/-- A counter is seeded when the call that asks for it is not refused. -/
def seededBy (seeded : Key → ℕ) : Option (Key × ℕ) → Except Refusal Unit → Key → ℕ
  | some (k, n), .ok _ => Function.update seeded k n
  | _, _ => seeded

def World.step (w : World) : Event → World
  | .call c => ⟨(serve c w.tables).1, seededBy w.seeded c.seeds (serve c w.tables).2⟩
  | .elsewhere shifts stationDevices =>
    { w with tables := { w.tables with shifts := shifts, stationDevices := stationDevices } }

def run (events : List Event) : World := events.foldl World.step World.start

/-- The counters stay within the serials there are, or where they were put. -/
def World.Bounded (w : World) : Prop :=
  ∀ k n, w.tables.ssccCounters k = some n → n ≤ max serialSpace (w.seeded k)

theorem Served.bounded {t : Tables} {seeded : Key → ℕ} {c : Call}
    {r : Tables × Except Refusal Unit} (hs : Served t c r) (h : World.Bounded ⟨t, seeded⟩) :
    World.Bounded ⟨r.1, seededBy seeded c.seeds r.2⟩ := by
  cases hs with
  | refused _ e =>
    have : seededBy seeded c.seeds (.error e) = seeded := by
      cases c.seeds <;> rfl
    rw [this]
    exact h
  | kept _ hc =>
    rw [hc]
    exact h
  | cut _ hc k deviceId size hlt =>
    rw [hc]
    intro k' n hn
    have hn : Function.update t.ssccCounters k (some (endOf (startOf t k) size)) k' = some n := hn
    by_cases hk : k' = k
    · rw [hk, Function.update_self] at hn
      obtain rfl := Option.some.inj hn
      exact (endOf_le (startOf t k) size).trans (le_max_left _ _)
    · rw [Function.update_of_ne hk] at hn
      exact h k' n hn
  | consumed tenantId sscc p hp => exact h
  | reseeded now k n hb hfloor =>
    intro k' m hm
    have hcounters : (reseed now t k n).ssccCounters = Function.update t.ssccCounters k (some n) := by
      unfold reseed
      split <;> rfl
    show m ≤ max serialSpace (Function.update seeded k n k')
    rw [hcounters] at hm
    by_cases hk : k' = k
    · subst hk
      rw [Function.update_self] at hm ⊢
      cases hm
      exact le_max_right _ _
    · rw [Function.update_of_ne hk] at hm ⊢
      exact h k' m hm

theorem World.step_sound {w : World} (h : w.tables.Sound ∧ w.Bounded) (e : Event) :
    (w.step e).tables.Sound ∧ (w.step e).Bounded := by
  cases e with
  | call c => exact ⟨(served c w.tables).sound h.1, (served c w.tables).bounded h.2⟩
  | elsewhere shifts stationDevices => exact ⟨⟨h.1.proper, h.1.apart, h.1.below, h.1.ordered⟩, h.2⟩

theorem World.start_sound : World.start.tables.Sound ∧ World.start.Bounded := by
  refine ⟨.empty, fun k n hn => ?_⟩
  cases hn

theorem run_sound (events : List Event) : (run events).tables.Sound ∧ (run events).Bounded :=
  List.foldlRecOn (motive := fun w => w.tables.Sound ∧ w.Bounded) events World.step
    World.start_sound fun _ h e _ => World.step_sound h e

/-- **Live blocks never overlap**, whatever was allocated, recorded and reseeded before: the blocks
that are not revoked share no serial and lie below their counter, every block lies within the
serials of its prefix, orders grow along a device's stream, and what is refused is not written. -/
theorem live_blocks_never_overlap (events : List Event) :
    (run events).tables.ssccBlocks.Pairwise Apart ∧
    (∀ b ∈ (run events).tables.ssccBlocks, ∃ capacity,
      ssccSerialCapacity b.issuerPrefix.units = .ok capacity ∧ b.fromSerial ≤ b.toSerial ∧
      b.toSerial < capacity ∧ (b.extensionDigit = 0 → 1 ≤ b.fromSerial)) ∧
    (∀ b ∈ (run events).tables.ssccBlocks, b.live = true →
      ∃ n, (run events).tables.ssccCounters b.toKey = some n ∧ b.toSerial < n) ∧
    (∀ k n, (run events).tables.ssccCounters k = some n → ∃ capacity,
      ssccSerialCapacity k.issuerPrefix.units = .ok capacity ∧
      n ≤ max capacity ((run events).seeded k)) ∧
    (run events).tables.ssccBlocks.Pairwise InOrder ∧
    (∀ c e, (serve c (run events).tables).2 = .error e →
      (serve c (run events).tables).1 = (run events).tables) ∧
    (∀ tenantId issuerPrefix deviceId size threshold e,
      (allocate ⟨tenantId, issuerPrefix, boxExtensionDigit⟩ deviceId size (run events).tables).2 =
        .error e →
      (serve (.topUpForDevice tenantId issuerPrefix deviceId size threshold)
        (run events).tables).1 = (run events).tables) := by
  obtain ⟨h, hbounded⟩ := run_sound events
  refine ⟨h.apart, fun b hb => ?_, h.below, fun k n hn => ?_, h.ordered, fun c e he => ?_,
    fun tenantId issuerPrefix deviceId size threshold e he => ?_⟩
  · obtain ⟨hle, hlt, hfirst⟩ := h.proper b hb
    refine ⟨_, b.issuerPrefix.capacity, hle, hlt, fun hext => ?_⟩
    rwa [hext] at hfirst
  · exact ⟨_, k.issuerPrefix.capacity, hbounded k n hn⟩
  · generalize hr : serve c (run events).tables = r at he ⊢
    obtain ⟨t', r⟩ := r
    obtain rfl : r = .error e := he
    exact transaction_error hr
  · generalize hr : serve (.topUpForDevice tenantId issuerPrefix deviceId size threshold)
      (run events).tables = r
    obtain ⟨t', e' | u⟩ := r
    · exact transaction_error hr
    · have hbody := transaction_ok hr
      simp only [Call.body, topUpForDevice] at hbody
      split at hbody
      · split at hbody
        · rename_i hal
          rw [transaction_ok hal] at he
          cases he
        · rename_i hal
          exact (Prod.mk.inj hbody).1.symm.trans (transaction_error hal)
        · cases hbody
      · exact (Prod.mk.inj hbody).1.symm

end Markiro.CloudSscc
