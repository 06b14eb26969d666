import Markiro.CloudSscc.Printed
import Markiro.CloudSscc.Stations

/-!
# Burned serials are distinct

A station's rows are ranges of blocks that were live when the bundle it reached was read
(`StationOk.lives`), so a station that may burn holds live ranges only, and those lie apart. Of a
live block that has burned serials, its station still holds the row with a cursor past them
(`StationOk.burned`).
-/

namespace Markiro.CloudSscc

open Utf16 Table

variable {k : Key} {size : ℕ+} {d : String}

/-! ## Bundles -/

def LiveStart (k : Key) (d : String) (t : Tables) (f : ℕ) : Prop :=
  ∃ b ∈ t.ssccBlocks, b.toKey = k ∧ b.deviceId = d ∧ b.live = true ∧ b.fromSerial = f

def HandedBlock (k : Key) (d : String) (m : Bundle) (t : Tables) (b : BlockRow) : Prop :=
  b ∈ t.ssccBlocks ∧ b.toKey = k ∧ b.deviceId = d ∧ b.live = true ∧
    b.fromSerial = m.sscc.fromSerial ∧ b.toSerial = m.sscc.toSerial ∧
    b.consumedThroughSerial = m.sscc.consumedThroughSerial

/-- What a bundle says of the tables it was read from. -/
structure HandedDown (k : Key) (d : String) (m : Bundle) (t : Tables) : Prop where
  issuer : m.sscc.issuerPrefix = k.issuerPrefix
  digit : m.sscc.extensionDigit = k.extensionDigit
  block : ∃ b, HandedBlock k d m t b
  revoked : m.ssccRevokedFrom = revokedFromSerials t k d

theorem BlockRow.isOf_iff {b : BlockRow} : b.isOf k d = true ↔ b.toKey = k ∧ b.deviceId = d :=
  decide_eq_true_iff

theorem latestLive_some {t : Tables} {b : BlockRow} (h : latestLive t k d = some b) :
    b ∈ t.ssccBlocks ∧ b.toKey = k ∧ b.deviceId = d ∧ b.live = true := by
  obtain ⟨hb, hof⟩ := List.mem_filter.1 (List.argmax_mem h)
  rw [Bool.and_eq_true] at hof
  obtain ⟨hk, hd⟩ := BlockRow.isOf_iff.1 hof.1
  exact ⟨hb, hk, hd, hof.2⟩

theorem bundleSscc_ok {t t' : Tables} {m : Bundle}
    (h : transaction (bundleSscc k d size) t = (t', .ok m)) :
    (t' = t ∨ startOf t k < serialSpace ∧ t' = cut t k d size) ∧ HandedDown k d m t' := by
  have hbody := transaction_ok h
  unfold bundleSscc at hbody
  split at hbody
  · cases hbody
  · rename_i t1 block hal
    obtain ⟨rfl, hm⟩ := Prod.mk.inj hbody
    obtain rfl := Except.ok.inj hm
    unfold allocateForBundle at hal
    split at hal
    · cases hal
    · rename_i t2 ordered hord
      obtain ⟨rfl, hb⟩ := Prod.mk.inj hal
      obtain rfl := Except.ok.inj hb
      rcases allocateOrderedForBundle_ok hord with ⟨b, hlatest, rfl, rfl⟩ | hcut
      · obtain ⟨hmem, hk, hd, hlive⟩ := latestLive_some hlatest
        exact ⟨.inl rfl, congrArg Key.issuerPrefix hk, congrArg Key.extensionDigit hk,
          ⟨b, hmem, hk, hd, hlive, rfl, rfl, rfl⟩, rfl⟩
      · obtain ⟨hlt, rfl, hfrom, hto, hconsumed, hissuer, hdigit⟩ := hcut
        refine ⟨.inr ⟨hlt, rfl⟩, hissuer, hdigit, ⟨cutRow t k d size, ?_, rfl, rfl, rfl, hfrom.symm,
          hto.symm, hconsumed.symm⟩, rfl⟩
        exact List.mem_append_right _ List.mem_cons_self

theorem mem_revokedFromSerials {t : Tables} {f : ℕ} : f ∈ revokedFromSerials t k d ↔
    (∃ b ∈ t.ssccBlocks, b.toKey = k ∧ b.deviceId = d ∧ b.live = false ∧ b.fromSerial = f) ∧
      ¬LiveStart k d t f := by
  have hlive : ∀ b : BlockRow, (t.ssccBlocks.any fun l =>
      l.isOf k d && l.fromSerial == b.fromSerial && l.live) = true ↔
      LiveStart k d t b.fromSerial := by
    intro b
    simp only [List.any_eq_true, Bool.and_eq_true, beq_iff_eq, BlockRow.isOf_iff, LiveStart]
    constructor
    · rintro ⟨l, hl, ⟨⟨hk, hd⟩, hf⟩, hlive⟩
      exact ⟨l, hl, hk, hd, hlive, hf⟩
    · rintro ⟨l, hl, hk, hd, hlive, hf⟩
      exact ⟨l, hl, ⟨⟨hk, hd⟩, hf⟩, hlive⟩
  rw [revokedFromSerials, List.mem_dedup, List.mem_insertionSort, List.mem_map]
  constructor
  · rintro ⟨b, hb, rfl⟩
    obtain ⟨hmem, hb⟩ := List.mem_filter.1 hb
    simp only [Bool.and_eq_true, Bool.not_eq_true', BlockRow.isOf_iff] at hb
    obtain ⟨⟨⟨hk, hd⟩, hdead⟩, hnone⟩ := hb
    refine ⟨⟨b, hmem, hk, hd, hdead, rfl⟩, fun hstart => ?_⟩
    rw [(hlive b).2 hstart] at hnone
    cases hnone
  · rintro ⟨⟨b, hmem, hk, hd, hdead, rfl⟩, hnot⟩
    refine ⟨b, List.mem_filter.2 ⟨hmem, ?_⟩, rfl⟩
    simp only [Bool.and_eq_true, Bool.not_eq_true', BlockRow.isOf_iff]
    exact ⟨⟨⟨hk, hd⟩, hdead⟩, Bool.eq_false_iff.2 fun h => hnot ((hlive b).1 h)⟩

theorem HandedDown.liveStart {m : Bundle} {t : Tables} (h : HandedDown k d m t) {pool : Pool}
    {r : PoolRow} (hr : r ∈ (dropRevoked pool m).rows) (hissuer : r.issuerPrefix = k.issuerPrefix)
    (hdigit : r.extensionDigit = k.extensionDigit)
    (hstart : ∃ b ∈ t.ssccBlocks, b.toKey = k ∧ b.deviceId = d ∧ b.fromSerial = r.fromSerial) :
    LiveStart k d t r.fromSerial := by
  obtain ⟨-, hkept⟩ := mem_delete.1 hr
  rw [decide_eq_false_iff_not] at hkept
  obtain ⟨b, hmem, hk, hd, hf⟩ := hstart
  by_contra hnot
  have hdead : b.live = false := Bool.eq_false_iff.2 fun hlive => hnot ⟨b, hmem, hk, hd, hlive, hf⟩
  refine hkept ⟨hissuer.trans h.issuer.symm, hdigit.trans h.digit.symm, List.mem_filter.2 ⟨?_, ?_⟩⟩
  · rw [h.revoked, mem_revokedFromSerials]
    exact ⟨⟨b, hmem, hk, hd, hdead, hf⟩, hnot⟩
  · rw [decide_eq_true_eq]
    intro heq
    obtain ⟨c, hc, hck, hcd, hclive, hcf, -⟩ := h.block
    exact hnot ⟨c, hc, hck, hcd, hclive, hcf.trans heq.symm⟩

theorem HandedDown.kept {m : Bundle} {t : Tables} (h : HandedDown k d m t) {pool : Pool}
    {r : PoolRow} (hr : r ∈ pool.rows) (hlive : LiveStart k d t r.fromSerial) :
    r ∈ (dropRevoked pool m).rows := by
  refine mem_delete.2 ⟨hr, ?_⟩
  rw [decide_eq_false_iff_not]
  rintro ⟨-, -, hmem⟩
  have hrevoked := (List.mem_filter.1 hmem).1
  rw [h.revoked, mem_revokedFromSerials] at hrevoked
  exact hrevoked.2 hlive

/-! ## A station -/

/-- The range and the cursor of a row are those of a bundle's block, the cursor moved on. -/
structure FromBundle (r : PoolRow) (m : Bundle) : Prop where
  lower : r.fromSerial = m.sscc.fromSerial
  upper : r.toSerial = m.sscc.toSerial
  unused : ∀ c, m.sscc.consumedThroughSerial = some c → c < r.nextSerial
  started : r.fromSerial ≤ r.nextSerial
  box : r.extensionDigit = 0 → 1 ≤ r.nextSerial

/-- The bundle the station reached was read after the last revocation. -/
def Synced (k : Key) (cloud : Tables) (st : Station) : Prop :=
  ∃ m, st.inbox[st.reached]? = some m ∧ Quiet k m.asOf cloud

/-- What the runs keep of a station, the cloud's tables, the burned serials and the number of reseeds
given. -/
structure StationOk (k : Key) (d : String) (cloud : Tables) (burned : List (String × ℕ))
    (reseeds : ℕ) (st : Station) : Prop where
  since : ∀ m ∈ st.inbox, Since k m.asOf cloud ∧ m.reseeds ≤ reseeds ∧
    (m.reseeds = reseeds → Quiet k m.asOf cloud)
  order : st.inbox.Pairwise fun m m' => Since k m.asOf m'.asOf
  handed : ∀ m ∈ st.inbox, HandedDown k d m.bundle m.asOf
  within : ∀ m ∈ st.inbox, ∀ c, m.bundle.sscc.consumedThroughSerial = some c →
    m.bundle.sscc.fromSerial ≤ c
  reach : st.reached < st.inbox.length ∨ st.reached = 0
  applied : ∀ m ∈ st.applied, ∃ i ≤ st.reached, st.inbox[i]? = some m
  begun : ∀ m, st.begun = some m → st.inbox[st.reached]? = some m
  rows : ∀ r ∈ st.pool.rows, r.issuerPrefix = k.issuerPrefix ∧
    r.extensionDigit = k.extensionDigit ∧ ∃ m ∈ st.applied, FromBundle r m.bundle
  lives : ∀ m, st.inbox[st.reached]? = some m →
    ∀ r ∈ st.pool.rows, LiveStart k d m.asOf r.fromSerial
  burned : ∀ b ∈ cloud.ssccBlocks, b.toKey = k → b.deviceId = d → b.live = true →
    ∀ x ∈ burned, b.fromSerial ≤ x.2 → x.2 ≤ b.toSerial →
      Synced k cloud st ∧ ∃ r ∈ st.pool.rows, r.fromSerial = b.fromSerial ∧ x.2 < r.nextSerial

section Stations

variable {cloud cloud' : Tables} {burned : List (String × ℕ)} {reseeds : ℕ} {st : Station}

theorem StationOk.new (k : Key) (d : String) :
    StationOk k d Tables.empty [] 0 Station.new where
  since := by simp [Station.new]
  order := .nil
  handed := by simp [Station.new]
  within := by simp [Station.new]
  reach := .inr rfl
  applied := by simp [Station.new]
  begun := by simp [Station.new]
  rows := by simp [Station.new, Pool.empty]
  lives := by simp [Station.new]
  burned := by simp

theorem StationOk.exists_reached (h : StationOk k d cloud burned reseeds st) {m : Sent}
    (hm : m ∈ st.applied) : ∃ m', st.inbox[st.reached]? = some m' := by
  obtain ⟨i, hi, him⟩ := h.applied m hm
  have hlt : i < st.inbox.length := (List.getElem?_eq_some_iff.1 him).1
  have hreach : st.reached < st.inbox.length := by
    rcases h.reach with hr | hr
    · exact hr
    · omega
  exact ⟨_, List.getElem?_eq_getElem hreach⟩

theorem StationOk.since_later (h : StationOk k d cloud burned reseeds st) {i j : ℕ} (hij : i ≤ j)
    {m m' : Sent} (hm : st.inbox[i]? = some m) (hm' : st.inbox[j]? = some m') :
    Since k m.asOf m'.asOf := by
  rcases hij.lt_or_eq with hlt | rfl
  · obtain ⟨hi, rfl⟩ := List.getElem?_eq_some_iff.1 hm
    obtain ⟨hj, rfl⟩ := List.getElem?_eq_some_iff.1 hm'
    exact List.pairwise_iff_getElem.1 h.order i j hi hj hlt
  · rw [hm] at hm'
    cases hm'
    exact .inl (Quiet.refl k _)

theorem StationOk.quiet_later (h : StationOk k d cloud burned reseeds st) {i j : ℕ} (hij : i ≤ j)
    {m m' : Sent} (hm : st.inbox[i]? = some m) (hm' : st.inbox[j]? = some m')
    (hq : Quiet k m.asOf cloud) : Quiet k m.asOf m'.asOf ∧ Quiet k m'.asOf cloud := by
  obtain ⟨b, hb, hk, -, hlive, -⟩ := (h.handed m (List.mem_of_getElem? hm)).block
  exact (h.since_later hij hm hm').quiet (h.since m' (List.mem_of_getElem? hm')).1 hq hb hk hlive

theorem LiveStart.later {t t' : Tables} {f : ℕ} (h : LiveStart k d t f) (hq : Quiet k t t') :
    LiveStart k d t' f := by
  obtain ⟨b, hb, hk, hd, hlive, hf⟩ := h
  obtain ⟨i, hi⟩ := List.getElem?_of_mem hb
  obtain ⟨b', hb', hsame, hlive'⟩ := hq i b hi hk
  exact ⟨b', List.mem_of_getElem? hb', hsame.key.trans hk, hsame.device.trans hd,
    hlive'.trans hlive, hsame.lower.trans hf⟩

theorem StationOk.synced (h : StationOk k d cloud burned reseeds st)
    (hmay : reseeds = 0 ∨ ∃ m ∈ st.applied, m.reseeds = reseeds) {r : PoolRow}
    (hr : r ∈ st.pool.rows) : Synced k cloud st := by
  have hcurrent : ∃ m ∈ st.applied, m.reseeds = reseeds := by
    rcases hmay with hzero | hm
    · obtain ⟨-, -, m, hm, -⟩ := h.rows r hr
      obtain ⟨i, -, him⟩ := h.applied m hm
      have := (h.since m (List.mem_of_getElem? him)).2.1
      exact ⟨m, hm, by omega⟩
    · exact hm
  obtain ⟨m, hm, hreseeds⟩ := hcurrent
  obtain ⟨i, hi, him⟩ := h.applied m hm
  obtain ⟨m', hm'⟩ := h.exists_reached hm
  have hq := (h.since m (List.mem_of_getElem? him)).2.2 hreseeds
  exact ⟨m', hm', (h.quiet_later hi him hm' hq).2⟩

/-- Tables that change without a revocation, a new live block having no burned serial. -/
theorem StationOk.quiet (h : StationOk k d cloud burned reseeds st) (hq : Quiet k cloud cloud')
    (hnew : ∀ b' ∈ cloud'.ssccBlocks, b'.toKey = k → b'.deviceId = d → b'.live = true →
      (∃ b ∈ cloud.ssccBlocks, b.live = true ∧ SameRow b b') ∨
        ∀ x ∈ burned, x.2 < b'.fromSerial) :
    StationOk k d cloud' burned reseeds st :=
  { h with
    since := fun m hm => by
      obtain ⟨h1, h2, h3⟩ := h.since m hm
      exact ⟨h1.trans (.inl hq), h2, fun he => (h3 he).trans hq⟩
    burned := by
      intro b' hb' hk hd hlive x hx hle hge
      rcases hnew b' hb' hk hd hlive with ⟨b, hb, hblive, hsame⟩ | hnone
      · obtain ⟨⟨m, hm, hmq⟩, r, hr, hf, hlt⟩ := h.burned b hb (hsame.key.symm.trans hk)
          (hsame.device.symm.trans hd) hblive x hx (hsame.lower ▸ hle) (hsame.upper ▸ hge)
        exact ⟨⟨m, hm, hmq.trans hq⟩, r, hr, hf.trans hsame.lower.symm, hlt⟩
      · have := hnone x hx
        omega }

/-- A reseed that revokes every block. -/
theorem StationOk.ended (h : StationOk k d cloud burned reseeds st) (he : Ended k cloud cloud')
    (hdead : ∀ b ∈ cloud'.ssccBlocks, b.toKey = k → b.live = false) :
    StationOk k d cloud' burned (reseeds + 1) st :=
  { h with
    since := fun m hm => by
      obtain ⟨h1, h2, -⟩ := h.since m hm
      exact ⟨h1.trans (.inr he), by omega, fun heq => absurd heq (by omega)⟩
    burned := by
      intro b hb hk hd hlive
      rw [hdead b hb hk] at hlive
      cases hlive }

theorem StationOk.reseeded (h : StationOk k d cloud burned reseeds st) :
    StationOk k d cloud burned (reseeds + 1) st :=
  { h with
    since := fun m hm => by
      obtain ⟨h1, h2, -⟩ := h.since m hm
      exact ⟨h1, by omega, fun heq => absurd heq (by omega)⟩ }

theorem StationOk.sent (h : StationOk k d cloud burned reseeds st) {m : Bundle}
    (hm : HandedDown k d m cloud)
    (hwithin : ∀ c, m.sscc.consumedThroughSerial = some c → m.sscc.fromSerial ≤ c) :
    StationOk k d cloud burned reseeds { st with inbox := st.inbox ++ [⟨m, cloud, reseeds⟩] } where
  since := by
    intro m' hm'
    rcases List.mem_append.1 hm' with hm' | hm'
    · exact h.since m' hm'
    · obtain rfl := List.mem_singleton.1 hm'
      exact ⟨.inl (Quiet.refl k _), le_rfl, fun _ => Quiet.refl k _⟩
  order := by
    refine List.pairwise_append.2 ⟨h.order, List.pairwise_singleton _ _, fun a ha b hb => ?_⟩
    obtain rfl := List.mem_singleton.1 hb
    exact (h.since a ha).1
  handed := by
    intro m' hm'
    rcases List.mem_append.1 hm' with hm' | hm'
    · exact h.handed m' hm'
    · obtain rfl := List.mem_singleton.1 hm'
      exact hm
  within := by
    intro m' hm'
    rcases List.mem_append.1 hm' with hm' | hm'
    · exact h.within m' hm'
    · obtain rfl := List.mem_singleton.1 hm'
      exact hwithin
  reach := by
    rcases h.reach with hr | hr
    · left
      rw [List.length_append]
      exact Nat.lt_add_right _ hr
    · exact .inr hr
  applied := by
    intro m' hm'
    obtain ⟨i, hi, him⟩ := h.applied m' hm'
    exact ⟨i, hi, (List.getElem?_append_left (List.getElem?_eq_some_iff.1 him).1).trans him⟩
  begun := by
    intro m' hm'
    have him := h.begun m' hm'
    exact (List.getElem?_append_left (List.getElem?_eq_some_iff.1 him).1).trans him
  rows := h.rows
  lives := by
    intro m' hm' r hr
    obtain ⟨-, -, m0, hm0, -⟩ := h.rows r hr
    obtain ⟨m1, hm1⟩ := h.exists_reached hm0
    have hsame : (st.inbox ++ [⟨m, cloud, reseeds⟩])[st.reached]? = some m1 :=
      (List.getElem?_append_left (List.getElem?_eq_some_iff.1 hm1).1).trans hm1
    rw [hsame] at hm'
    cases hm'
    exact h.lives _ hm1 r hr
  burned := by
    intro b hb hk hd hlive x hx hle hge
    obtain ⟨⟨m1, hm1, hq⟩, hrow⟩ := h.burned b hb hk hd hlive x hx hle hge
    refine ⟨⟨m1, ?_, hq⟩, hrow⟩
    exact (List.getElem?_append_left (List.getElem?_eq_some_iff.1 hm1).1).trans hm1

/-- The block a row came from, in the tables of a bundle reached later. -/
theorem StationOk.row_block (h : StationOk k d cloud burned reseeds st) {r : PoolRow}
    (hr : r ∈ st.pool.rows) {i : ℕ} (hi : st.reached ≤ i) {m : Sent} (hm : st.inbox[i]? = some m) :
    ∃ b ∈ m.asOf.ssccBlocks, b.toKey = k ∧ b.deviceId = d ∧ b.fromSerial = r.fromSerial ∧
      b.toSerial = r.toSerial := by
  obtain ⟨-, -, m0, hm0, hfrom⟩ := h.rows r hr
  obtain ⟨j, hj, hjm⟩ := h.applied m0 hm0
  obtain ⟨b, hb, hk, hd, -, hlower, hupper, -⟩ := (h.handed m0 (List.mem_of_getElem? hjm)).block
  obtain ⟨n, hn⟩ := List.getElem?_of_mem hb
  have hrow : ∃ b', m.asOf.ssccBlocks[n]? = some b' ∧ SameRow b b' := by
    rcases h.since_later (hj.trans hi) hjm hm with hq | he
    · obtain ⟨b', hb', hsame, -⟩ := hq n b hn hk
      exact ⟨b', hb', hsame⟩
    · obtain ⟨b', hb', hsame, -⟩ := he n b hn hk
      exact ⟨b', hb', hsame⟩
  obtain ⟨b', hb', hsame⟩ := hrow
  exact ⟨b', List.mem_of_getElem? hb', hsame.key.trans hk, hsame.device.trans hd,
    (hsame.lower.trans hlower).trans hfrom.lower.symm,
    (hsame.upper.trans hupper).trans hfrom.upper.symm⟩

theorem StationOk.dropped (h : StationOk k d cloud burned reseeds st) {i : ℕ} {m : Sent}
    (hm : st.inbox[i]? = some m) (hi : st.reached ≤ i) :
    StationOk k d cloud burned reseeds
      { st with pool := dropRevoked st.pool m.bundle, reached := i, begun := some m } :=
  { h with
    reach := .inl (List.getElem?_eq_some_iff.1 hm).1
    applied := by
      intro m' hm'
      obtain ⟨j, hj, hjm⟩ := h.applied m' hm'
      exact ⟨j, hj.trans hi, hjm⟩
    begun := by
      intro m' hm'
      cases hm'
      exact hm
    rows := fun r hr => h.rows r (mem_delete.1 hr).1
    lives := by
      intro m' hm' r hr
      have hsame : m = m' := Option.some.inj (hm.symm.trans hm')
      subst hsame
      have hr' := (mem_delete.1 hr).1
      obtain ⟨hissuer, hdigit, -⟩ := h.rows r hr'
      obtain ⟨b, hb, hk, hd, hf, -⟩ := h.row_block hr' hi hm
      exact (h.handed m (List.mem_of_getElem? hm)).liveStart hr hissuer hdigit ⟨b, hb, hk, hd, hf⟩
    burned := by
      intro b hb hk hd hlive x hx hle hge
      obtain ⟨⟨m1, hm1, hq⟩, r, hr, hf, hlt⟩ := h.burned b hb hk hd hlive x hx hle hge
      -- Nothing was revoked since the bundle reached before, so the row is not dropped.
      obtain ⟨hq1, hq2⟩ := h.quiet_later hi hm1 hm hq
      have hstart := (h.lives m1 hm1 r hr).later hq1
      exact ⟨⟨m, hm, hq2⟩, r, (h.handed m (List.mem_of_getElem? hm)).kept hr hstart, hf, hlt⟩ }

theorem mem_addRange {pool : Pool} {b : SsccBlock} {r' : PoolRow}
    (h : r' ∈ (addRange pool b).rows) :
    (∃ r ∈ pool.rows, r'.key = r.key ∧ r'.toSerial = r.toSerial ∧ r.nextSerial ≤ r'.nextSerial) ∨
      r' = b.row := by
  unfold addRange at h
  split at h
  · obtain ⟨r, hr, heq⟩ := mem_update.1 h
    refine .inl ⟨r, hr, ?_⟩
    rw [← heq]
    split
    · exact ⟨rfl, rfl, le_max_left _ _⟩
    · exact ⟨rfl, rfl, le_rfl⟩
  · rcases List.mem_append.1 h with h | h
    · exact .inl ⟨r', h, rfl, rfl, le_rfl⟩
    · exact .inr (List.mem_singleton.1 h)

theorem exists_mem_addRange {pool : Pool} {b : SsccBlock} {r : PoolRow} (hr : r ∈ pool.rows) :
    ∃ r' ∈ (addRange pool b).rows, r'.key = r.key ∧ r.nextSerial ≤ r'.nextSerial := by
  unfold addRange
  split
  · refine ⟨_, mem_update_of_mem hr, ?_⟩
    split
    · exact ⟨rfl, le_max_left _ _⟩
    · exact ⟨rfl, le_rfl⟩
  · exact ⟨r, List.mem_append_left _ hr, rfl, le_rfl⟩

theorem FromBundle.mono {r r' : PoolRow} {m : Bundle} (h : FromBundle r m) (hkey : r'.key = r.key)
    (hto : r'.toSerial = r.toSerial) (hle : r.nextSerial ≤ r'.nextSerial) : FromBundle r' m := by
  obtain ⟨-, hdigit, hfrom⟩ := Prod.mk.inj hkey |>.imp id Prod.mk.inj
  refine ⟨hfrom.trans h.lower, hto.trans h.upper, fun c hc => (h.unused c hc).trans_le hle, ?_, ?_⟩
  · have := h.started
    omega
  · intro hzero
    exact (h.box (hdigit.symm.trans hzero)).trans hle

theorem FromBundle.row {m : Bundle}
    (hwithin : ∀ c, m.sscc.consumedThroughSerial = some c → m.sscc.fromSerial ≤ c) :
    FromBundle m.sscc.row m := by
  refine ⟨rfl, rfl, fun c hc => ?_, ?_, fun hzero => ?_⟩
  · show c < m.sscc.cursor
    unfold SsccBlock.cursor
    rw [hc]
    exact lt_max_of_lt_left (Nat.lt_succ_self c)
  · show m.sscc.fromSerial ≤ m.sscc.cursor
    unfold SsccBlock.cursor
    cases hc : m.sscc.consumedThroughSerial with
    | none => exact le_max_left _ _
    | some c => exact le_max_of_le_left ((hwithin c hc).trans (Nat.le_succ c))
  · have hzero : m.sscc.extensionDigit = 0 := hzero
    show 1 ≤ m.sscc.cursor
    unfold SsccBlock.cursor
    rw [if_pos hzero]
    exact le_max_right _ _

theorem StationOk.added (h : StationOk k d cloud burned reseeds st) {m : Sent}
    (hm : st.begun = some m) :
    StationOk k d cloud burned reseeds
      { st with pool := addRange st.pool m.bundle.sscc, begun := none,
                applied := st.applied ++ [m] } := by
  have hreached := h.begun m hm
  have hmem := List.mem_of_getElem? hreached
  have hdown := h.handed m hmem
  refine ⟨h.since, h.order, h.handed, h.within, h.reach, ?_, ?_, ?_, ?_, ?_⟩
  · intro m' hm'
    rcases List.mem_append.1 hm' with hm' | hm'
    · exact h.applied m' hm'
    · obtain rfl := List.mem_singleton.1 hm'
      exact ⟨st.reached, le_rfl, hreached⟩
  · intro m' hm'
    cases hm'
  · intro r' hr'
    rcases mem_addRange hr' with ⟨r, hr, hkey, hto, hle⟩ | rfl
    · obtain ⟨hissuer, hdigit, m0, hm0, hfrom⟩ := h.rows r hr
      refine ⟨(congrArg Prod.fst hkey).trans hissuer,
        (congrArg (fun x => x.2.1) hkey).trans hdigit, m0, List.mem_append_left _ hm0,
        hfrom.mono hkey hto hle⟩
    · exact ⟨hdown.issuer, hdown.digit, m, List.mem_append_right _ List.mem_cons_self,
        FromBundle.row (h.within m hmem)⟩
  · intro m' hm' r' hr'
    rcases mem_addRange hr' with ⟨r, hr, hkey, -, -⟩ | rfl
    · have hf : r'.fromSerial = r.fromSerial := congrArg (fun x => x.2.2) hkey
      rw [hf]
      exact h.lives m' hm' r hr
    · have hsame : m = m' := Option.some.inj (hreached.symm.trans hm')
      subst hsame
      obtain ⟨b, hb, hk, hd, hlive, hf, -⟩ := hdown.block
      exact ⟨b, hb, hk, hd, hlive, hf⟩
  · intro b hb hk hd hlive x hx hle hge
    obtain ⟨hsync, r, hr, hf, hlt⟩ := h.burned b hb hk hd hlive x hx hle hge
    obtain ⟨r', hr', hkey, hnext⟩ := @exists_mem_addRange st.pool m.bundle.sscc r hr
    exact ⟨hsync, r', hr', (congrArg (fun x => x.2.2) hkey).trans hf, hlt.trans_le hnext⟩

/-- The pool after rows were moved on in place. -/
structure Pool.Grown (pool pool' : Pool) : Prop where
  back : ∀ r' ∈ pool'.rows, ∃ r ∈ pool.rows, r'.key = r.key ∧ r'.toSerial = r.toSerial ∧
    r.nextSerial ≤ r'.nextSerial
  forth : ∀ r ∈ pool.rows, ∃ r' ∈ pool'.rows, r'.key = r.key ∧ r.nextSerial ≤ r'.nextSerial

theorem Pool.Grown.refl (pool : Pool) : pool.Grown pool :=
  ⟨fun r hr => ⟨r, hr, rfl, rfl, le_rfl⟩, fun r hr => ⟨r, hr, rfl, le_rfl⟩⟩

theorem grown_burnSerial (pool : Pool) (issuer : IssuerPrefix) (digit : ℕ) :
    pool.Grown (burnSerial pool issuer digit).1 := by
  rcases burnSerial_cases pool issuer digit with ⟨-, hburn⟩ | ⟨r0, -, -, -, hrows⟩
  · rw [hburn]
    exact .refl pool
  · refine ⟨fun r' hr' => ?_, fun r hr => ?_⟩
    · rw [hrows] at hr'
      obtain ⟨r, hr, rfl⟩ := mem_update.1 hr'
      refine ⟨r, hr, ?_⟩
      split
      · exact ⟨rfl, rfl, Nat.le_succ _⟩
      · exact ⟨rfl, rfl, le_rfl⟩
    · refine ⟨_, by rw [hrows]; exact mem_update_of_mem hr, ?_⟩
      split
      · exact ⟨rfl, Nat.le_succ _⟩
      · exact ⟨rfl, le_rfl⟩

theorem StationOk.burnt (h : StationOk k d cloud burned reseeds st) {pool' : Pool}
    (hgrown : st.pool.Grown pool') {burned' : List (String × ℕ)}
    (hnew : ∀ x ∈ burned', x ∈ burned ∨ ∀ b ∈ cloud.ssccBlocks, b.toKey = k → b.deviceId = d →
      b.live = true → b.fromSerial ≤ x.2 → x.2 ≤ b.toSerial →
        Synced k cloud st ∧ ∃ r ∈ pool'.rows, r.fromSerial = b.fromSerial ∧ x.2 < r.nextSerial) :
    StationOk k d cloud burned' reseeds { st with pool := pool' } :=
  { h with
    rows := by
      intro r' hr'
      obtain ⟨r, hr, hkey, hto, hle⟩ := hgrown.back r' hr'
      obtain ⟨hissuer, hdigit, m, hm, hfrom⟩ := h.rows r hr
      exact ⟨(congrArg Prod.fst hkey).trans hissuer, (congrArg (fun x => x.2.1) hkey).trans hdigit, m,
        hm, hfrom.mono hkey hto hle⟩
    lives := by
      intro m hm r' hr'
      obtain ⟨r, hr, hkey, -, -⟩ := hgrown.back r' hr'
      have hf : r'.fromSerial = r.fromSerial := congrArg (fun x => x.2.2) hkey
      rw [hf]
      exact h.lives m hm r hr
    burned := by
      intro b hb hk hd hlive x hx hle hge
      rcases hnew x hx with hold | hrow
      · obtain ⟨hsync, r, hr, hf, hlt⟩ := h.burned b hb hk hd hlive x hold hle hge
        obtain ⟨r', hr', hkey, hnext⟩ := hgrown.forth r hr
        exact ⟨hsync, r', hr', (congrArg (fun x => x.2.2) hkey).trans hf, hlt.trans_le hnext⟩
      · exact hrow b hb hk hd hlive hle hge }

def Sized (k : Key) (size : ℕ+) (t : Tables) : Prop :=
  ∀ b ∈ t.ssccBlocks, b.toKey = k → b.toSerial = endOf b.fromSerial size - 1

theorem StationOk.live_row (h : StationOk k d cloud burned reseeds st) (hsized : Sized k size cloud)
    (hsync : Synced k cloud st) {r : PoolRow} (hr : r ∈ st.pool.rows) :
    ∃ b ∈ cloud.ssccBlocks, b.toKey = k ∧ b.deviceId = d ∧ b.live = true ∧
      b.fromSerial = r.fromSerial ∧ b.toSerial = r.toSerial := by
  obtain ⟨m, hm, hq⟩ := hsync
  obtain ⟨b, hb, hk, hd, hlive, hf⟩ := (h.lives m hm r hr).later hq
  obtain ⟨b1, hb1, hk1, -, hf1, ht1⟩ := h.row_block hr le_rfl hm
  obtain ⟨i, hi⟩ := List.getElem?_of_mem hb1
  obtain ⟨b2, hb2, hsame, -⟩ := hq i b1 hi hk1
  have hto : r.toSerial = endOf r.fromSerial size - 1 := by
    rw [← ht1, ← hsame.upper, hsized b2 (List.mem_of_getElem? hb2) (hsame.key.trans hk1),
      hsame.lower, hf1]
  exact ⟨b, hb, hk, hd, hlive, hf, by rw [hsized b hb hk, hf, hto]⟩

end Stations

theorem Tables.Sound.live_unique {t : Tables} (h : t.Sound) {a b : BlockRow}
    (ha : a ∈ t.ssccBlocks) (hb : b ∈ t.ssccBlocks) (hk : a.toKey = b.toKey) (hla : a.live = true)
    (hlb : b.live = true) {s : ℕ} (has : a.fromSerial ≤ s ∧ s ≤ a.toSerial)
    (hbs : b.fromSerial ≤ s ∧ s ≤ b.toSerial) : a = b := by
  by_contra hne
  have hsymm : Std.Symm Apart :=
    ⟨fun x y hxy hkey hy hx => (hxy hkey.symm hx hy).symm⟩
  have := h.apart.forall ha hb hne hk hla hlb
  omega

/-! ## The system -/

structure Inv (k : Key) (size : ℕ+) (w : System) : Prop where
  sound : w.cloud.Sound
  sized : Sized k size w.cloud
  within : ∀ b ∈ w.cloud.ssccBlocks, ∀ c, b.consumedThroughSerial = some c → b.fromSerial ≤ c
  passed : ∀ x ∈ w.burned, ∃ n, w.cloud.ssccCounters k = some n ∧ x.2 < n
  covered : ∀ x ∈ w.burned, ∃ b ∈ w.cloud.ssccBlocks, b.toKey = k ∧ b.fromSerial ≤ x.2 ∧
    x.2 ≤ b.toSerial
  recorded : ∀ s ∈ w.recorded, ∃ b ∈ w.cloud.ssccBlocks, b.toKey = k ∧
    ∃ c, b.consumedThroughSerial = some c ∧ s ≤ c
  stations : ∀ d, StationOk k d w.cloud w.burned w.reseeds (w.stations d)
  distinct : (w.burned.map Prod.snd).Nodup
  origin : ∀ x ∈ w.burned, ∃ m ∈ (w.stations x.1).applied,
    (∃ b, HandedBlock k x.1 m.bundle m.asOf b ∧ b.fromSerial ≤ x.2 ∧ x.2 ≤ b.toSerial ∧
      ∀ c, b.consumedThroughSerial = some c → c < x.2) ∧ (k.extensionDigit = 0 → 1 ≤ x.2)

theorem Inv.start (k : Key) (size : ℕ+) : Inv k size System.start where
  sound := .empty
  sized := by simp [Sized, System.start, Tables.empty]
  within := by simp [System.start, Tables.empty]
  passed := by simp [System.start]
  covered := by simp [System.start]
  recorded := by simp [System.start]
  stations := fun d => .new k d
  distinct := List.nodup_nil
  origin := by simp [System.start]

section Steps

variable {w : System}

theorem forall_at {P : String → Station → Prop} {stations : String → Station} {st : Station}
    (hother : ∀ d', d' ≠ d → P d' (stations d')) (hown : P d st) (d' : String) :
    P d' (Function.update stations d st d') := by
  by_cases hd : d' = d
  · subst hd
    rw [Function.update_self]
    exact hown
  · rw [Function.update_of_ne hd]
    exact hother d' hd

theorem Inv.origin_at (h : Inv k size w) {st : Station}
    (happlied : ∀ m ∈ (w.stations d).applied, m ∈ st.applied) :
    ∀ x ∈ w.burned, ∃ m ∈ (Function.update w.stations d st x.1).applied,
      (∃ b, HandedBlock k x.1 m.bundle m.asOf b ∧ b.fromSerial ≤ x.2 ∧ x.2 ≤ b.toSerial ∧
        ∀ c, b.consumedThroughSerial = some c → c < x.2) ∧ (k.extensionDigit = 0 → 1 ≤ x.2) := by
  intro x hx
  obtain ⟨m, hm, hrest⟩ := h.origin x hx
  refine ⟨m, ?_, hrest⟩
  exact forall_at (P := fun d' st => ∀ m ∈ (w.stations d').applied, m ∈ st.applied)
    (fun _ _ _ hm => hm) happlied x.1 m hm

/-- A block more. -/
theorem Inv.cut (h : Inv k size w) (d : String) (hlt : startOf w.cloud k < serialSpace) :
    Inv k size { w with cloud := CloudSscc.cut w.cloud k d size } := by
  have hpassed : ∀ x ∈ w.burned, x.2 < startOf w.cloud k := by
    intro x hx
    obtain ⟨n, hn, hxn⟩ := h.passed x hx
    unfold startOf
    rw [hn]
    exact lt_max_of_lt_left hxn
  refine ⟨h.sound.cut d size hlt, ?_, ?_, ?_, ?_, ?_, fun d' => ?_, h.distinct, h.origin⟩
  · intro b hb hk
    rcases List.mem_append.1 hb with hb | hb
    · exact h.sized b hb hk
    · obtain rfl := List.mem_singleton.1 hb
      rfl
  · intro b hb c hc
    rcases List.mem_append.1 hb with hb | hb
    · exact h.within b hb c hc
    · obtain rfl := List.mem_singleton.1 hb
      cases hc
  · intro x hx
    refine ⟨endOf (startOf w.cloud k) size, Function.update_self _ _ _, ?_⟩
    exact (hpassed x hx).trans (endOf_gt hlt)
  · intro x hx
    obtain ⟨b, hb, hrest⟩ := h.covered x hx
    exact ⟨b, List.mem_append_left _ hb, hrest⟩
  · intro s hs
    obtain ⟨b, hb, hrest⟩ := h.recorded s hs
    exact ⟨b, List.mem_append_left _ hb, hrest⟩
  · refine (h.stations d').quiet (quiet_cut k k w.cloud d size) fun b hb _ _ hlive => ?_
    rcases List.mem_append.1 hb with hb | hb
    · exact .inl ⟨b, hb, hlive, rfl, rfl, rfl, rfl⟩
    · obtain rfl := List.mem_singleton.1 hb
      exact .inr hpassed

theorem Inv.fetch (h : Inv k size w) {d : String} {t : Tables} {m : Bundle}
    (hm : transaction (bundleSscc k d size) w.cloud = (t, .ok m)) :
    Inv k size { w.at d { w.stations d with
      inbox := (w.stations d).inbox ++ [⟨m, t, w.reseeds⟩] } with cloud := t } := by
  obtain ⟨ht, hdown⟩ := bundleSscc_ok hm
  have hcloud : Inv k size { w with cloud := t } := by
    rcases ht with rfl | ⟨hlt, rfl⟩
    · exact h
    · exact h.cut d hlt
  obtain ⟨b, hb, hk, -, -, hlower, -, hconsumed⟩ := hdown.block
  have hwithin : ∀ c, m.sscc.consumedThroughSerial = some c → m.sscc.fromSerial ≤ c := by
    intro c hc
    rw [← hlower]
    exact hcloud.within b hb c (hconsumed.trans hc)
  exact { hcloud with
    stations := forall_at (fun d' _ => hcloud.stations d') ((hcloud.stations d).sent hdown hwithin)
    origin := h.origin_at fun _ hm => hm }

theorem Inv.drop (h : Inv k size w) {d : String} {i : ℕ} {m : Sent}
    (hm : (w.stations d).inbox[i]? = some m) (hi : (w.stations d).reached ≤ i) :
    Inv k size (w.at d { w.stations d with
      pool := dropRevoked (w.stations d).pool m.bundle, reached := i, begun := some m }) := by
  exact { h with
    stations := forall_at (fun d' _ => h.stations d') ((h.stations d).dropped hm hi)
    origin := h.origin_at fun _ hm => hm }

theorem Inv.add (h : Inv k size w) {d : String} {m : Sent} (hm : (w.stations d).begun = some m) :
    Inv k size (w.at d { w.stations d with
      pool := addRange (w.stations d).pool m.bundle.sscc, begun := none,
      applied := (w.stations d).applied ++ [m] }) := by
  exact { h with
    stations := forall_at (fun d' _ => h.stations d') ((h.stations d).added hm)
    origin := h.origin_at fun _ hm => List.mem_append_left _ hm }

theorem Inv.burn (h : Inv k size w) {d : String} (hmay : w.MayBurn d) :
    Inv k size { w.at d { w.stations d with
      pool := (burnSerial (w.stations d).pool k.issuerPrefix k.extensionDigit).1 } with
      burned := w.burnedWith d
        (burnSerial (w.stations d).pool k.issuerPrefix k.extensionDigit).2 } := by
  have hgrown := grown_burnSerial (w.stations d).pool k.issuerPrefix k.extensionDigit
  rcases burnSerial_cases (w.stations d).pool k.issuerPrefix k.extensionDigit with
    ⟨-, hburn⟩ | ⟨r, hr, hroom, hserial, hrows⟩
  · rw [hburn]
    exact { h with
      stations := forall_at (fun d' _ => h.stations d') (h.stations d)
      origin := h.origin_at fun _ hm => hm }
  · have hok := h.stations d
    have hsync := hok.synced hmay hr
    obtain ⟨hissuer, hdigit, m, hm, hfrom⟩ := hok.rows r hr
    obtain ⟨b0, hb0, hk0, hd0, hlive0, hlower0, hupper0⟩ := hok.live_row h.sized hsync hr
    have hin0 : b0.fromSerial ≤ r.nextSerial ∧ r.nextSerial ≤ b0.toSerial := by
      rw [hlower0, hupper0]
      exact ⟨hfrom.started, (PoolRow.hasRoom_iff.1 hroom).2.2⟩
    -- The serial lies in no other live block, whoever holds it.
    have honly : ∀ b ∈ w.cloud.ssccBlocks, b.toKey = k → b.live = true →
        b.fromSerial ≤ r.nextSerial → r.nextSerial ≤ b.toSerial → b = b0 :=
      fun b hb hk hlive hle hge =>
        h.sound.live_unique hb hb0 (hk.trans hk0.symm) hlive hlive0 ⟨hle, hge⟩ hin0
    have hnew : r.nextSerial ∉ w.burned.map Prod.snd := by
      intro hmem
      obtain ⟨x, hx, hxs⟩ := List.mem_map.1 hmem
      obtain ⟨-, r', hr', hf', hlt'⟩ := hok.burned b0 hb0 hk0 hd0 hlive0 x hx
        (hxs ▸ hin0.1) (hxs ▸ hin0.2)
      obtain ⟨hissuer', hdigit', -⟩ := hok.rows r' hr'
      have hsame : r' = r := by
        refine (w.stations d).pool.primaryKey.eq hr' hr ?_
        simp only [PoolRow.key, hissuer', hissuer, hdigit', hdigit, hf', hlower0]
      rw [hsame, hxs] at hlt'
      exact lt_irrefl _ hlt'
    rw [hserial]
    refine ⟨h.sound, h.sized, h.within, ?_, ?_, h.recorded, ?_, ?_, ?_⟩
    · intro x hx
      rcases List.mem_append.1 hx with hx | hx
      · exact h.passed x hx
      · obtain rfl := List.mem_singleton.1 hx
        obtain ⟨n, hn, hlt⟩ := h.sound.below b0 hb0 hlive0
        exact ⟨n, hk0 ▸ hn, hin0.2.trans_lt hlt⟩
    · intro x hx
      rcases List.mem_append.1 hx with hx | hx
      · exact h.covered x hx
      · obtain rfl := List.mem_singleton.1 hx
        exact ⟨b0, hb0, hk0, hin0.1, hin0.2⟩
    · refine forall_at (fun d' hd' => ?_) ?_
      · refine (h.stations d').burnt (.refl _) fun x hx => ?_
        rcases List.mem_append.1 hx with hx | hx
        · exact .inl hx
        · obtain rfl := List.mem_singleton.1 hx
          refine .inr fun b hb hk hbd hlive hle hge => ?_
          rw [honly b hb hk hlive hle hge] at hbd
          exact absurd (hbd.symm.trans hd0) hd'
      · refine hok.burnt hgrown fun x hx => ?_
        rcases List.mem_append.1 hx with hx | hx
        · exact .inl hx
        · obtain rfl := List.mem_singleton.1 hx
          refine .inr fun b hb hk hbd hlive hle hge => ⟨hsync, r.burn, ?_, ?_, Nat.lt_succ_self _⟩
          · rw [hrows]
            have := @mem_update_of_mem PoolRow (fun x => decide (x.key = r.key)) PoolRow.burn _ r hr
            rwa [if_pos (decide_eq_true rfl)] at this
          · rw [honly b hb hk hlive hle hge]
            exact hlower0.symm
    · show (List.map Prod.snd (w.burned ++ [(d, r.nextSerial)])).Nodup
      rw [List.map_append, List.nodup_append]
      refine ⟨h.distinct, List.nodup_singleton _, ?_⟩
      rintro a ha b hb rfl
      obtain rfl := List.mem_singleton.1 hb
      exact hnew ha
    · intro x hx
      rcases List.mem_append.1 hx with hx | hx
      · exact @Inv.origin_at k size d w h { w.stations d with
          pool := (burnSerial (w.stations d).pool k.issuerPrefix k.extensionDigit).1 }
          (fun _ hm => hm) x hx
      · obtain rfl := List.mem_singleton.1 hx
        obtain ⟨i, -, him⟩ := hok.applied m hm
        obtain ⟨b, hb⟩ := (hok.handed m (List.mem_of_getElem? him)).block
        have hblock := hb
        obtain ⟨-, -, -, -, hlower, hupper, hconsumed⟩ := hb
        refine ⟨m, ?_, ⟨b, hblock, ?_, ?_, fun c hc => ?_⟩, fun hzero => ?_⟩
        · show m ∈ (Function.update w.stations d _ d).applied
          rw [Function.update_self]
          exact hm
        · rw [hlower, ← hfrom.lower]
          exact hfrom.started
        · rw [hupper, ← hfrom.upper]
          exact (PoolRow.hasRoom_iff.1 hroom).2.2
        · exact hfrom.unused c (hconsumed.symm.trans hc)
        · exact hfrom.box (hdigit.trans hzero)

/-- The number of a serial is recorded where a block covers it. -/
theorem serve_record {s : ℕ} {sscc : Units}
    (hsscc : buildSscc k.extensionDigit k.issuerPrefix.units s = .ok sscc) (t : Tables) :
    (serve (.recordConsumedSerial k.tenantId sscc) t).1 =
      consume t k.tenantId ⟨k.extensionDigit, k.issuerPrefix.units, s⟩ := by
  have hparse : parseSscc sscc issuerPrefixLength =
      .ok (some ⟨k.extensionDigit, k.issuerPrefix.units, s⟩) := by
    obtain ⟨f, he, hp, hs⟩ := buildSscc_ok hsscc
    have he : k.extensionDigit = f.extension := Nat.cast_injective he
    have hs : s = f.serial := Nat.cast_injective hs
    have hlen : (f.issuer.length : ℚ) = issuerPrefixLength := by
      have := k.issuerPrefix.length
      rw [hp, f.issuer_units] at this
      rw [this]
      rfl
    rw [he, hp, hs, buildSscc_fields] at hsscc
    obtain rfl := Except.ok.inj hsscc
    rw [← hlen, parseSscc_fields, he, hp, hs]
  simp only [serve, transaction, Call.body, recordConsumedSerial, hparse]
  rfl

theorem covers_of_key {b : BlockRow} {s : ℕ} (hk : b.toKey = k) (hle : b.fromSerial ≤ s)
    (hge : s ≤ b.toSerial) :
    b.covers k.tenantId ⟨k.extensionDigit, k.issuerPrefix.units, s⟩ = true := by
  subst hk
  exact decide_eq_true ⟨rfl, rfl, rfl, hle, hge⟩

theorem Inv.record (h : Inv k size w) {d : String} {s : ℕ} (hs : (d, s) ∈ w.burned) :
    Inv k size { w with
      cloud := consume w.cloud k.tenantId ⟨k.extensionDigit, k.issuerPrefix.units, s⟩
      recorded := w.recorded ++ [s] } := by
  have hmem : ∀ b' ∈ (consume w.cloud k.tenantId
      ⟨k.extensionDigit, k.issuerPrefix.units, s⟩).ssccBlocks, ∃ b ∈ w.cloud.ssccBlocks,
      SameRow b b' ∧ b'.live = b.live ∧ (b'.consumedThroughSerial = b.consumedThroughSerial ∨
        b'.consumedThroughSerial = raiseTo b.consumedThroughSerial s ∧ b.fromSerial ≤ s) := by
    intro b' hb'
    obtain ⟨b, hb, rfl⟩ := List.mem_map.1 hb'
    refine ⟨b, hb, ?_⟩
    split
    · rename_i hcovers
      exact ⟨⟨rfl, rfl, rfl, rfl⟩, rfl, .inr ⟨rfl, (of_decide_eq_true hcovers).2.2.2.1⟩⟩
    · exact ⟨⟨rfl, rfl, rfl, rfl⟩, rfl, .inl rfl⟩
  have hforth : ∀ b ∈ w.cloud.ssccBlocks, ∃ b' ∈ (consume w.cloud k.tenantId
      ⟨k.extensionDigit, k.issuerPrefix.units, s⟩).ssccBlocks, SameRow b b' ∧
      (∀ c, b.consumedThroughSerial = some c → ∃ c', b'.consumedThroughSerial = some c' ∧ c ≤ c') ∧
      (b.toKey = k → b.fromSerial ≤ s → s ≤ b.toSerial →
        ∃ c', b'.consumedThroughSerial = some c' ∧ s ≤ c') := by
    intro b hb
    refine ⟨_, List.mem_map_of_mem hb, ?_⟩
    split
    · refine ⟨⟨rfl, rfl, rfl, rfl⟩, fun c hc => ?_, fun _ _ _ => ⟨_, rfl, le_max_right _ _⟩⟩
      refine ⟨max c s, ?_, le_max_left _ _⟩
      simp [raiseTo, hc]
    · rename_i hnot
      exact ⟨⟨rfl, rfl, rfl, rfl⟩, fun c hc => ⟨c, hc, le_rfl⟩,
        fun hk hle hge => absurd (covers_of_key hk hle hge) hnot⟩
  refine ⟨h.sound.consume _ _, ?_, ?_, h.passed, ?_, ?_, fun d' => ?_, h.distinct, h.origin⟩
  · intro b' hb' hk
    obtain ⟨b, hb, hsame, -⟩ := hmem b' hb'
    rw [hsame.upper, hsame.lower]
    exact h.sized b hb (hsame.key.symm.trans hk)
  · intro b' hb' c hc
    obtain ⟨b, hb, hsame, -, hcons | ⟨hcons, hle⟩⟩ := hmem b' hb'
    · rw [hsame.lower]
      exact h.within b hb c (hcons.symm.trans hc)
    · rw [hsame.lower]
      rw [hcons] at hc
      obtain rfl := Option.some.inj hc
      exact hle.trans (le_max_right _ _)
  · intro x hx
    obtain ⟨b, hb, hk, hle, hge⟩ := h.covered x hx
    obtain ⟨b', hb', hsame, -⟩ := hforth b hb
    exact ⟨b', hb', hsame.key.trans hk, hsame.lower ▸ hle, hsame.upper ▸ hge⟩
  · intro s' hs'
    rcases List.mem_append.1 hs' with hs' | hs'
    · obtain ⟨b, hb, hk, c, hc, hle⟩ := h.recorded s' hs'
      obtain ⟨b', hb', hsame, hraise, -⟩ := hforth b hb
      obtain ⟨c', hc', hle'⟩ := hraise c hc
      exact ⟨b', hb', hsame.key.trans hk, c', hc', hle.trans hle'⟩
    · obtain rfl := List.mem_singleton.1 hs'
      obtain ⟨b, hb, hk, hle, hge⟩ := h.covered (d, s') hs
      obtain ⟨b', hb', hsame, -, hrecord⟩ := hforth b hb
      exact ⟨b', hb', hsame.key.trans hk, hrecord hk hle hge⟩
  · refine (h.stations d').quiet (quiet_consume k w.cloud _ _) fun b' hb' _ _ hlive => ?_
    obtain ⟨b, hb, hsame, hlive', -⟩ := hmem b' hb'
    exact .inl ⟨b, hb, hlive'.symm.trans hlive, hsame⟩

theorem Inv.reseed (h : Inv k size w) {now : ℤ} {n : ℕ} (hfloor : seedFloor w.cloud k ≤ n)
    (hall : ∀ x ∈ w.burned, x.2 ∈ w.recorded) :
    Inv k size { w with
      cloud := CloudSscc.reseed now w.cloud k n
      reseeds := w.reseeds + 1 } := by
  have hlt : ∀ x ∈ w.burned, x.2 < n := by
    intro x hx
    obtain ⟨b, hb, rfl, c, hc, hle⟩ := h.recorded x.2 (hall x hx)
    exact (lt_seedFloor hb hc hle).trans_le hfloor
  by_cases hsame : w.cloud.ssccCounters k = some n
  · have hcloud : CloudSscc.reseed now w.cloud k n = w.cloud := by
      rw [CloudSscc.reseed, if_pos hsame, setCounter_self hsame]
    rw [hcloud]
    exact { h with stations := fun d' => (h.stations d').reseeded }
  · have hrow : ∀ b' ∈ (CloudSscc.reseed now w.cloud k n).ssccBlocks, ∃ b ∈ w.cloud.ssccBlocks,
        SameRow b b' ∧ b'.consumedThroughSerial = b.consumedThroughSerial ∧
        (b.toKey = k → b'.live = false) := by
      intro b' hb'
      rw [CloudSscc.reseed, if_neg hsame] at hb'
      obtain ⟨b, hb, rfl⟩ := List.mem_map.1 hb'
      refine ⟨b, hb, ?_⟩
      split
      · exact ⟨⟨rfl, rfl, rfl, rfl⟩, rfl, fun _ => rfl⟩
      · rename_i hnot
        exact ⟨⟨rfl, rfl, rfl, rfl⟩, rfl, fun hk => Bool.eq_false_iff.2 fun hl => hnot ⟨hk, hl⟩⟩
    have hforth : ∀ b ∈ w.cloud.ssccBlocks, ∃ b' ∈ (CloudSscc.reseed now w.cloud k n).ssccBlocks,
        SameRow b b' ∧ b'.consumedThroughSerial = b.consumedThroughSerial := by
      intro b hb
      rw [CloudSscc.reseed, if_neg hsame]
      refine ⟨_, List.mem_map_of_mem hb, ?_⟩
      split
      · exact ⟨⟨rfl, rfl, rfl, rfl⟩, rfl⟩
      · exact ⟨⟨rfl, rfl, rfl, rfl⟩, rfl⟩
    have hcounter : (CloudSscc.reseed now w.cloud k n).ssccCounters k = some n := by
      rw [CloudSscc.reseed, if_neg hsame]
      exact Function.update_self _ _ _
    have hdead : ∀ b ∈ (CloudSscc.reseed now w.cloud k n).ssccBlocks, b.toKey = k →
        b.live = false := by
      intro b' hb' hk
      obtain ⟨b, -, hsame', -, hdead⟩ := hrow b' hb'
      exact hdead (hsame'.key.symm.trans hk)
    have hended : Ended k w.cloud (CloudSscc.reseed now w.cloud k n) := by
      intro i b hi hk
      rcases since_reseed k w.cloud now n with hq | he
      · obtain ⟨b', hb', hsame', -⟩ := hq i b hi hk
        exact ⟨b', hb', hsame', hdead b' (List.mem_of_getElem? hb') (hsame'.key.trans hk)⟩
      · exact he i b hi hk
    refine ⟨h.sound.reseed now k n, ?_, ?_, fun x hx => ⟨n, hcounter, hlt x hx⟩, ?_, ?_,
      fun d' => (h.stations d').ended hended hdead, h.distinct, h.origin⟩
    · intro b' hb' hk
      obtain ⟨b, hb, hsame', -⟩ := hrow b' hb'
      rw [hsame'.upper, hsame'.lower]
      exact h.sized b hb (hsame'.key.symm.trans hk)
    · intro b' hb' c hc
      obtain ⟨b, hb, hsame', hcons, -⟩ := hrow b' hb'
      rw [hsame'.lower]
      exact h.within b hb c (hcons.symm.trans hc)
    · intro x hx
      obtain ⟨b, hb, hk, hle, hge⟩ := h.covered x hx
      obtain ⟨b', hb', hsame', -⟩ := hforth b hb
      exact ⟨b', hb', hsame'.key.trans hk, hsame'.lower ▸ hle, hsame'.upper ▸ hge⟩
    · intro s hs
      obtain ⟨b, hb, hk, c, hc, hle⟩ := h.recorded s hs
      obtain ⟨b', hb', hsame', hcons⟩ := hforth b hb
      exact ⟨b', hb', hsame'.key.trans hk, c, hcons.trans hc, hle⟩

theorem Inv.elsewhere (h : Inv k size w) (shifts : List ShiftRow)
    (stationDevices : List DeviceRow) :
    Inv k size { w with
      cloud := { w.cloud with shifts := shifts, stationDevices := stationDevices } } := by
  refine ⟨⟨h.sound.proper, h.sound.apart, h.sound.below, h.sound.ordered⟩, h.sized, h.within,
    h.passed, h.covered, h.recorded, fun d' => ?_, h.distinct, h.origin⟩
  refine (h.stations d').quiet (fun _ b hb _ => ⟨b, hb, ⟨rfl, rfl, rfl, rfl⟩, rfl⟩) ?_
  exact fun b hb _ _ hlive => .inl ⟨b, hb, hlive, rfl, rfl, rfl, rfl⟩

theorem Step.inv {w' : System} (hs : Step k size w w') (h : Inv k size w) : Inv k size w' := by
  cases hs with
  | fetch deviceId t bundle hm => exact h.fetch hm
  | drop deviceId i m hm hi => exact h.drop hm hi
  | add deviceId m hm => exact h.add hm
  | burn deviceId hmay => exact h.burn hmay
  | record deviceId s hs sscc hsscc =>
    rw [serve_record hsscc]
    exact h.record hs
  | reseed now n hall hok =>
    have hserve : serve (.seedCounter now k n) w.cloud =
        ((serve (.seedCounter now k n) w.cloud).1, .ok ()) := Prod.ext rfl hok
    obtain ⟨-, hfloor, heq⟩ := seedCounter_ok (transaction_ok hserve)
    rw [heq]
    exact h.reseed hfloor hall
  | elsewhere shifts stationDevices => exact h.elsewhere shifts stationDevices

end Steps

theorem Reached.inv {w : System} (h : Reached k size w) : Inv k size w := by
  induction h with
  | refl => exact .start k size
  | tail _ hs ih => exact hs.inv ih

/-- A cursor never goes back while its row exists. -/
theorem Step.next_le {w w' : System} (hs : Step k size w w') (d : String) {r r' : PoolRow}
    (hr : r ∈ (w.stations d).pool.rows) (hr' : r' ∈ (w'.stations d).pool.rows)
    (hkey : r'.key = r.key) : r.nextSerial ≤ r'.nextSerial := by
  have hsame : r' ∈ (w.stations d).pool.rows → r.nextSerial ≤ r'.nextSerial := fun hmem =>
    le_of_eq (congrArg PoolRow.nextSerial ((w.stations d).pool.primaryKey.eq hr hmem hkey.symm))
  have hat : ∀ {d' : String} {st : Station},
      (d' = d → r' ∈ st.pool.rows → r.nextSerial ≤ r'.nextSerial) →
      r' ∈ (Function.update w.stations d' st d).pool.rows → r.nextSerial ≤ r'.nextSerial := by
    intro d' st hown hmem
    by_cases hd : d = d'
    · subst hd
      rw [Function.update_self] at hmem
      exact hown rfl hmem
    · rw [Function.update_of_ne hd] at hmem
      exact hsame hmem
  cases hs with
  | fetch deviceId t bundle hm =>
    refine hat ?_ hr'
    rintro rfl hmem
    exact hsame hmem
  | drop deviceId i m hm hi =>
    refine hat ?_ hr'
    rintro rfl hmem
    exact hsame (mem_delete.1 hmem).1
  | add deviceId m hm =>
    refine hat ?_ hr'
    rintro rfl hmem
    obtain ⟨r2, hr2, hkey2, hle⟩ := @exists_mem_addRange _ m.bundle.sscc r hr
    have := Pool.primaryKey _ |>.eq hr2 hmem (hkey2.trans hkey.symm)
    exact this ▸ hle
  | burn deviceId hmay =>
    refine hat ?_ hr'
    rintro rfl hmem
    obtain ⟨r2, hr2, hkey2, hle⟩ := (grown_burnSerial _ k.issuerPrefix k.extensionDigit).forth r hr
    have := Pool.primaryKey _ |>.eq hr2 hmem (hkey2.trans hkey.symm)
    exact this ▸ hle
  | record deviceId s hs sscc hsscc => exact hsame hr'
  | reseed now n hall hok => exact hsame hr'
  | elsewhere shifts stationDevices => exact hsame hr'

/-- **No serial is burned twice**, over all stations and times: each burned serial lies in a block
that was live for its station when it was handed down, past what the cloud knew consumed of it; no
cursor goes back, and `remaining` tells how many more burns succeed. -/
theorem serials_burned_once {w : System} (h : Reached k size w) :
    (w.burned.map Prod.snd).Nodup ∧
    (∀ x ∈ w.burned, ∃ m ∈ (w.stations x.1).applied,
      (∃ b, HandedBlock k x.1 m.bundle m.asOf b ∧ b.fromSerial ≤ x.2 ∧ x.2 ≤ b.toSerial ∧
        ∀ c, b.consumedThroughSerial = some c → c < x.2) ∧ (k.extensionDigit = 0 → 1 ≤ x.2)) ∧
    (∀ w', Step k size w w' → ∀ d, ∀ r ∈ (w.stations d).pool.rows,
      ∀ r' ∈ (w'.stations d).pool.rows, r'.key = r.key → r.nextSerial ≤ r'.nextSerial) ∧
    (∀ d n, (burnSerial (afterBurns (w.stations d).pool k.issuerPrefix k.extensionDigit n)
        k.issuerPrefix k.extensionDigit).2.isSome = true ↔
      n < remaining (w.stations d).pool k.issuerPrefix k.extensionDigit) :=
  ⟨h.inv.distinct, h.inv.origin, fun _ hs d _ hr _ hr' => hs.next_le d hr hr',
    fun _ n => burn_succeeds_iff _ _ _ n⟩

/-- The bundle a device is handed first. -/
def Sample.bundle : Bundle := ⟨⟨Sample.issuer, boxExtensionDigit, 1, 3, none⟩, []⟩

theorem Sample.bundle_read :
    (transaction (bundleSscc Sample.boxes "first" 3) System.start.cloud).2 = .ok Sample.bundle := by
  rfl

theorem serials_burned_once_sample : ∃ w, Reached Sample.boxes 3 w ∧ w.burned = [("first", 1)] ∧
    (w.burned.map Prod.snd).Nodup := by
  have hfetch : Reached Sample.boxes 3 _ := .tail .refl (.fetch System.start "first" _ Sample.bundle
    (Prod.ext rfl Sample.bundle_read))
  have hdrop : Reached Sample.boxes 3 _ := .tail hfetch (.drop _ "first" 0 _ rfl le_rfl)
  have hadd : Reached Sample.boxes 3 _ := .tail hdrop (.add _ "first" _ rfl)
  have hburn : Reached Sample.boxes 3 _ := .tail hadd (.burn _ "first" (.inl rfl))
  exact ⟨_, hburn, rfl, (serials_burned_once hburn).1⟩

end Markiro.CloudSscc
