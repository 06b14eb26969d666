import Markiro.Cloud.Membership

/-!
# A batch of scans the cloud has not seen

When a batch's scans are new, were made at different instants for each code and go into boxes that
stand, its effect can be said exactly: a code's registry row is the earliest of the incumbent and
the batch's scans, and its live membership is the new owner's own, or the incumbent's if that
stays.
-/

namespace Markiro.Cloud

/-- The batch's scans are told apart by code and instant, and the tables hold none of them. -/
structure Fresh (t : Tables) (scans : List BatchScan) : Prop where
  distinct : scans.Pairwise fun a b => a.codeHash = b.codeHash → a.scannedAt ≠ b.scannedAt
  unowned : ∀ scan ∈ scans, t.codeRegistry scan.codeHash ≠ some scan.toScan
  unwritten : ∀ scan ∈ scans, ∀ box row, scan.boxKey? = some box →
    t.boxItems box scan.codeHash = some row → row.addedAt ≠ scan.scannedAt
  standing : ∀ scan ∈ scans, ∀ box row, scan.boxKey? = some box → boxAt t.boxes box = some row →
    row.disassembledAt = none

section

variable {srv : Server} {now : ℤ} {scans : List BatchScan} {t : Tables}
variable {box : BoxKey} {h : String} {addedAt : ℤ}

theorem Fresh.eq (hf : Fresh t scans) {a b : BatchScan} (ha : a ∈ scans) (hb : b ∈ scans)
    (hc : a.codeHash = b.codeHash) (ht : a.scannedAt = b.scannedAt) : a = b := by
  by_contra hne
  have : Std.Symm fun a b : BatchScan => a.codeHash = b.codeHash → a.scannedAt ≠ b.scannedAt :=
    ⟨fun x y hxy hc ht => hxy hc.symm ht.symm⟩
  exact hf.distinct.forall ha hb hne hc ht

theorem Fresh.not_retired (hf : Fresh t scans) {scan : BatchScan} (hs : scan ∈ scans)
    (hk : scan.boxKey? = some box) : retiredBox (openBoxes srv scans t.boxes) box = false := by
  rw [retiredBox]
  cases hb : boxAt t.boxes box with
  | some row =>
    rw [boxAt_openBoxes_of_some hb]
    simp [hf.standing scan hs box row hk hb]
  | none =>
    rw [boxAt_openBoxes_of_none hb, if_pos ⟨scan, hs, hk⟩]
    rfl

theorem Fresh.retiredBoxScans_eq (hf : Fresh t scans) :
    retiredBoxScans (openBoxes srv scans t.boxes) scans = [] := by
  rw [retiredBoxScans, List.filter_eq_nil_iff]
  intro scan hs
  cases hk : scan.boxKey? with
  | none => simp
  | some box => simp [hf.not_retired hs hk]

theorem Fresh.registry (hf : Fresh t scans) :
    (applyScans srv now scans t).1.codeRegistry = (scanClaims scans t).registry := by
  rw [applyScans_registry, hf.retiredBoxScans_eq]
  rfl

theorem Fresh.mem_scanRows (hf : Fresh t scans) {scan : BatchScan} (hs : scan ∈ scans)
    (hk : scan.boxKey? = some box) :
    ⟨box, scan.codeHash, scan.scannedAt,
      ((scanClaims scans t).registry scan.codeHash).any (sameScan scan.toScan)⟩ ∈
      scanRows srv scans t := by
  refine mem_membershipRows.2 ⟨scan, hs, hk, hf.not_retired hs hk, rfl, rfl, ?_⟩
  rw [show (scanClaims scans t).ownerByHash scan.codeHash = _ from
    claimCodes_ownerByHash (mem_claimHashes.2 ⟨_, List.mem_map_of_mem hs, rfl⟩)]
  rfl

theorem scan_of_owner_row {row : MembershipRow} (hr : row ∈ scanRows srv scans t)
    (ho : row.ownerIsThisScan = true) :
    ∃ scan ∈ scans, scan.boxKey? = some row.box ∧ scan.codeHash = row.codeHash ∧
      scan.scannedAt = row.addedAt ∧
      (scanClaims scans t).registry row.codeHash = some scan.toScan := by
  obtain ⟨scan, hs, hk, -, hc, ht, -⟩ := mem_membershipRows.1 hr
  refine ⟨scan, hs, hk, hc, ht, ?_⟩
  have howner := owner_row hr ho
  rw [show (scanClaims scans t).ownerByHash row.codeHash = _ from
    claimCodes_ownerByHash (mem_hashes_of_row hr)] at howner
  obtain ⟨-, hshift, hterm⟩ := BatchScan.boxKey?_eq_some.1 hk
  change (scanClaims scans t).registry row.codeHash = _ at howner
  rw [howner, ← ht, ← hshift, ← hterm]

theorem scan_of_row {row : MembershipRow} (hr : row ∈ oneOwnerBox srv (scanRows srv scans t)) :
    ∃ scan ∈ scans, scan.boxKey? = some row.box ∧ scan.codeHash = row.codeHash ∧
      scan.toScan = ⟨row.box.shiftId, row.box.terminalId, row.addedAt⟩ := by
  obtain ⟨old, hold, rfl⟩ := List.mem_map.1 hr
  obtain ⟨scan, hs, hk, -, hc, ht, -⟩ := mem_membershipRows.1 hold
  obtain ⟨-, hshift, hterm⟩ := BatchScan.boxKey?_eq_some.1 hk
  refine ⟨scan, hs, hk, hc, ?_⟩
  rw [← hshift, ← hterm, ← ht]

theorem firstOwnerBoxByHash_eq {rows : List MembershipRow} {row : MembershipRow} (hr : row ∈ rows)
    (ho : row.ownerIsThisScan = true)
    (hall : ∀ r ∈ rows, r.ownerIsThisScan = true → r.codeHash = row.codeHash → r.box = row.box) :
    firstOwnerBoxByHash srv rows row.codeHash = some row.box := by
  rw [firstOwnerBoxByHash]
  cases hf : ((rows.filter (·.ownerIsThisScan)).insertionSort fun a b =>
      srv.uuid a.box ≤ srv.uuid b.box).find? (·.codeHash == row.codeHash) with
  | none =>
    refine absurd (List.find?_eq_none.1 hf row ?_) (by simp)
    rw [List.mem_insertionSort, List.mem_filter]
    exact ⟨hr, ho⟩
  | some r =>
    have hmem := List.mem_of_find?_eq_some hf
    rw [List.mem_insertionSort, List.mem_filter] at hmem
    rw [Option.map_some, hall r hmem.1 hmem.2 (by simpa using List.find?_some hf)]

theorem liveAt_writeMemberships_owner {rows : List MembershipRow}
    {items : BoxKey → String → Option BoxItem} {row : MembershipRow} (hr : row ∈ rows)
    (ho : row.ownerIsThisScan = true)
    (honly : ∀ r ∈ rows, r.ownerIsThisScan = true → r.codeHash = row.codeHash →
      r.box = row.box ∧ r.addedAt = row.addedAt)
    (hsame : ∀ r ∈ rows, r.box = row.box → r.codeHash = row.codeHash → r.addedAt = row.addedAt →
      r.ownerIsThisScan = true)
    (hold : ∀ old, items row.box row.codeHash = some old → row.addedAt ≠ old.addedAt) :
    liveAt (writeMemberships srv now rows items) row.box row.codeHash = some row.addedAt := by
  have hfirst := @firstOwnerBoxByHash_eq srv rows row hr ho fun r hr ho hc => (honly r hr ho hc).1
  have hmem : row ∈ (sortBoxItems srv (oneOwnerBox srv rows)).filter (·.ownerIsThisScan) := by
    rw [List.mem_filter, mem_sortBoxItems]
    refine ⟨List.mem_map.2 ⟨row, hr, ?_⟩, ho⟩
    rw [hfirst, ho]
    cases row
    cases ho
    simp
  rw [writeMemberships, liveAt_displaceWhere_eq_some, liveAt_insertFresh]
  constructor
  · cases hrow : rowOf ((sortBoxItems srv (oneOwnerBox srv rows)).filter (·.ownerIsThisScan))
        row.box row.codeHash with
    | none => exact absurd rfl (rowOf_eq_none.1 hrow row hmem rfl)
    | some r =>
      obtain ⟨hrm, hrb, hrc⟩ := rowOf_eq_some hrow
      obtain ⟨hrm, hro⟩ := List.mem_filter.1 hrm
      have hat := (honly r (mem_oneOwnerBox (mem_sortBoxItems.1 hrm) hro) hro hrc).2
      rw [liveAt, upsertMemberships, hrow]
      cases hi : items row.box row.codeHash with
      | none => simp [BoxItem.live, hat]
      | some old =>
        have hne := hold old hi
        simp [hat, hne, BoxItem.live]
  · cases hrow : rowOf ((sortBoxItems srv (oneOwnerBox srv rows)).filter
        fun row => !row.ownerIsThisScan) row.box row.codeHash with
    | none => rfl
    | some r =>
      rw [Option.any_some, beq_eq_false_iff_ne]
      intro hat
      obtain ⟨hrm, hrb, hrc⟩ := rowOf_eq_some hrow
      obtain ⟨hrm, hro⟩ := List.mem_filter.1 hrm
      rw [mem_sortBoxItems] at hrm
      obtain ⟨old, holdm, rfl⟩ := List.mem_map.1 hrm
      have hoo := hsame old holdm hrb hrc hat
      simp only at hrb hrc
      simp [hoo, hrb, hrc, hfirst] at hro

theorem liveAt_writeMemberships_kept {rows : List MembershipRow}
    {items : BoxKey → String → Option BoxItem} (hl : liveAt items box h = some addedAt)
    (hno : ∀ r ∈ rows, r.box = box → r.codeHash = h →
      r.ownerIsThisScan = false ∧ r.addedAt ≠ addedAt) :
    liveAt (writeMemberships srv now rows items) box h = some addedAt := by
  rw [writeMemberships, liveAt_displaceWhere_eq_some, liveAt_insertFresh]
  constructor
  · have hnone : rowOf ((sortBoxItems srv (oneOwnerBox srv rows)).filter (·.ownerIsThisScan))
        box h = none := by
      refine rowOf_eq_none.2 fun r hr hb hc => ?_
      obtain ⟨hr, ho⟩ := List.mem_filter.1 hr
      have := (hno r (mem_oneOwnerBox (mem_sortBoxItems.1 hr) ho) hb hc).1
      rw [ho] at this
      cases this
    rw [liveAt, upsertMemberships, hnone]
    exact hl
  · cases hrow : rowOf ((sortBoxItems srv (oneOwnerBox srv rows)).filter
        fun row => !row.ownerIsThisScan) box h with
    | none => rfl
    | some r =>
      rw [Option.any_some, beq_eq_false_iff_ne]
      obtain ⟨hrm, hrb, hrc⟩ := rowOf_eq_some hrow
      have hrm := (List.mem_filter.1 hrm).1
      rw [mem_sortBoxItems] at hrm
      obtain ⟨old, hold, rfl⟩ := List.mem_map.1 hrm
      exact (hno old hold hrb hrc).2

theorem not_duplicate_of_forall {active : List ActiveMembership} {a : ActiveMembership}
    (hall : ∀ b ∈ active, b.codeHash = a.codeHash → b.box = a.box) :
    a ∉ duplicateMemberships active := by
  rw [duplicateMemberships, List.mem_filter]
  rintro ⟨-, hd⟩
  obtain ⟨first, hfirst, hne⟩ := (Option.any_eq_true _ _).1 hd
  have := hall first (List.mem_of_find?_eq_some hfirst) (by simpa using List.find?_some hfirst)
  simp [this] at hne

/-- The memberships of the batch's owner: written live, and kept by every later statement. -/
theorem Fresh.liveAt_owner (hf : Fresh t scans) (ht : t.Sound) {scan : BatchScan}
    (hs : scan ∈ scans)
    (hk : scan.boxKey? = some box)
    (ho : (scanClaims scans t).registry scan.codeHash = some scan.toScan) :
    liveAt (applyScans srv now scans t).1.boxItems box scan.codeHash = some scan.scannedAt := by
  obtain ⟨-, hshift, hterm⟩ := BatchScan.boxKey?_eq_some.1 hk
  have hscan : scan.toScan = ⟨box.shiftId, box.terminalId, scan.scannedAt⟩ := by
    rw [← hshift, ← hterm]
  have honly : ∀ r ∈ scanRows srv scans t, r.ownerIsThisScan = true → r.codeHash = scan.codeHash →
      r.box = box ∧ r.addedAt = scan.scannedAt := by
    intro r hr hro hrc
    obtain ⟨s, hsm, hsk, hsc, hst, hreg⟩ := scan_of_owner_row hr hro
    rw [hrc, ho, Option.some.injEq] at hreg
    have he := hf.eq hsm hs (hsc.trans hrc) (congrArg Scan.scannedAt hreg.symm)
    rw [he, hk, Option.some.injEq] at hsk
    exact ⟨hsk.symm, by rw [← hst, he]⟩
  have hrow := @Fresh.mem_scanRows srv scans t box hf scan hs hk
  rw [ho, Option.any_some, sameScan_iff.2 rfl] at hrow
  have hlive : liveAt (scanItems srv now scans t) box scan.codeHash = some scan.scannedAt := by
    have hwritten := @liveAt_writeMemberships_owner srv now _ t.boxItems _ hrow rfl honly
    refine liveAt_displaceIncumbents.2 ⟨hwritten ?_ ?_, ?_⟩
    · intro r hr hb hc hat
      obtain ⟨s, hsm, -, -, hsc, hst, hflag⟩ := mem_membershipRows.1 hr
      have he := hf.eq hsm hs (hsc.trans hc) (hst.trans hat)
      rw [← hflag, he, show (scanClaims scans t).ownerByHash scan.codeHash = _ from
        claimCodes_ownerByHash (mem_claimHashes.2 ⟨_, List.mem_map_of_mem hs, rfl⟩)]
      exact (Option.any_eq_true _ _).2 ⟨_, ho, sameScan_iff.2 rfl⟩
    · intro old hold hat
      exact hf.unwritten scan hs box old hk hold hat.symm
    · intro x hx hxc hxl
      obtain ⟨c, -, hr, -⟩ := mem_displaced.1 hx
      rw [hxc] at hr
      exact hf.unowned scan hs (hr.trans (by rw [hxl, hscan]))
  refine liveAt_applyScans.2 ⟨hlive, not_duplicate_of_forall fun b hb hbc => ?_⟩
  obtain ⟨hh, -, hbl, hbo⟩ := mem_activeOwnerMemberships.1 hb
  rw [hbc] at hh hbo hbl
  rw [show (scanClaims scans t).ownerByHash scan.codeHash = _ from claimCodes_ownerByHash hh] at hbo
  have hbs : scan.toScan = b.scan := Option.some.inj (ho.symm.trans hbo)
  obtain ⟨hold | ⟨r, hr, hro, hrb, hrc, -⟩, -⟩ := liveAt_scanItems hbl
  · refine absurd (ht.owned hold) ?_
    rw [show (⟨b.box.shiftId, b.box.terminalId, b.addedAt⟩ : Scan) = scan.toScan from hbs.symm]
    exact hf.unowned scan hs
  · rw [← hrb]
    exact (honly r hr hro hrc).1

/-- The membership of an incumbent that stays. -/
theorem Fresh.liveAt_incumbent (hf : Fresh t scans) (ht : t.Sound)
    (hl : liveAt t.boxItems box h = some addedAt)
    (ho : (scanClaims scans t).registry h = t.codeRegistry h) :
    liveAt (applyScans srv now scans t).1.boxItems box h = some addedAt := by
  have hown := ht.owned hl
  rw [hown] at ho
  -- No scan of the batch is the incumbent, so none of its rows meets the incumbent's.
  have hnew : ∀ s ∈ scans, s.codeHash = h → s.toScan ≠ ⟨box.shiftId, box.terminalId, addedAt⟩ := by
    rintro s hs rfl he
    exact hf.unowned s hs (he ▸ hown)
  have hlive : liveAt (scanItems srv now scans t) box h = some addedAt := by
    refine liveAt_displaceIncumbents.2 ⟨liveAt_writeMemberships_kept hl ?_, ?_⟩
    · intro r hr hb hc
      obtain ⟨s, hs, hk, -, hsc, hst, -⟩ := mem_membershipRows.1 hr
      obtain ⟨-, hshift, hterm⟩ := BatchScan.boxKey?_eq_some.1 hk
      constructor
      · rw [← Bool.not_eq_true]
        intro hro
        obtain ⟨s, hs, -, hsc, -, hreg⟩ := scan_of_owner_row hr hro
        rw [hc, ho] at hreg
        exact hnew s hs (hsc.trans hc) (Option.some.inj hreg).symm
      · intro hat
        refine hnew s hs (hsc.trans hc) ?_
        rw [← hb, ← hshift, ← hterm, ← hat, ← hst]
    · intro x hx hxc hxl
      obtain ⟨c, hc, hr, hlt, -⟩ := mem_displaced.1 hx
      rw [hxc] at hc hr
      have hreg := @claimCodes_registry_of_claim t.codeRegistry _ _ _ hc
      rw [show (claimCodes t.codeRegistry _).registry h = _ from ho, hr, settleClaim, if_pos hlt,
        Option.some.injEq, ← hxl] at hreg
      rw [hreg] at hlt
      exact lt_irrefl _ hlt
  refine liveAt_applyScans.2 ⟨hlive, not_duplicate_of_forall fun b hb hbc => ?_⟩
  obtain ⟨hh, -, hbl, hbo⟩ := mem_activeOwnerMemberships.1 hb
  rw [hbc] at hh hbo hbl
  rw [show (scanClaims scans t).ownerByHash h = _ from claimCodes_ownerByHash hh] at hbo
  obtain ⟨hold | ⟨r, hr, hro, -, hrc, -⟩, -⟩ := liveAt_scanItems hbl
  · exact ht.single hold hl
  · obtain ⟨s, hs, -, hsc, -, hreg⟩ := scan_of_owner_row hr hro
    rw [hrc, ho] at hreg
    exact absurd (Option.some.inj hreg).symm (hnew s hs (hsc.trans hrc))

/-- **The live memberships after a batch of fresh scans**: the new owners' own, and those of the
incumbents that stay. -/
theorem Fresh.liveAt_iff (hf : Fresh t scans) (ht : t.Sound) :
    liveAt (applyScans srv now scans t).1.boxItems box h = some addedAt ↔
      (∃ scan ∈ scans, scan.codeHash = h ∧ scan.boxKey? = some box ∧ scan.scannedAt = addedAt ∧
        (scanClaims scans t).registry h = some scan.toScan) ∨
      (liveAt t.boxItems box h = some addedAt ∧
        (scanClaims scans t).registry h = t.codeRegistry h) := by
  constructor
  · intro hl
    obtain ⟨hl | ⟨row, hr, hro, rfl, rfl, rfl⟩, hx⟩ := liveAt_scanItems (liveAt_applyScans.1 hl).1
    · exact .inr ⟨hl, (registry_of_not_displaced (ht.owned hl) hx).trans (ht.owned hl).symm⟩
    · obtain ⟨s, hs, hk, hc, hst, hreg⟩ := scan_of_owner_row hr hro
      exact .inl ⟨s, hs, hc, hk, hst, hreg⟩
  · rintro (⟨scan, hs, rfl, hk, rfl, hreg⟩ | ⟨hl, hreg⟩)
    · exact hf.liveAt_owner ht hs hk hreg
    · exact hf.liveAt_incumbent ht hl hreg

/-! ## The rows a batch leaves -/

theorem applyScans_row {row : BoxItem}
    (hrow : (applyScans srv now scans t).1.boxItems box h = some row) :
    (∃ old, t.boxItems box h = some old ∧ old.addedAt = row.addedAt) ∨
      ∃ scan ∈ scans, scan.codeHash = h ∧ scan.boxKey? = some box ∧
        scan.scannedAt = row.addedAt := by
  have hscan : ∀ {rows r}, rowOf rows box h = some r →
      (∀ x ∈ rows, x ∈ oneOwnerBox srv (scanRows srv scans t)) → r.addedAt = row.addedAt →
      ∃ scan ∈ scans, scan.codeHash = h ∧ scan.boxKey? = some box ∧
        scan.scannedAt = row.addedAt := by
    intro rows r hr hsub hat
    obtain ⟨hmem, rfl, rfl⟩ := rowOf_eq_some hr
    obtain ⟨scan, hs, hk, hc, hscan⟩ := scan_of_row (hsub r hmem)
    exact ⟨scan, hs, hc, hk, hat ▸ congrArg Scan.scannedAt hscan⟩
  have hsort : ∀ q : MembershipRow → Bool,
      ∀ x ∈ (sortBoxItems srv (oneOwnerBox srv (scanRows srv scans t))).filter q,
        x ∈ oneOwnerBox srv (scanRows srv scans t) :=
    fun q x hx => mem_sortBoxItems.1 (List.mem_filter.1 hx).1
  rw [applyScans_boxItems] at hrow
  obtain ⟨r1, h1, e1⟩ := displaceWhere_row hrow
  rw [scanItems, displaceIncumbents] at h1
  obtain ⟨r2, h2, e2⟩ := displaceAll_row _ _ _ h1
  rw [writeMemberships] at h2
  obtain ⟨r3, h3, e3⟩ := displaceWhere_row h2
  rcases insertFresh_row h3 with ⟨r4, h4, e4⟩ | ⟨r, hr, hat⟩
  · rcases upsertMemberships_row h4 with ⟨old, hold, e5⟩ | ⟨r, hr, hat⟩
    · exact .inl ⟨old, hold, by rw [e5, e4, e3, e2, e1]⟩
    · exact .inr (hscan hr (hsort _) (by rw [hat, e4, e3, e2, e1]))
  · exact .inr (hscan hr (hsort _) (by rw [hat, e3, e2, e1]))

end

end Markiro.Cloud
