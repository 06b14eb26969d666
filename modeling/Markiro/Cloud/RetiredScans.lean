import Markiro.Cloud.Arrival

/-!
# Scans into boxes already taken apart

Such a scan competes for its code like any other, and is released only at the end of the batch: what
it displaced by then stays displaced. A batch does the same with and without these scans exactly
when none of them comes first for a code that has another rival (`Harmless`).
-/

namespace Markiro.Cloud

/-! ## The rivals of a code -/

/-- The earliest of some scans, of several at one instant the first. -/
def firstScan : List Scan → Option Scan
  | [] => none
  | first :: rest => some (rest.foldl (fun winner candidate =>
      if candidate.scannedAt < winner.scannedAt then candidate else winner) first)

/-- Who competes for a code: its owner, then the batch's scans of it. -/
def rivals (t : Tables) (scans : List BatchScan) (h : String) : List Scan :=
  (t.codeRegistry h).toList ++ (scans.filter (·.codeHash == h)).map (·.toScan)

theorem firstScan_ne_none {s : Scan} {l : List Scan} (h : s ∈ l) : firstScan l ≠ none := by
  cases l with
  | nil => cases h
  | cons first rest => exact Option.some_ne_none _

theorem firstScan_map (items : List ClaimItem) :
    firstScan (items.map (·.toScan)) = (earliest items).map (·.toScan) := by
  cases items with
  | nil => rfl
  | cons first rest =>
    rw [List.map_cons, firstScan, earliest, Option.map_some]
    induction rest generalizing first with
    | nil => rfl
    | cons item rest ih =>
      rw [List.map_cons, List.foldl_cons, List.foldl_cons]
      by_cases hlt : item.scannedAt < first.scannedAt
      · rw [if_pos hlt, if_pos hlt]
        exact ih item
      · rw [if_neg hlt, if_neg hlt]
        exact ih first

theorem firstScan_cons (owner first : Scan) (rest : List Scan) :
    firstScan (owner :: first :: rest) =
      (firstScan (first :: rest)).map (settleClaim (some owner)) := by
  rw [firstScan, firstScan, Option.map_some, List.foldl_cons, settleClaim]
  induction rest generalizing first with
  | nil => rfl
  | cons s rest ih =>
    rw [List.foldl_cons, List.foldl_cons, ← ih]
    congr 2
    split_ifs <;> first | rfl | omega

/-- **The claims give a code to the first of its rivals.** -/
theorem scanClaims_registry (t : Tables) (scans : List BatchScan) (h : String) :
    (scanClaims scans t).registry h = firstScan (rivals t scans h) := by
  have hclaim : (claimsByHash (scans.map (·.toClaimItem)) h).map (·.toScan) =
      firstScan ((scans.filter (·.codeHash == h)).map (·.toScan)) := by
    rw [claimsByHash_eq, ← firstScan_map, List.filter_map, List.map_map]
    rfl
  rw [scanClaims, rivals]
  by_cases hh : h ∈ claimHashes (scans.map (·.toClaimItem))
  · obtain ⟨c, hc⟩ := exists_claim hh
    rw [claimCodes_registry_of_claim hc]
    rw [hc, Option.map_some] at hclaim
    cases hr : t.codeRegistry h with
    | none => exact hclaim
    | some owner =>
      cases hl : (scans.filter (·.codeHash == h)).map (·.toScan) with
      | nil =>
        rw [hl] at hclaim
        cases hclaim
      | cons first rest =>
        rw [hl] at hclaim
        show _ = firstScan (owner :: first :: rest)
        rw [firstScan_cons, ← hclaim, Option.map_some]
  · have hnone : claimsByHash (scans.map (·.toClaimItem)) h = none := by
      rwa [← Option.not_isSome_iff_eq_none, claimsByHash_isSome]
    rw [claimCodes_registry_of_not hh]
    rw [hnone, Option.map_none] at hclaim
    cases hl : (scans.filter (·.codeHash == h)).map (·.toScan) with
    | nil => cases t.codeRegistry h <;> rfl
    | cons first rest =>
      rw [hl] at hclaim
      cases hclaim

/-! ## The batch without them -/

section Rows

variable {srv : Server} {now : ℤ} {scans : List BatchScan} {t : Tables} {boxes : List BoxRow}
variable {items : BoxKey → String → Option BoxItem} {rows : List MembershipRow}
variable {box : BoxKey} {h : String} {addedAt : ℤ}

/-- The scans of a batch that go into no box taken apart. -/
def keptScans (boxes : List BoxRow) (scans : List BatchScan) : List BatchScan :=
  scans.filter fun scan => !scan.boxKey?.any (retiredBox boxes)

theorem retiredBox_openBoxes (key : BoxKey) :
    retiredBox (openBoxes srv scans boxes) key = retiredBox boxes key := by
  unfold retiredBox
  cases hb : boxAt boxes key with
  | some row => rw [boxAt_openBoxes_of_some hb]
  | none =>
    rw [boxAt_openBoxes_of_none hb]
    split_ifs <;> rfl

theorem retiredBox_openBoxes_eq : retiredBox (openBoxes srv scans boxes) = retiredBox boxes :=
  funext retiredBox_openBoxes

theorem mem_keptScans {scan : BatchScan} : scan ∈ keptScans boxes scans ↔
    scan ∈ scans ∧ ∀ key, scan.boxKey? = some key → retiredBox boxes key = false := by
  rw [keptScans, List.mem_filter]
  refine and_congr_right fun _ => ?_
  cases scan.boxKey? with
  | none => simp
  | some key => simp

theorem membershipRows_kept (ownerByHash : String → Option Scan) :
    membershipRows boxes ownerByHash (keptScans boxes scans) =
      membershipRows boxes ownerByHash scans := by
  rw [membershipRows, membershipRows, keptScans, List.filterMap_filter]
  refine List.filterMap_congr fun scan _ => ?_
  cases scan.boxKey? with
  | none => rfl
  | some key => by_cases hr : retiredBox boxes key = true <;> simp [hr]

theorem membershipRows_congr {owner owner' : String → Option Scan}
    (hsame : ∀ scan ∈ keptScans boxes scans, owner scan.codeHash = owner' scan.codeHash) :
    membershipRows boxes owner scans = membershipRows boxes owner' scans := by
  rw [← membershipRows_kept owner, ← membershipRows_kept owner', membershipRows, membershipRows]
  refine List.filterMap_congr fun scan hscan => ?_
  rw [hsame scan hscan]

theorem scanRows_eq : scanRows srv scans t =
    membershipRows t.boxes (fun h => firstScan (rivals t scans h)) scans := by
  have hboxes : ∀ owner, membershipRows (openBoxes srv scans t.boxes) owner scans =
      membershipRows t.boxes owner scans := by
    intro owner
    rw [membershipRows, membershipRows, retiredBox_openBoxes_eq]
  rw [scanRows, hboxes]
  refine membershipRows_congr fun scan hscan => ?_
  have hmem : scan.codeHash ∈ claimHashes (scans.map (·.toClaimItem)) :=
    mem_claimHashes.2 ⟨_, List.mem_map_of_mem (mem_keptScans.1 hscan).1, rfl⟩
  exact (claimCodes_ownerByHash hmem).trans (scanClaims_registry t scans _)

/-! ## The live rows of a code -/

/-- The rows that are written for their codes' owners. -/
def ownerRows (srv : Server) (rows : List MembershipRow) : List MembershipRow :=
  (sortBoxItems srv (oneOwnerBox srv rows)).filter (·.ownerIsThisScan)

def otherRows (srv : Server) (rows : List MembershipRow) : List MembershipRow :=
  (sortBoxItems srv (oneOwnerBox srv rows)).filter fun row => !row.ownerIsThisScan

/-- A code's row in a box lives at an instant once a batch's rows are written: the row of an owner
is new there or finds its own row live, and where there is none the row was live and no other row of
the batch ends it. -/
def LivesOn (srv : Server) (rows : List MembershipRow) (items : BoxKey → String → Option BoxItem)
    (box : BoxKey) (h : String) (addedAt : ℤ) : Prop :=
  (match rowOf (ownerRows srv rows) box h with
    | some row => row.addedAt = addedAt ∧
        ∀ old, items box h = some old → old.addedAt = addedAt → old.live = true
    | none => liveAt items box h = some addedAt) ∧
  ∀ row, rowOf (otherRows srv rows) box h = some row → row.addedAt ≠ addedAt

theorem liveAt_writeMemberships_iff :
    liveAt (writeMemberships srv now rows items) box h = some addedAt ↔
      LivesOn srv rows items box h addedAt := by
  have hupsert : liveAt (upsertMemberships (ownerRows srv rows) items) box h = some addedAt ↔
      (match rowOf (ownerRows srv rows) box h with
        | some row => row.addedAt = addedAt ∧
            ∀ old, items box h = some old → old.addedAt = addedAt → old.live = true
        | none => liveAt items box h = some addedAt) := by
    rw [liveAt, upsertMemberships]
    cases rowOf (ownerRows srv rows) box h with
    | none => rfl
    | some row =>
      cases hi : items box h with
      | none => simp [BoxItem.live]
      | some old =>
        by_cases hat : row.addedAt = old.addedAt
        · by_cases hlive : old.live = true
          · simp [hat, hlive]
          · simp [hat, hlive]
        · simp [hat, BoxItem.live]
          rintro rfl hold
          exact absurd hold.symm hat
  rw [LivesOn, ← hupsert, writeMemberships, liveAt_displaceWhere_eq_some, liveAt_insertFresh]
  refine and_congr_right fun _ => ?_
  show (rowOf (otherRows srv rows) box h).any _ = false ↔ _
  cases rowOf (otherRows srv rows) box h with
  | none => simp
  | some row => simp

theorem liveAt_scanItems_iff : liveAt (scanItems srv now scans t) box h = some addedAt ↔
    LivesOn srv (scanRows srv scans t) t.boxItems box h addedAt ∧
      (t.codeRegistry h = some ⟨box.shiftId, box.terminalId, addedAt⟩ →
        firstScan (rivals t scans h) = some ⟨box.shiftId, box.terminalId, addedAt⟩) := by
  rw [scanItems, liveAt_displaceIncumbents, liveAt_writeMemberships_iff]
  refine and_congr_right fun _ => ⟨fun hx hr => ?_, fun hkeeps x hx hcode hlosing => ?_⟩
  · rw [← scanClaims_registry]
    exact registry_of_not_displaced hr hx
  · obtain ⟨c, hc, hr, hlt, -⟩ := mem_displaced.1 hx
    subst hcode
    rw [hlosing] at hr hlt
    have hfirst := hkeeps hr
    rw [← scanClaims_registry, scanClaims, claimCodes_registry_of_claim hc, hr, settleClaim,
      if_pos hlt] at hfirst
    rw [Option.some.inj hfirst] at hlt
    exact lt_irrefl _ hlt

/-! ## Duplicates -/

theorem pairwise_activeOwnerMemberships {hashes : List String} (hnodup : hashes.Nodup)
    (ownerByHash : String → Option Scan) :
    (activeOwnerMemberships srv boxes hashes ownerByHash items).Pairwise fun a b =>
      a.codeHash = b.codeHash → srv.uuid a.box ≤ srv.uuid b.box := by
  have hsorted := List.pairwise_insertionSort (fun a b : BoxRow => srv.uuid a.key ≤ srv.uuid b.key)
    (boxes.filter (·.disassembledAt.isNone))
  refine List.Pairwise.filter _ (List.pairwise_flatMap.2 ⟨fun hash _ => ?_, ?_⟩)
  · refine List.Pairwise.filterMap _ (fun x y hxy a ha b hb _ => ?_) hsorted
    have hx : a.box = x.key := by grind
    have hy : b.box = y.key := by grind
    rw [hx, hy]
    exact hxy
  · refine hnodup.imp fun {x y} hne a ha b hb hcode => absurd ?_ hne
    obtain ⟨p, -, hp⟩ := List.mem_filterMap.1 ha
    obtain ⟨q, -, hq⟩ := List.mem_filterMap.1 hb
    have hx : a.codeHash = x := by grind
    have hy : b.codeHash = y := by grind
    rw [← hx, ← hy, hcode]

/-- A code keeps its row in the lowest box. -/
theorem not_duplicate_iff {active : List ActiveMembership} {a : ActiveMembership}
    (hid : Function.Injective srv.uuid) (hsorted : active.Pairwise fun a b =>
      a.codeHash = b.codeHash → srv.uuid a.box ≤ srv.uuid b.box) (ha : a ∈ active) :
    a ∉ duplicateMemberships active ↔
      ∀ b ∈ active, b.codeHash = a.codeHash → srv.uuid a.box ≤ srv.uuid b.box := by
  obtain ⟨first, hfirst⟩ : ∃ first, active.find? (·.codeHash == a.codeHash) = some first := by
    rw [← Option.isSome_iff_exists, List.find?_isSome]
    exact ⟨a, ha, by simp⟩
  have hcode : first.codeHash = a.codeHash := by simpa using List.find?_some hfirst
  have hlowest : ∀ b ∈ active, b.codeHash = a.codeHash → srv.uuid first.box ≤ srv.uuid b.box := by
    intro b hb hbcode
    obtain ⟨-, before, after, rfl, hbefore⟩ := List.find?_eq_some_iff_append.1 hfirst
    rcases List.mem_append.1 hb with hb | hb
    · have hno := hbefore b hb
      rw [hbcode] at hno
      simp at hno
    · rcases List.mem_cons.1 hb with rfl | hb
      · exact le_rfl
      · have htail := (List.pairwise_append.1 hsorted).2.1
        exact (List.pairwise_cons.1 htail).1 b hb (hcode.trans hbcode.symm)
  constructor
  · intro hd b hb hbcode
    have hbox := not_duplicate ha hd
    rw [hfirst, Option.map_some, Option.some.injEq] at hbox
    rw [← hbox]
    exact hlowest b hb hbcode
  · intro hle hd
    have hmem := List.mem_of_find?_eq_some hfirst
    have hbox : first.box = a.box := hid (le_antisymm (hlowest a ha rfl) (hle first hmem hcode))
    rw [duplicateMemberships, List.mem_filter, hfirst, Option.any_some, hbox] at hd
    simp at hd

/-- **The live rows after a batch's scans**: of the rows of a code that live on, the lowest. -/
theorem liveAt_applyScans_iff (hid : Function.Injective srv.uuid) (ht : t.Sound) :
    liveAt (applyScans srv now scans t).1.boxItems box h = some addedAt ↔
      liveAt (scanItems srv now scans t) box h = some addedAt ∧
        ∀ box' addedAt', liveAt (scanItems srv now scans t) box' h = some addedAt' →
          srv.uuid box ≤ srv.uuid box' := by
  rw [liveAt_applyScans]
  refine and_congr_right fun hl => ?_
  by_cases hh : h ∈ claimHashes (scans.map (·.toClaimItem))
  · have hsorted : (scanActive srv now scans t).Pairwise fun a b =>
        a.codeHash = b.codeHash → srv.uuid a.box ≤ srv.uuid b.box :=
      pairwise_activeOwnerMemberships nodup_claimHashes _
    rw [not_duplicate_iff hid hsorted (mem_scanActive ht hh hl)]
    constructor
    · intro hle box' addedAt' hl'
      exact hle _ (mem_scanActive ht hh hl') rfl
    · rintro hle ⟨box', code, addedAt'⟩ hb rfl
      exact hle box' addedAt' (mem_activeOwnerMemberships.1 hb).2.2.1
  · constructor
    · intro _ box' addedAt' hl'
      rw [ht.single (liveAt_of_not_mem hh hl) (liveAt_of_not_mem hh hl')]
    · intro _ hd
      exact hh (mem_activeOwnerMemberships.1 (List.mem_filter.1 hd).1).1

end Rows

/-! ## With and without them -/

section Scans

variable {srv : Server} {now : ℤ} {scans : List BatchScan} {t : Tables}
variable {box : BoxKey} {h : String} {addedAt : ℤ}

/-- The first of a code's rivals but for the scans into boxes taken apart. -/
def firstKept (t : Tables) (scans : List BatchScan) (h : String) : Option Scan :=
  firstScan (rivals t (keptScans t.boxes scans) h)

/-- No scan into a box taken apart comes before the rivals of its code, and where it is the first of
them over again, the code stands in a box for that very scan. -/
structure Harmless (srv : Server) (t : Tables) (scans : List BatchScan) : Prop where
  first : ∀ h, firstKept t scans h ≠ none → firstScan (rivals t scans h) = firstKept t scans h
  held : ∀ scan ∈ scans, scan ∉ keptScans t.boxes scans →
    firstKept t scans scan.codeHash = some scan.toScan →
    ∃ box : BoxKey, box.shiftId = scan.shiftId ∧ box.terminalId = scan.terminalId ∧
      LivesOn srv (membershipRows t.boxes (firstKept t scans) (keptScans t.boxes scans)) t.boxItems
        box scan.codeHash scan.scannedAt

theorem firstKept_ne_none {scan : BatchScan} (hs : scan ∈ keptScans t.boxes scans) :
    firstKept t scans scan.codeHash ≠ none := by
  have hmem : scan.toScan ∈ rivals t (keptScans t.boxes scans) scan.codeHash :=
    List.mem_append_right _ (List.mem_map_of_mem (List.mem_filter.2 ⟨hs, by simp⟩))
  exact firstScan_ne_none hmem

theorem mem_retiredBoxScans {scan : BatchScan} :
    scan ∈ retiredBoxScans (openBoxes srv scans t.boxes) scans ↔
      scan ∈ scans ∧ scan ∉ keptScans t.boxes scans := by
  rw [retiredBoxScans, keptScans, List.mem_filter, List.mem_filter, retiredBox_openBoxes_eq]
  refine and_congr_right fun hs => ?_
  cases scan.boxKey?.any (retiredBox t.boxes) <;> simp [hs]

theorem keptScans_keptScans :
    keptScans t.boxes (keptScans t.boxes scans) = keptScans t.boxes scans := by
  unfold keptScans
  rw [List.filter_filter]
  simp only [Bool.and_self]

theorem applyScans_kept_registry :
    (applyScans srv now (keptScans t.boxes scans) t).1.codeRegistry h = firstKept t scans h := by
  have hnone : retiredBoxScans (openBoxes srv (keptScans t.boxes scans) t.boxes)
      (keptScans t.boxes scans) = [] := by
    refine List.eq_nil_iff_forall_not_mem.2 fun scan hs => ?_
    obtain ⟨hk, hnot⟩ := mem_retiredBoxScans.1 hs
    rw [keptScans_keptScans] at hnot
    exact hnot hk
  rw [applyScans_registry, hnone]
  exact scanClaims_registry t _ h

theorem applyScans_registry_eq_some {owner : Scan} :
    (applyScans srv now scans t).1.codeRegistry h = some owner ↔
      firstScan (rivals t scans h) = some owner ∧
        ∀ scan ∈ scans, scan ∉ keptScans t.boxes scans → scan.codeHash = h → scan.toScan = owner →
          ∃ a ∈ scanActive srv now scans t, a.codeHash = h ∧ a.scan = owner := by
  rw [applyScans_registry, releaseRetired_eq_some, scanClaims_registry]
  refine and_congr_right fun _ => ?_
  constructor
  · intro hall scan hs hnot
    exact hall scan (mem_retiredBoxScans.2 ⟨hs, hnot⟩)
  · intro hall scan hs
    obtain ⟨hs, hnot⟩ := mem_retiredBoxScans.1 hs
    exact hall scan hs hnot

theorem firstKept_of_live (ht : t.Sound)
    (hl : liveAt (scanItems srv now scans t) box h = some addedAt) :
    firstKept t scans h ≠ none := by
  obtain ⟨hl | ⟨row, hrow, -, -, rfl, -⟩, -⟩ := liveAt_scanItems hl
  · refine firstScan_ne_none (s := ⟨box.shiftId, box.terminalId, addedAt⟩) ?_
    rw [rivals, ht.owned hl]
    exact List.mem_cons_self
  · obtain ⟨scan, hs, hk, hret, hcode, -⟩ := mem_membershipRows.1 hrow
    rw [retiredBox_openBoxes] at hret
    rw [← hcode]
    refine firstKept_ne_none (mem_keptScans.2 ⟨hs, fun key hkey => ?_⟩)
    rw [hk] at hkey
    rw [← Option.some.inj hkey]
    exact hret

section First

variable (hfirst : ∀ h, firstKept t scans h ≠ none →
  firstScan (rivals t scans h) = firstKept t scans h)
include hfirst

theorem scanRows_kept : scanRows srv scans t =
    membershipRows t.boxes (firstKept t scans) (keptScans t.boxes scans) := by
  rw [scanRows_eq, membershipRows_kept]
  exact membershipRows_congr fun scan hs => hfirst _ (firstKept_ne_none hs)

theorem liveAt_scanItems_kept : liveAt (scanItems srv now scans t) box h = some addedAt ↔
    liveAt (scanItems srv now (keptScans t.boxes scans) t) box h = some addedAt := by
  have hrows : scanRows srv (keptScans t.boxes scans) t = scanRows srv scans t := by
    rw [scanRows_kept hfirst, scanRows_eq]
    rfl
  rw [liveAt_scanItems_iff, liveAt_scanItems_iff, hrows]
  refine and_congr_right fun _ => forall_congr' fun howner => ?_
  rw [hfirst h ?_]
  · rfl
  · refine firstScan_ne_none (s := ⟨box.shiftId, box.terminalId, addedAt⟩) ?_
    rw [rivals, howner]
    exact List.mem_cons_self

theorem liveAt_applyScans_kept (hid : Function.Injective srv.uuid) (ht : t.Sound) (box : BoxKey)
    (h : String) : liveAt (applyScans srv now scans t).1.boxItems box h =
      liveAt (applyScans srv now (keptScans t.boxes scans) t).1.boxItems box h := by
  refine Option.ext fun addedAt => ?_
  rw [liveAt_applyScans_iff hid ht, liveAt_applyScans_iff hid ht, liveAt_scanItems_kept hfirst]
  refine and_congr_right fun _ => forall₂_congr fun box' addedAt' => ?_
  rw [liveAt_scanItems_kept hfirst]

end First

/-- **A batch leaves the owners and the live rows as it does without its scans into boxes taken
apart, exactly when these are harmless.** -/
theorem harmless_iff (hid : Function.Injective srv.uuid) (ht : t.Sound) :
    ((applyScans srv now scans t).1.codeRegistry =
        (applyScans srv now (keptScans t.boxes scans) t).1.codeRegistry ∧
      ∀ box h, liveAt (applyScans srv now scans t).1.boxItems box h =
        liveAt (applyScans srv now (keptScans t.boxes scans) t).1.boxItems box h) ↔
    Harmless srv t scans := by
  constructor
  · rintro ⟨hregistry, -⟩
    have howner : ∀ h owner, firstKept t scans h = some owner →
        (applyScans srv now scans t).1.codeRegistry h = some owner := by
      intro h owner ho
      rw [hregistry, applyScans_kept_registry, ho]
    have hfirst : ∀ h, firstKept t scans h ≠ none →
        firstScan (rivals t scans h) = firstKept t scans h := by
      intro h hne
      obtain ⟨owner, ho⟩ := Option.ne_none_iff_exists'.1 hne
      rw [ho]
      exact (applyScans_registry_eq_some.1 (howner h owner ho)).1
    refine ⟨hfirst, fun scan hs hnot hrepeat => ?_⟩
    obtain ⟨a, ha, hcode, hscan⟩ :=
      (applyScans_registry_eq_some.1 (howner _ _ hrepeat)).2 scan hs hnot rfl rfl
    have hlive := (liveAt_scanItems_iff.1 (mem_activeOwnerMemberships.1 ha).2.2.1).1
    rw [scanRows_kept hfirst, hcode] at hlive
    refine ⟨a.box, congrArg Scan.shiftId hscan, congrArg Scan.terminalId hscan, ?_⟩
    rw [← show a.addedAt = scan.scannedAt from congrArg Scan.scannedAt hscan]
    exact hlive
  · intro hharmless
    refine ⟨funext fun h => Option.ext fun owner => ?_,
      liveAt_applyScans_kept hharmless.first hid ht⟩
    rw [applyScans_registry_eq_some, applyScans_kept_registry]
    by_cases hne : firstKept t scans h = none
    · rw [hne]
      refine iff_of_false ?_ (by simp)
      rintro ⟨hf, hall⟩
      rw [← scanClaims_registry] at hf
      rcases scanClaims_mem hf with ⟨scan, hs, rfl, rfl⟩ | howner
      · have hnot : scan ∉ keptScans t.boxes scans := fun hk => firstKept_ne_none hk hne
        obtain ⟨a, ha, hcode, -⟩ := hall scan hs hnot rfl rfl
        have hlive := (mem_activeOwnerMemberships.1 ha).2.2.1
        rw [hcode] at hlive
        exact firstKept_of_live ht hlive hne
      · refine firstScan_ne_none (s := owner) ?_ hne
        rw [rivals, howner]
        exact List.mem_cons_self
    · rw [hharmless.first h hne]
      refine and_iff_left_of_imp ?_
      rintro ho scan hs hnot rfl rfl
      obtain ⟨box, hshift, hterm, hlive⟩ := hharmless.held scan hs hnot ho
      have hscan : (⟨box.shiftId, box.terminalId, scan.scannedAt⟩ : Scan) = scan.toScan := by
        rw [hshift, hterm]
      have hmem : scan.codeHash ∈ claimHashes (scans.map (·.toClaimItem)) :=
        mem_claimHashes.2 ⟨_, List.mem_map_of_mem hs, rfl⟩
      refine ⟨⟨box, scan.codeHash, scan.scannedAt⟩, mem_scanActive ht hmem ?_, rfl, hscan⟩
      rw [liveAt_scanItems_iff, scanRows_kept hharmless.first, hscan, hharmless.first _ hne]
      exact ⟨hlive, fun _ => ho⟩

end Scans

/-! ## Batches -/

/-- A batch under a new id and without exceptions, with the records that the subscription lets
through. -/
structure ScanBatch (call : Call) (t : Tables) where
  body : StationBatch
  records : StationBatch
  isNew : t.syncBatches body.batchId = none
  isAdmitted : admitted call.access body = .ok records
  noExceptions : body.exceptions = []

def withoutRetired (terminal : String) (boxes : List BoxRow) (body : StationBatch) : StationBatch :=
  { body with items := body.items.filter fun i =>
      !i.boxId.any fun b => retiredBox boxes ⟨i.shiftId, some terminal, b⟩ }

theorem batchScans_withoutRetired (terminal : String) (boxes : List BoxRow) (body : StationBatch) :
    batchScans terminal (withoutRetired terminal boxes body).items =
      keptScans boxes (batchScans terminal body.items) := by
  rw [batchScans, batchScans, keptScans, withoutRetired, List.filterMap_filter,
    List.filter_filterMap]
  refine List.filterMap_congr fun i _ => ?_
  cases i.code with
  | none => split_ifs <;> rfl
  | some code =>
    cases hbox : i.boxId with
    | none => simp [BatchScan.boxKey?, Option.filter_some]
    | some b =>
      by_cases hr : retiredBox boxes ⟨i.shiftId, some terminal, b⟩ = true <;>
        simp [BatchScan.boxKey?, hr, Option.filter_some]

theorem admitted_withoutRetired {access : Access} {body records : StationBatch}
    (h : admitted access body = .ok records) (terminal : String) (boxes : List BoxRow) :
    admitted access (withoutRetired terminal boxes body) =
      .ok (withoutRetired terminal boxes records) := by
  cases access with
  | readOnly eligible =>
    rw [admitted] at h
    cases h
    rw [admitted]
    simp only [withoutRetired, List.filter_filter, Bool.and_comm]
  | full known =>
    rw [admitted] at h
    split_ifs at h with hknown
    cases h
    rw [admitted, if_pos]
    simp only [Bool.and_eq_true, List.all_eq_true] at hknown ⊢
    exact ⟨⟨fun i hi => hknown.1.1 i (List.mem_filter.1 hi).1, hknown.1.2⟩, hknown.2⟩

theorem admitted_exceptions {access : Access} {body records : StationBatch}
    (h : admitted access body = .ok records) (hx : body.exceptions = []) :
    records.exceptions = [] := by
  cases access with
  | readOnly eligible =>
    rw [admitted] at h
    cases h
    rw [hx]
    rfl
  | full known =>
    rw [admitted] at h
    split_ifs at h
    cases h
    exact hx

theorem applyBatch_scans {srv : Server} {call : Call} {t : Tables} {body records : StationBatch}
    (hnew : t.syncBatches body.batchId = none) (ha : admitted call.access body = .ok records)
    (hx : records.exceptions = []) :
    ∃ t' r, applyBatch srv call body t = .ok (t', r) ∧
      t'.codeRegistry =
        (applyScans srv call.now (batchScans call.terminal records.items) t).1.codeRegistry ∧
      t'.boxItems =
        (applyScans srv call.now (batchScans call.terminal records.items) t).1.boxItems := by
  refine ⟨_, _, applyBatch_new hnew ha, ?_, ?_⟩
  · show (applyRecords srv call records t).1.codeRegistry = _
    rw [applyRecords_eq, applyExceptions, if_pos hx]
    exact applyClosures_frame.1
  · show (applyRecords srv call records t).1.boxItems = _
    rw [applyRecords_eq, applyExceptions, if_pos hx]
    exact applyClosures_boxItems

/-- **Scans into boxes taken apart cost nobody a code exactly when they are harmless**: every batch
leaves the owners and the live rows that it leaves without them. -/
theorem retired_scans_cost_nothing (srv : { srv : Server // Function.Injective srv.uuid })
    (t : { t : Tables // t.Sound }) (call : Call) (batch : ScanBatch call t.1) :
    (∃ more without r r', applyBatch srv.1 call batch.body t.1 = .ok (more, r) ∧
      applyBatch srv.1 call (withoutRetired call.terminal t.1.boxes batch.body) t.1 =
        .ok (without, r') ∧
      more.codeRegistry = without.codeRegistry ∧
      ∀ box h, liveAt more.boxItems box h = liveAt without.boxItems box h) ↔
    Harmless srv.1 t.1 (batchScans call.terminal batch.records.items) := by
  have hx := admitted_exceptions batch.isAdmitted batch.noExceptions
  obtain ⟨more, r, hmore, hregistry, hitems⟩ :=
    @applyBatch_scans srv.1 call t.1 _ _ batch.isNew batch.isAdmitted hx
  obtain ⟨without, r', hwithout, hregistry', hitems'⟩ :=
    @applyBatch_scans srv.1 call t.1 (withoutRetired call.terminal t.1.boxes batch.body) _
      batch.isNew (admitted_withoutRetired batch.isAdmitted call.terminal t.1.boxes) hx
  rw [batchScans_withoutRetired] at hregistry' hitems'
  rw [← @harmless_iff srv.1 call.now _ t.1 srv.2 t.2, ← hregistry, ← hregistry', ← hitems,
    ← hitems']
  constructor
  · rintro ⟨t₁, t₂, r₁, r₂, h₁, h₂, hsame⟩
    cases Except.ok.inj (hmore.symm.trans h₁)
    cases Except.ok.inj (hwithout.symm.trans h₂)
    exact hsame
  · intro hsame
    exact ⟨more, without, r, r', hmore, hwithout, hsame⟩

/-! ## A late scan that costs a code -/

namespace Sample

def charCodes (s : String) : List ℕ := s.toList.map Char.toNat

def boxNumber (key : BoxKey) : ℕ :=
  Encodable.encode (charCodes key.shiftId, key.terminalId.map charCodes, charCodes key.deviceBoxId)

def numbered : Server := { server with uuid := boxNumber }

def apart : Tables :=
  { Tables.empty with
    boxes := [⟨box "b", none, none⟩, ⟨box "b1", some 2, some 3⟩]
    codeRegistry := fun h => if h = "c" then some ⟨"s", some "d", 4⟩ else none
    boxItems := fun key h => if key = box "b" ∧ h = "c" then some ⟨4, none, none⟩ else none }

/-- An earlier scan of `c` into the box taken apart. -/
def lateScan : StationBatch := ⟨"2", [⟨"s", some "c", 1, some "b1"⟩], [], []⟩

def lateBatch : ScanBatch call apart := ⟨lateScan, lateScan, rfl, rfl, rfl⟩

end Sample

/-- A scan into a box taken apart, earlier than the owner of its code, takes the code and its live
row from the owner and then gives the code to nobody. -/
theorem late_scan_costs_code :
    ∃ more without r r', applyBatch Sample.numbered Sample.call Sample.lateBatch.body Sample.apart =
        .ok (more, r) ∧
      applyBatch Sample.numbered Sample.call (withoutRetired "d" Sample.apart.boxes
        Sample.lateBatch.body) Sample.apart = .ok (without, r') ∧
      more.codeRegistry "c" = none ∧ liveAt more.boxItems (Sample.box "b") "c" = none ∧
      without.codeRegistry "c" = some ⟨"s", some "d", 4⟩ ∧
      liveAt without.boxItems (Sample.box "b") "c" = some 4 := by
  refine ⟨_, _, _, _, applyBatch_new rfl rfl, applyBatch_new rfl rfl, ?_, ?_, ?_, ?_⟩
  · decide +kernel
  · decide +kernel
  · decide +kernel
  · decide +kernel

end Markiro.Cloud
