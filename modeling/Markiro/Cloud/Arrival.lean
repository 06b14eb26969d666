import Markiro.Cloud.BoxContents
import Markiro.Cloud.FreshScans
import Markiro.Lib.Results

/-!
# Ownership does not depend on how scans arrive

A finite set of scans with different instants for each code may be cut into batches in any way and
delivered in any order. `Settled` says what the tables are once the scans of a list are in: it only
speaks of which scans the list has, and every batch of new scans takes it to the list with the
batch's scans added.
-/

namespace Markiro.Cloud

def EarliestOf (scans : List BatchScan) (scan : BatchScan) : Prop :=
  scan ∈ scans ∧ ∀ s ∈ scans, s.codeHash = scan.codeHash → scan.scannedAt ≤ s.scannedAt

def DistinctInstants (scans : List BatchScan) : Prop :=
  scans.Pairwise fun a b => a.codeHash = b.codeHash → a.scannedAt ≠ b.scannedAt

def lostBy (scan : BatchScan) (row : ConflictRow) : Bool :=
  row.codeHash == scan.codeHash && row.losing == scan.toScan

/-- What the tables hold once exactly these scans are in. -/
structure Settled (scans : List BatchScan) (t : Tables) : Prop where
  sound : t.Sound
  registry : ∀ h owner, t.codeRegistry h = some owner ↔
    ∃ scan, EarliestOf scans scan ∧ scan.codeHash = h ∧ scan.toScan = owner
  live : ∀ box h addedAt, liveAt t.boxItems box h = some addedAt ↔
    ∃ scan, EarliestOf scans scan ∧ scan.codeHash = h ∧ scan.boxKey? = some box ∧
      scan.scannedAt = addedAt
  rows : ∀ box h row, t.boxItems box h = some row →
    ∃ scan ∈ scans, scan.codeHash = h ∧ scan.boxKey? = some box ∧ scan.scannedAt = row.addedAt
  intact : ∀ box ∈ t.boxes, box.disassembledAt = none
  losses : ∀ scan ∈ scans, t.codeConflicts.countP (fun c => lostBy scan c.toConflictRow) =
    if t.codeRegistry scan.codeHash = some scan.toScan then 0 else 1
  recorded : ∀ c ∈ t.codeConflicts, ∃ scan ∈ scans, lostBy scan c.toConflictRow = true

section

variable {srv : Server} {now : ℤ} {known scans : List BatchScan} {t : Tables} {h : String}

theorem lostBy_iff {scan : BatchScan} {row : ConflictRow} :
    lostBy scan row = true ↔ row.codeHash = scan.codeHash ∧ row.losing = scan.toScan := by
  rw [lostBy, Bool.and_eq_true, beq_iff_eq, beq_iff_eq]

theorem DistinctInstants.eq (hd : DistinctInstants scans) {a b : BatchScan} (ha : a ∈ scans)
    (hb : b ∈ scans) (hc : a.codeHash = b.codeHash) (ht : a.scannedAt = b.scannedAt) : a = b := by
  by_contra hne
  have : Std.Symm fun a b : BatchScan => a.codeHash = b.codeHash → a.scannedAt ≠ b.scannedAt :=
    ⟨fun x y hxy hc ht => hxy hc.symm ht.symm⟩
  exact hd.forall ha hb hne hc ht

theorem DistinctInstants.nodup (hd : DistinctInstants scans) : scans.Nodup := by
  refine hd.imp fun hab he => ?_
  rw [he] at hab
  exact hab rfl rfl

theorem DistinctInstants.disjoint (hd : DistinctInstants (known ++ scans)) {a b : BatchScan}
    (ha : a ∈ known) (hb : b ∈ scans) (hc : a.codeHash = b.codeHash) :
    a.scannedAt ≠ b.scannedAt :=
  (List.pairwise_append.1 hd).2.2 a ha b hb hc

theorem exists_earliest {s : BatchScan} (hs : s ∈ scans) :
    ∃ e, EarliestOf scans e ∧ e.codeHash = s.codeHash := by
  obtain ⟨c, hc⟩ := exists_claim (mem_claimHashes.2
    ⟨s.toClaimItem, List.mem_map_of_mem (f := BatchScan.toClaimItem) hs, rfl⟩)
  obtain ⟨hmem, hcode⟩ := claimsByHash_mem hc
  obtain ⟨e, he, rfl⟩ := List.mem_map.1 hmem
  refine ⟨e, ⟨he, fun x hx hxc => ?_⟩, hcode⟩
  exact claimsByHash_le hc (List.mem_map_of_mem hx) (hxc.trans hcode)

theorem EarliestOf.unique (hd : DistinctInstants scans) {a b : BatchScan} (ha : EarliestOf scans a)
    (hb : EarliestOf scans b) (hc : a.codeHash = b.codeHash) : a = b :=
  hd.eq ha.1 hb.1 hc (le_antisymm (ha.2 b hb.1 hc.symm) (hb.2 a ha.1 hc))

/-! ## One batch -/

theorem Settled.fresh (hs : Settled known t) (hd : DistinctInstants (known ++ scans)) :
    Fresh t scans where
  distinct := (List.pairwise_append.1 hd).2.1
  unowned scan hscan ho := by
    obtain ⟨e, he, hc, hscan'⟩ := (hs.registry _ _).1 ho
    exact hd.disjoint he.1 hscan hc (congrArg Scan.scannedAt hscan')
  unwritten scan hscan box row hk hrow hat := by
    obtain ⟨e, he, hc, -, hat'⟩ := hs.rows _ _ _ hrow
    exact hd.disjoint he hscan hc (hat'.trans hat)
  standing scan hscan box row hk hb := hs.intact row (boxAt_mem hb).1

theorem Settled.registry_append (hs : Settled known t) (hd : DistinctInstants (known ++ scans))
    (h : String) (owner : Scan) :
    (scanClaims scans t).registry h = some owner ↔
      ∃ scan, EarliestOf (known ++ scans) scan ∧ scan.codeHash = h ∧ scan.toScan = owner := by
  have hmp : ∀ owner, (scanClaims scans t).registry h = some owner →
      ∃ scan, EarliestOf (known ++ scans) scan ∧ scan.codeHash = h ∧ scan.toScan = owner := by
    intro owner ho
    obtain ⟨hrow, hscan⟩ := scanClaims_le ho
    rcases scanClaims_mem ho with ⟨scan, hmem, rfl, rfl⟩ | hreg
    · refine ⟨scan, ⟨List.mem_append_right _ hmem, fun x hx hc => ?_⟩, rfl, rfl⟩
      rcases List.mem_append.1 hx with hx | hx
      · obtain ⟨e, he, hec⟩ := exists_earliest hx
        have hreg := (hs.registry _ _).2 ⟨e, he, hec.trans hc, rfl⟩
        exact (hrow _ hreg).trans (he.2 x hx hec.symm)
      · exact hscan x hx hc
    · obtain ⟨e, he, rfl, rfl⟩ := (hs.registry _ _).1 hreg
      refine ⟨e, ⟨List.mem_append_left _ he.1, fun x hx hc => ?_⟩, rfl, rfl⟩
      rcases List.mem_append.1 hx with hx | hx
      · exact he.2 x hx hc
      · exact hscan x hx hc
  refine ⟨hmp owner, ?_⟩
  rintro ⟨scan, he, rfl, rfl⟩
  have hsome : (scanClaims scans t).registry scan.codeHash ≠ none := by
    refine scanClaims_ne_none ?_
    rcases List.mem_append.1 he.1 with hmem | hmem
    · obtain ⟨e, he, hc⟩ := exists_earliest hmem
      rw [(hs.registry _ _).2 ⟨e, he, hc, rfl⟩]
      exact .inr (Option.some_ne_none _)
    · exact .inl ⟨scan, hmem, rfl⟩
  obtain ⟨owner, ho⟩ := Option.ne_none_iff_exists'.1 hsome
  obtain ⟨e, he', hc, rfl⟩ := hmp owner ho
  rw [ho, he'.unique hd he hc]

theorem Settled.live_append (hs : Settled known t) (hd : DistinctInstants (known ++ scans))
    (box : BoxKey) (h : String) (addedAt : ℤ) :
    liveAt (applyScans srv now scans t).1.boxItems box h = some addedAt ↔
      ∃ scan, EarliestOf (known ++ scans) scan ∧ scan.codeHash = h ∧ scan.boxKey? = some box ∧
        scan.scannedAt = addedAt := by
  rw [(hs.fresh hd).liveAt_iff hs.sound]
  constructor
  · rintro (⟨scan, hmem, rfl, hk, rfl, hreg⟩ | ⟨hl, hreg⟩)
    · obtain ⟨e, he, hc, hscan⟩ := (hs.registry_append hd _ _).1 hreg
      obtain rfl := hd.eq he.1 (List.mem_append_right _ hmem) hc (congrArg Scan.scannedAt hscan)
      exact ⟨e, he, rfl, hk, rfl⟩
    · obtain ⟨e, he, rfl, hk, rfl⟩ := (hs.live _ _ _).1 hl
      rw [(hs.registry _ _).2 ⟨e, he, rfl, rfl⟩] at hreg
      obtain ⟨e', he', hc, hscan⟩ := (hs.registry_append hd _ _).1 hreg
      obtain rfl := hd.eq he'.1 (List.mem_append_left _ he.1) hc (congrArg Scan.scannedAt hscan)
      exact ⟨e', he', rfl, hk, rfl⟩
  · rintro ⟨e, he, rfl, hk, rfl⟩
    have hreg := (hs.registry_append hd _ _).2 ⟨e, he, rfl, rfl⟩
    rcases List.mem_append.1 he.1 with hmem | hmem
    · have hek : EarliestOf known e := ⟨hmem, fun x hx => he.2 x (List.mem_append_left _ hx)⟩
      refine .inr ⟨(hs.live _ _ _).2 ⟨e, hek, rfl, hk, rfl⟩, hreg.trans ?_⟩
      exact ((hs.registry _ _).2 ⟨e, hek, rfl, rfl⟩).symm
    · exact .inl ⟨e, hmem, rfl, hk, rfl, hreg⟩

/-! ## The losers -/

theorem countP_ownLosses (hd : DistinctInstants scans) {scan : BatchScan} (hscan : scan ∈ scans) :
    (scanClaims scans t).ownLosses.countP (lostBy scan) =
      if (scanClaims scans t).registry scan.codeHash = some scan.toScan then 0 else 1 := by
  have hown : (scanClaims scans t).ownLosses = scans.filterMap fun s =>
      ((scanClaims scans t).registry s.codeHash).bind fun owner =>
        if s.toScan = owner then none else some ⟨s.codeHash, s.toScan, owner⟩ := by
    rw [show (scanClaims scans t).ownLosses = _ from claimCodes_ownLosses, List.filterMap_map]
    rfl
  have hsome : (scanClaims scans t).registry scan.codeHash ≠ none :=
    scanClaims_ne_none (.inl ⟨scan, hscan, rfl⟩)
  rw [hown, List.countP_filterMap]
  -- The only scan of the batch whose conflict names this one as loser is this one.
  have hpred : ∀ s ∈ scans, (((((scanClaims scans t).registry s.codeHash).bind fun owner =>
      if s.toScan = owner then none else some (⟨s.codeHash, s.toScan, owner⟩ : ConflictRow)).map
        (lostBy scan)).getD false = true) ↔
      ((s == scan && decide ((scanClaims scans t).registry scan.codeHash ≠ some scan.toScan))
        = true) := by
    intro s hs
    rw [Bool.and_eq_true, beq_iff_eq, decide_eq_true_iff]
    cases hr : (scanClaims scans t).registry s.codeHash with
    | none =>
      simp only [Option.bind_none, Option.map_none, Option.getD_none, Bool.false_eq_true, false_iff]
      rintro ⟨rfl, -⟩
      exact hsome hr
    | some owner =>
      rw [Option.bind_some]
      by_cases ho : s.toScan = owner
      · rw [if_pos ho]
        simp only [Option.map_none, Option.getD_none, Bool.false_eq_true, false_iff]
        rintro ⟨rfl, hne⟩
        exact hne (hr.trans (by rw [ho]))
      · rw [if_neg ho, Option.map_some, Option.getD_some, lostBy_iff]
        constructor
        · rintro ⟨hc, ht⟩
          obtain rfl := hd.eq hs hscan hc (congrArg Scan.scannedAt ht)
          exact ⟨rfl, fun hreg => ho (Option.some.inj (hreg.symm.trans hr))⟩
        · rintro ⟨rfl, -⟩
          exact ⟨rfl, rfl⟩
  rw [List.countP_congr hpred]
  by_cases ho : (scanClaims scans t).registry scan.codeHash = some scan.toScan
  · simp [ho]
  · rw [if_neg ho]
    have hcount : scans.countP (fun s => s == scan && decide (¬ (scanClaims scans t).registry
        scan.codeHash = some scan.toScan)) = scans.count scan := by
      rw [List.count]
      refine List.countP_congr fun s _ => ?_
      simp [ho]
    rw [hcount]
    exact List.count_eq_one_of_mem hd.nodup hscan

/-- The incumbent that gave way loses in exactly one of the displacements. -/
theorem countP_displaced {scan : BatchScan} :
    (scanClaims scans t).displaced.countP (lostBy scan) =
      if t.codeRegistry scan.codeHash = some scan.toScan ∧
        (scanClaims scans t).registry scan.codeHash ≠ some scan.toScan then 1 else 0 := by
  split
  case isTrue hgave =>
    obtain ⟨hr, hne⟩ := hgave
    have hmem : ∃ x ∈ (scanClaims scans t).displaced, x.codeHash = scan.codeHash := by
      by_contra hno
      push Not at hno
      exact hne (registry_of_not_displaced hr fun x hx hc => absurd hc (hno x hx))
    have hcode : ∀ x ∈ (scanClaims scans t).displaced,
        lostBy scan x = true ↔ (x.codeHash == scan.codeHash) = true := by
      intro x hx
      rw [lostBy_iff, beq_iff_eq, and_iff_left_iff_imp]
      intro hc
      obtain ⟨c, -, hreg, -⟩ := mem_displaced.1 hx
      rw [hc, hr, Option.some.injEq] at hreg
      exact hreg.symm
    rw [List.countP_congr hcode]
    obtain ⟨x, hx, hc⟩ := hmem
    have hnodup : ((scanClaims scans t).displaced.map (·.codeHash)).Nodup := nodup_displaced
    have hone := List.count_eq_one_of_mem hnodup (List.mem_map.2 ⟨x, hx, hc⟩)
    rwa [List.count, List.countP_map] at hone
  case isFalse hkept =>
    rw [List.countP_eq_zero]
    intro x hx hl
    obtain ⟨hc, hlose⟩ := lostBy_iff.1 hl
    obtain ⟨c, hclaim, hreg, hlt, -⟩ := mem_displaced.1 hx
    rw [hc] at hclaim hreg
    rw [hlose] at hreg hlt
    refine hkept ⟨hreg, ?_⟩
    rw [show (scanClaims scans t).registry scan.codeHash = _ from claimCodes_registry_of_claim hclaim,
      hreg, settleClaim, if_pos hlt, ne_eq, Option.some.injEq]
    intro he
    rw [he] at hlt
    exact lt_irrefl _ hlt

/-! ## The invariant -/

theorem applyScans_conflicts : (applyScans srv now scans t).1.codeConflicts = t.codeConflicts ++
    ((scanClaims scans t).ownLosses ++ (scanClaims scans t).displaced).map fun c => ⟨c, now⟩ := rfl

theorem countP_applyScans (scan : BatchScan) :
    (applyScans srv now scans t).1.codeConflicts.countP (fun c => lostBy scan c.toConflictRow) =
      t.codeConflicts.countP (fun c => lostBy scan c.toConflictRow) +
        ((scanClaims scans t).ownLosses.countP (lostBy scan) +
          (scanClaims scans t).displaced.countP (lostBy scan)) := by
  rw [applyScans_conflicts, List.countP_append, List.countP_map, List.countP_append]
  rfl

theorem loser_of_mem {x : ConflictRow}
    (hx : x ∈ (scanClaims scans t).ownLosses ++ (scanClaims scans t).displaced) :
    (∃ scan ∈ scans, lostBy scan x = true) ∨ t.codeRegistry x.codeHash = some x.losing := by
  rcases List.mem_append.1 hx with hx | hx
  · left
    rw [show (scanClaims scans t).ownLosses = _ from claimCodes_ownLosses, List.filterMap_map,
      List.mem_filterMap] at hx
    obtain ⟨scan, hscan, hx⟩ := hx
    obtain ⟨owner, -, hx⟩ := Option.bind_eq_some_iff.1 hx
    split at hx
    · cases hx
    · cases hx
      exact ⟨scan, hscan, lostBy_iff.2 ⟨rfl, rfl⟩⟩
  · obtain ⟨c, -, hreg, -⟩ := mem_displaced.1 hx
    exact .inr hreg

theorem Settled.losses_append (hs : Settled known t) (hd : DistinctInstants (known ++ scans))
    {scan : BatchScan} (hscan : scan ∈ known ++ scans) :
    (applyScans srv now scans t).1.codeConflicts.countP (fun c => lostBy scan c.toConflictRow) =
      if (scanClaims scans t).registry scan.codeHash = some scan.toScan then 0 else 1 := by
  rw [countP_applyScans, countP_displaced]
  rcases List.mem_append.1 hscan with hmem | hmem
  · -- A known scan loses nothing to itself: the batch's own losers are other scans.
    have hzero : (scanClaims scans t).ownLosses.countP (lostBy scan) = 0 := by
      rw [List.countP_eq_zero]
      intro x hx hl
      rw [show (scanClaims scans t).ownLosses = _ from claimCodes_ownLosses, List.filterMap_map,
        List.mem_filterMap] at hx
      obtain ⟨s, hsm, hx⟩ := hx
      obtain ⟨owner, -, hx⟩ := Option.bind_eq_some_iff.1 hx
      split at hx
      · cases hx
      · cases hx
        obtain ⟨hc, hlose⟩ := lostBy_iff.1 hl
        exact hd.disjoint hmem hsm hc.symm (congrArg Scan.scannedAt hlose).symm
    rw [hzero, hs.losses scan hmem]
    by_cases hr : t.codeRegistry scan.codeHash = some scan.toScan
    · by_cases hr' : (scanClaims scans t).registry scan.codeHash = some scan.toScan <;> simp [hr, hr']
    · have hr' : (scanClaims scans t).registry scan.codeHash ≠ some scan.toScan := by
        intro hreg
        obtain ⟨e, he, hc, hscan'⟩ := (hs.registry_append hd _ _).1 hreg
        obtain rfl := hd.eq he.1 hscan hc (congrArg Scan.scannedAt hscan')
        exact hr ((hs.registry _ _).2
          ⟨e, ⟨hmem, fun x hx => he.2 x (List.mem_append_left _ hx)⟩, rfl, rfl⟩)
      simp [hr, hr']
  · have hzero : t.codeConflicts.countP (fun c => lostBy scan c.toConflictRow) = 0 := by
      rw [List.countP_eq_zero]
      intro c hc hl
      obtain ⟨s, hsm, hl'⟩ := hs.recorded c hc
      rw [lostBy_iff] at hl hl'
      exact hd.disjoint hsm hmem (hl'.1.symm.trans hl.1)
        (congrArg Scan.scannedAt (hl'.2.symm.trans hl.2))
    have hno : ¬ (t.codeRegistry scan.codeHash = some scan.toScan ∧
        (scanClaims scans t).registry scan.codeHash ≠ some scan.toScan) :=
      fun hr => (hs.fresh hd).unowned scan hmem hr.1
    rw [hzero, if_neg hno, countP_ownLosses (List.pairwise_append.1 hd).2.1 hmem]
    simp

/-- **A batch of new scans** takes the tables from what the known scans leave to what all of them
leave. -/
theorem Settled.append (hs : Settled known t) (hd : DistinctInstants (known ++ scans)) :
    Settled (known ++ scans) (applyScans srv now scans t).1 where
  sound := applyScans_sound hs.sound
  registry := by
    rw [(hs.fresh hd).registry]
    exact hs.registry_append hd
  live := hs.live_append hd
  rows box h row hrow := by
    rcases applyScans_row hrow with ⟨old, hold, hat⟩ | ⟨scan, hscan, hc, hk, hat⟩
    · obtain ⟨scan, hscan, hc, hk, hat'⟩ := hs.rows _ _ _ hold
      exact ⟨scan, List.mem_append_left _ hscan, hc, hk, hat'.trans hat⟩
    · exact ⟨scan, List.mem_append_right _ hscan, hc, hk, hat⟩
  intact box hbox := by
    rw [applyScans_boxes, openBoxes] at hbox
    rcases List.mem_append.1 hbox with hbox | hbox
    · exact hs.intact box hbox
    · obtain ⟨k, -, rfl⟩ := List.mem_map.1 hbox
      rfl
  losses scan hscan := by
    rw [(hs.fresh hd).registry]
    exact hs.losses_append hd hscan
  recorded c hc := by
    rw [applyScans_conflicts] at hc
    rcases List.mem_append.1 hc with hc | hc
    · obtain ⟨scan, hscan, hl⟩ := hs.recorded c hc
      exact ⟨scan, List.mem_append_left _ hscan, hl⟩
    · obtain ⟨x, hx, rfl⟩ := List.mem_map.1 hc
      rcases loser_of_mem hx with ⟨scan, hscan, hl⟩ | hreg
      · exact ⟨scan, List.mem_append_right _ hscan, hl⟩
      · obtain ⟨e, he, hcode, hscan⟩ := (hs.registry _ _).1 hreg
        exact ⟨e, List.mem_append_left _ he.1, lostBy_iff.2 ⟨hcode.symm, hscan.symm⟩⟩

theorem Settled.closures (hs : Settled scans t) (terminal : String) (closures : List BoxClosure) :
    Settled scans (applyClosures srv terminal closures t) := by
  rw [applyClosures]
  generalize sortClosures srv closures = sorted
  induction sorted generalizing t with
  | nil => exact hs
  | cons c sorted ih =>
    refine ih ⟨applyClosure_sound hs.sound c, hs.registry, hs.live, hs.rows, ?_, hs.losses,
      hs.recorded⟩
    intro box hbox
    obtain ⟨old, hold, rfl⟩ := List.mem_map.1 hbox
    split
    · exact hs.intact old hold
    · exact hs.intact old hold

/-! ## Deliveries -/

/-- Batches applied one after another: the tables when each ended, with what it was answered. -/
def deliver (srv : Server) : List (Call × StationBatch) → Tables →
    Except Refusal (List (Tables × BatchResponse))
  | [], _ => .ok []
  | (call, body) :: rest, t => do
    let answer ← applyBatch srv call body t
    let answers ← deliver srv rest answer.1
    .ok (answer :: answers)

def scansOf (sent : List (Call × StationBatch)) : List BatchScan :=
  sent.flatMap fun s => batchScans s.1.terminal s.2.items

def lostScans (t : Tables) (scans : List BatchScan) : List BatchConflict :=
  scans.filterMap fun scan => (t.codeRegistry scan.codeHash).bind fun owner =>
    if scan.toScan = owner then none else some ⟨scan.codeHash, owner.terminalId, owner.scannedAt⟩

variable {call : Call} {body : StationBatch}

theorem applyRecords_of_no_exceptions (hex : body.exceptions = []) :
    applyRecords srv call body t =
      (applyClosures srv call.terminal body.boxes
        (applyScans srv call.now (batchScans call.terminal body.items) t).1,
        (applyScans srv call.now (batchScans call.terminal body.items) t).2) := by
  rw [applyRecords_eq, applyExceptions, if_pos hex]

theorem applyClosures_frame {terminal : String} {closures : List BoxClosure} :
    (applyClosures srv terminal closures t).codeRegistry = t.codeRegistry ∧
      (applyClosures srv terminal closures t).syncBatches = t.syncBatches := by
  rw [applyClosures]
  generalize sortClosures srv closures = sorted
  induction sorted generalizing t with
  | nil => exact ⟨rfl, rfl⟩
  | cons c sorted ih => exact ih

theorem Settled.bind (hs : Settled scans t) (batchId : String) (row : ClaimedBatch) :
    Settled scans (bindBatch batchId row t) :=
  ⟨⟨hs.sound.unique, hs.sound.owned, hs.sound.standing, hs.sound.single⟩, hs.registry, hs.live,
    hs.rows, hs.intact, hs.losses, hs.recorded⟩

theorem Settled.response (hs : Settled known t) (hd : DistinctInstants (known ++ scans)) :
    (applyScans srv now scans t).2.map (·.1) = lostScans (applyScans srv now scans t).1 scans := by
  rw [lostScans, (hs.fresh hd).registry]
  change ((scanClaims scans t).ownLosses.map echo).map (·.1) = _
  rw [show (scanClaims scans t).ownLosses = _ from claimCodes_ownLosses, List.filterMap_map,
    List.map_map, List.map_filterMap]
  refine List.filterMap_congr fun scan _ => ?_
  simp only [Function.comp_apply, scanClaims]
  cases (claimCodes t.codeRegistry (scans.map (·.toClaimItem))).registry scan.codeHash with
  | none => rfl
  | some owner =>
    by_cases ho : scan.toScan = owner
    · simp [ho]
    · simp [ho, echo]

/-- **One batch of new scans**, as the service answers it. -/
theorem Settled.applyBatch (hs : Settled known t) (hnew : t.syncBatches body.batchId = none)
    (hadm : admitted call.access body = .ok body) (hexc : body.exceptions = [])
    (hd : DistinctInstants (known ++ batchScans call.terminal body.items)) :
    ∃ answer, applyBatch srv call body t = .ok answer ∧
      Settled (known ++ batchScans call.terminal body.items) answer.1 ∧
      answer.2.conflicts = lostScans answer.1 (batchScans call.terminal body.items) ∧
      ∀ id, id ≠ body.batchId → answer.1.syncBatches id = t.syncBatches id := by
  refine ⟨_, applyBatch_new hnew hadm, ?_, ?_, fun id hid => ?_⟩
  · rw [applyRecords_of_no_exceptions hexc]
    exact ((hs.append hd).closures _ _).bind _ _
  · rw [applyRecords_of_no_exceptions hexc]
    change (applyScans srv call.now _ t).2.map (·.1) = _
    rw [hs.response hd, lostScans, lostScans]
    rw [show (bindBatch _ _ (applyClosures srv call.terminal body.boxes _)).codeRegistry = _ from
      applyClosures_frame.1]
  · rw [applyRecords_of_no_exceptions hexc]
    change Function.update _ _ _ id = _
    rw [Function.update_of_ne hid, applyClosures_frame.2]
    rfl

theorem Settled.deliver {sent : List (Call × StationBatch)} (hs : Settled known t)
    (hnew : ∀ s ∈ sent, t.syncBatches s.2.batchId = none)
    (hids : (sent.map (·.2.batchId)).Nodup)
    (hadm : ∀ s ∈ sent, admitted s.1.access s.2 = .ok s.2)
    (hexc : ∀ s ∈ sent, s.2.exceptions = [])
    (hd : DistinctInstants (known ++ scansOf sent)) :
    ∃ answers, deliver srv sent t = .ok answers ∧
      Settled (known ++ scansOf sent) ((answers.getLast?.map (·.1)).getD t) ∧
      List.Forall₂ (fun s answer => answer.2.conflicts =
        lostScans answer.1 (batchScans s.1.terminal s.2.items)) sent answers := by
  induction sent generalizing known t with
  | nil => exact ⟨[], rfl, by simpa [scansOf] using hs, .nil⟩
  | cons s sent ih =>
    obtain ⟨call, body⟩ := s
    simp only [List.forall_mem_cons, List.map_cons, List.nodup_cons] at hnew hids hadm hexc
    rw [scansOf, List.flatMap_cons, ← List.append_assoc] at hd
    obtain ⟨answer, hans, hnext, hlost, hbound⟩ :=
      @Settled.applyBatch srv known t call body hs hnew.1 hadm.1 hexc.1
        (List.pairwise_append.1 hd).1
    have hnew' : ∀ s ∈ sent, answer.1.syncBatches s.2.batchId = none := by
      intro s hsm
      rw [hbound _ fun he => hids.1 (List.mem_map.2 ⟨s, hsm, he⟩)]
      exact hnew.2 s hsm
    obtain ⟨answers, hans', hset, hall⟩ := ih hnext hnew' hids.2 hadm.2 hexc.2 hd
    refine ⟨answer :: answers, ?_, ?_, .cons hlost hall⟩
    · rw [Cloud.deliver, hans, Results.ok_bind, hans']
      rfl
    · rw [scansOf, List.flatMap_cons, ← List.append_assoc]
      cases answers with
      | nil => exact hset
      | cons a answers => exact hset

theorem Settled.empty : Settled [] Tables.empty where
  sound := Tables.Sound.empty
  registry h owner := by simp [Tables.empty, EarliestOf]
  live box h addedAt := by simp [Tables.empty, liveAt, EarliestOf]
  rows box h row hrow := by cases hrow
  intact box hbox := by cases hbox
  losses scan hscan := by cases hscan
  recorded c hc := by cases hc

end

/-- **Cloud code ownership does not depend on batching and order.** However scans with different
instants for each code are cut into batches and the batches ordered: every code is owned by its
earliest scan, whose membership in its own box is the code's only live one, every other scan is the
loser of exactly one conflict row, and each response lists the batch's scans that are not the owner
when it ends. -/
theorem ownership_ignores_arrival (srv : Server) (sent : List (Call × StationBatch))
    (hids : (sent.map (·.2.batchId)).Nodup)
    (hadm : ∀ s ∈ sent, admitted s.1.access s.2 = .ok s.2)
    (hexc : ∀ s ∈ sent, s.2.exceptions = [])
    (hd : DistinctInstants (scansOf sent)) :
    ∃ answers t, deliver srv sent Tables.empty = .ok answers ∧
      t = (answers.getLast?.map (·.1)).getD Tables.empty ∧
      (∀ h owner, t.codeRegistry h = some owner ↔
        ∃ scan, EarliestOf (scansOf sent) scan ∧ scan.codeHash = h ∧ scan.toScan = owner) ∧
      (∀ box h addedAt,
        (∃ row, t.boxItems box h = some row ∧ row.live = true ∧ row.addedAt = addedAt) ↔
        ∃ scan, EarliestOf (scansOf sent) scan ∧ scan.codeHash = h ∧ scan.boxKey? = some box ∧
          scan.scannedAt = addedAt) ∧
      (∀ scan ∈ scansOf sent, ¬ EarliestOf (scansOf sent) scan →
        t.codeConflicts.countP (fun c => lostBy scan c.toConflictRow) = 1) ∧
      List.Forall₂ (fun s answer => answer.2.conflicts =
        lostScans answer.1 (batchScans s.1.terminal s.2.items)) sent answers := by
  obtain ⟨answers, hans, hset, hall⟩ :=
    @Settled.deliver srv [] Tables.empty sent Settled.empty (fun _ _ => rfl) hids hadm hexc hd
  rw [List.nil_append] at hset
  refine ⟨answers, _, hans, rfl, hset.registry, ?_, ?_, hall⟩
  · intro box h addedAt
    rw [← liveAt_eq_some]
    exact hset.live box h addedAt
  · intro scan hscan hne
    rw [hset.losses scan hscan, if_neg]
    intro hreg
    obtain ⟨e, he, hc, hscan'⟩ := (hset.registry _ _).1 hreg
    obtain rfl := hd.eq he.1 hscan hc (congrArg Scan.scannedAt hscan')
    exact hne he

namespace Sample

/-- Three batches of two devices: the second brings an earlier, unboxed scan of the first one's
code. -/
def sent : List (Call × StationBatch) :=
  [(⟨"d1", 0, .full fun _ => true⟩, ⟨"1", [⟨"s", some "c", 5, some "b1"⟩], [], []⟩),
    (⟨"d2", 1, .full fun _ => true⟩,
      ⟨"2", [⟨"s", some "c", 3, none⟩, ⟨"s", some "e", 4, some "b"⟩], [], []⟩),
    (⟨"d1", 2, .full fun _ => true⟩, ⟨"3", [⟨"s", some "c", 7, some "b1"⟩], [], []⟩)]

end Sample

theorem ownership_ignores_arrival_sample :
    DistinctInstants (scansOf Sample.sent) ∧
    ∃ answers t, deliver Sample.server Sample.sent Tables.empty = .ok answers ∧
      t = (answers.getLast?.map (·.1)).getD Tables.empty ∧
      t.codeRegistry "c" = some ⟨"s", some "d2", 3⟩ := by
  have hd : DistinctInstants (scansOf Sample.sent) := by
    unfold DistinctInstants
    decide +kernel
  have hadm : ∀ s ∈ Sample.sent, admitted s.1.access s.2 = .ok s.2 := by
    simp [Sample.sent, admitted]
  obtain ⟨answers, t, hans, ht, hreg, -⟩ :=
    ownership_ignores_arrival Sample.server Sample.sent (by decide) hadm (by decide) hd
  refine ⟨hd, answers, t, hans, ht, (hreg _ _).2 ⟨⟨⟨⟨"s", some "d2", 3⟩, "c"⟩, none⟩, ?_, rfl, rfl⟩⟩
  unfold EarliestOf
  decide +kernel

end Markiro.Cloud
