import Markiro.Cloud.Ownership
import Markiro.Lib.Table

/-!
# A box counts only what its own scan owns

The registry and the memberships are separate tables, and nothing in the schema ties a live
membership to the registry row that backs it. `Tables.Sound` is that tie. Each statement on
`box_items` either keeps the live rows, takes some out, or writes the rows of the batch's owners;
the proofs follow the live rows (`liveAt`) through the statements of a batch.
-/

namespace Markiro.Cloud

/-- The instant of a live membership. -/
def liveAt (items : BoxKey → String → Option BoxItem) (box : BoxKey) (h : String) : Option ℤ :=
  (items box h).bind fun row => if row.live then some row.addedAt else none

/-- Every live membership is its code's only one, stands in a box not taken apart, and is backed by
the registry row of its own scan. -/
structure Tables.Sound (t : Tables) : Prop where
  unique : Table.Unique (·.key) t.boxes
  owned : ∀ {box h addedAt}, liveAt t.boxItems box h = some addedAt →
    t.codeRegistry h = some ⟨box.shiftId, box.terminalId, addedAt⟩
  standing : ∀ {box h addedAt}, liveAt t.boxItems box h = some addedAt →
    ∃ row, boxAt t.boxes box = some row ∧ row.disassembledAt = none
  single : ∀ {box box' h addedAt addedAt'}, liveAt t.boxItems box h = some addedAt →
    liveAt t.boxItems box' h = some addedAt' → box = box'

/-! ## The statements on `box_items` -/

section Statements

variable {now : ℤ} {p : BoxKey → String → ℤ → Bool} {rows : List MembershipRow}
variable {items : BoxKey → String → Option BoxItem} {box : BoxKey} {h : String} {addedAt : ℤ}

theorem liveAt_eq_some : liveAt items box h = some addedAt ↔
    ∃ row, items box h = some row ∧ row.live = true ∧ row.addedAt = addedAt := by
  rw [liveAt]
  cases items box h with
  | none => simp
  | some row => by_cases hl : row.live = true <;> simp [hl]

theorem liveAt_mark {f : BoxItem → BoxItem} (hf : ∀ row, (f row).live = false) :
    liveAt (fun box h => (items box h).map fun row =>
      if row.live && p box h row.addedAt then f row else row) box h =
    (liveAt items box h).filter fun addedAt => !p box h addedAt := by
  rw [liveAt, liveAt]
  cases items box h with
  | none => rfl
  | some row =>
    by_cases hl : row.live = true
    · by_cases hp : p box h row.addedAt = true
      · simp [hl, hp, hf, Option.filter_some]
      · simp [hl, hp, Option.filter_some]
    · simp [hl]

theorem liveAt_displaceWhere : liveAt (displaceWhere now p items) box h =
    (liveAt items box h).filter fun addedAt => !p box h addedAt :=
  liveAt_mark (f := fun row => { row with displacedAt := some now }) fun row => by
    simp [BoxItem.live]

theorem liveAt_removeWhere : liveAt (removeWhere now p items) box h =
    (liveAt items box h).filter fun addedAt => !p box h addedAt :=
  liveAt_mark (f := fun row => { row with removedAt := some now }) fun row => by
    simp [BoxItem.live]

theorem liveAt_displaceWhere_eq_some : liveAt (displaceWhere now p items) box h = some addedAt ↔
    liveAt items box h = some addedAt ∧ p box h addedAt = false := by
  rw [liveAt_displaceWhere, Option.filter_eq_some_iff]
  simp

theorem liveAt_removeWhere_eq_some : liveAt (removeWhere now p items) box h = some addedAt ↔
    liveAt items box h = some addedAt ∧ p box h addedAt = false := by
  rw [liveAt_removeWhere, Option.filter_eq_some_iff]
  simp

@[simp] theorem liveAt_insertFresh :
    liveAt (insertFreshDisplacedMemberships now rows items) box h = liveAt items box h := by
  rw [liveAt, insertFreshDisplacedMemberships, liveAt]
  cases items box h with
  | some row => rfl
  | none => cases rowOf rows box h <;> simp [BoxItem.live]

theorem rowOf_eq_some {row : MembershipRow} (hr : rowOf rows box h = some row) :
    row ∈ rows ∧ row.box = box ∧ row.codeHash = h := by
  have hm := List.mem_of_getLast? hr
  simpa using hm

theorem rowOf_eq_none :
    rowOf rows box h = none ↔ ∀ row ∈ rows, row.box = box → row.codeHash ≠ h := by
  rw [rowOf, List.getLast?_eq_none_iff, List.filter_eq_nil_iff]
  simp

theorem liveAt_upsert (hl : liveAt (upsertMemberships rows items) box h = some addedAt) :
    liveAt items box h = some addedAt ∨
      ∃ row, rowOf rows box h = some row ∧ row.addedAt = addedAt := by
  rw [liveAt, upsertMemberships] at hl
  cases hr : rowOf rows box h with
  | none =>
    rw [hr] at hl
    exact .inl hl
  | some row =>
    rw [hr] at hl
    cases hi : items box h with
    | none =>
      simp only [hi, Option.bind_some] at hl
      exact .inr ⟨row, rfl, by simpa [BoxItem.live] using hl⟩
    | some old =>
      by_cases ha : row.addedAt ≠ old.addedAt
      · simp only [hi, if_pos ha, Option.bind_some] at hl
        exact .inr ⟨row, rfl, by simpa [BoxItem.live] using hl⟩
      · simp only [hi, if_neg ha, Option.bind_some] at hl
        left
        rw [liveAt, hi]
        exact hl

theorem liveAt_displaceAll {α : Type} (q : α → BoxKey → String → ℤ → Bool) (xs : List α)
    (items : BoxKey → String → Option BoxItem) :
    liveAt (xs.foldl (fun items x => displaceWhere now (q x) items) items) box h = some addedAt ↔
      liveAt items box h = some addedAt ∧ ∀ x ∈ xs, q x box h addedAt = false := by
  induction xs generalizing items with
  | nil => simp
  | cons x xs ih =>
    rw [List.foldl_cons, ih, liveAt_displaceWhere_eq_some, List.forall_mem_cons, and_assoc]

/-! The instants of the rows, live or not. -/

theorem displaceWhere_row {row : BoxItem} (hr : displaceWhere now p items box h = some row) :
    ∃ old, items box h = some old ∧ old.addedAt = row.addedAt := by
  obtain ⟨old, hold, rfl⟩ := Option.map_eq_some_iff.1 hr
  refine ⟨old, hold, ?_⟩
  split <;> rfl

theorem displaceAll_row {α : Type} (q : α → BoxKey → String → ℤ → Bool) (xs : List α)
    (items : BoxKey → String → Option BoxItem) {row : BoxItem}
    (hr : xs.foldl (fun items x => displaceWhere now (q x) items) items box h = some row) :
    ∃ old, items box h = some old ∧ old.addedAt = row.addedAt := by
  induction xs generalizing items with
  | nil => exact ⟨row, hr, rfl⟩
  | cons x xs ih =>
    obtain ⟨mid, hmid, hat⟩ := ih _ hr
    obtain ⟨old, hold, hat'⟩ := displaceWhere_row hmid
    exact ⟨old, hold, hat'.trans hat⟩

theorem insertFresh_row {row : BoxItem}
    (hr : insertFreshDisplacedMemberships now rows items box h = some row) :
    (∃ old, items box h = some old ∧ old.addedAt = row.addedAt) ∨
      ∃ r, rowOf rows box h = some r ∧ r.addedAt = row.addedAt := by
  rw [insertFreshDisplacedMemberships] at hr
  cases hi : items box h with
  | some old =>
    rw [hi] at hr
    exact .inl ⟨old, rfl, congrArg BoxItem.addedAt (Option.some.inj hr)⟩
  | none =>
    rw [hi] at hr
    obtain ⟨r, hrow, rfl⟩ := Option.map_eq_some_iff.1 hr
    exact .inr ⟨r, hrow, rfl⟩

theorem upsertMemberships_row {row : BoxItem} (hr : upsertMemberships rows items box h = some row) :
    (∃ old, items box h = some old ∧ old.addedAt = row.addedAt) ∨
      ∃ r, rowOf rows box h = some r ∧ r.addedAt = row.addedAt := by
  rw [upsertMemberships] at hr
  cases hrow : rowOf rows box h with
  | none =>
    rw [hrow] at hr
    exact .inl ⟨row, hr, rfl⟩
  | some r =>
    rw [hrow] at hr
    cases hi : items box h with
    | none =>
      rw [hi] at hr
      exact .inr ⟨r, rfl, congrArg BoxItem.addedAt (Option.some.inj hr)⟩
    | some old =>
      simp only [hi] at hr
      split at hr
      · exact .inr ⟨r, rfl, congrArg BoxItem.addedAt (Option.some.inj hr)⟩
      · exact .inl ⟨old, rfl, congrArg BoxItem.addedAt (Option.some.inj hr)⟩

end Statements

/-! ## The boxes of a batch -/

section Boxes

variable {srv : Server} {boxes : List BoxRow} {scans : List BatchScan} {key : BoxKey} {box : BoxRow}

theorem boxAt_mem (hb : boxAt boxes key = some box) : box ∈ boxes ∧ box.key = key :=
  ⟨List.mem_of_find?_eq_some hb, by simpa using List.find?_some hb⟩

theorem boxAt_eq_none : boxAt boxes key = none ↔ ∀ box ∈ boxes, box.key ≠ key := by
  rw [boxAt, List.find?_eq_none]
  simp

theorem openBoxes_unique (hu : Table.Unique (·.key) boxes) :
    Table.Unique (·.key) (openBoxes srv scans boxes) := by
  rw [Table.Unique, openBoxes, List.map_append, List.map_map, List.nodup_append]
  refine ⟨hu, ?_, ?_⟩
  · rw [show ((fun box : BoxRow => box.key) ∘ fun k => (⟨k, none, none⟩ : BoxRow)) = id from rfl,
      List.map_id]
    exact ((List.perm_insertionSort _ _).nodup_iff.2 (List.nodup_dedup _)).filter _
  · rintro a ha b hb
    obtain ⟨row, hrow, rfl⟩ := List.mem_map.1 ha
    obtain ⟨k, hk, rfl⟩ := List.mem_map.1 hb
    have hno := (List.mem_filter.1 hk).2
    rw [Bool.not_eq_true', List.any_eq_false] at hno
    simpa using hno row hrow

theorem boxAt_openBoxes_of_some (hb : boxAt boxes key = some box) :
    boxAt (openBoxes srv scans boxes) key = some box := by
  rw [boxAt, openBoxes, List.find?_append]
  rw [boxAt] at hb
  rw [hb]
  rfl

/-- A box first named by this batch gets an open row. -/
theorem boxAt_openBoxes_of_none (hb : boxAt boxes key = none) :
    boxAt (openBoxes srv scans boxes) key =
      if ∃ scan ∈ scans, scan.boxKey? = some key then some ⟨key, none, none⟩ else none := by
  rw [boxAt, openBoxes, List.find?_append]
  have hno := boxAt_eq_none.1 hb
  rw [boxAt] at hb
  rw [hb, Option.none_or]
  split
  case isTrue hs =>
    obtain ⟨scan, hscan, hk⟩ := hs
    rw [List.find?_map]
    have : ((List.filter (fun k => !boxes.any fun x => x.key == k)
        ((List.filterMap (fun x => x.boxKey?) scans).dedup.insertionSort fun a b =>
          srv.localeCompare a.deviceBoxId b.deviceBoxId ≠ Ordering.gt)).find?
        ((fun x : BoxRow => x.key == key) ∘ fun k => ⟨k, none, none⟩)) = some key := by
      cases hf : List.find? ((fun x : BoxRow => x.key == key) ∘ fun k => ⟨k, none, none⟩)
          (List.filter (fun k => !boxes.any fun x => x.key == k)
            ((List.filterMap (fun x => x.boxKey?) scans).dedup.insertionSort fun a b =>
              srv.localeCompare a.deviceBoxId b.deviceBoxId ≠ Ordering.gt)) with
      | some k => simpa using List.find?_some hf
      | none =>
        refine absurd (List.find?_eq_none.1 hf key (List.mem_filter.2 ⟨?_, ?_⟩)) (by simp)
        · rw [List.mem_insertionSort, List.mem_dedup, List.mem_filterMap]
          exact ⟨scan, hscan, hk⟩
        · rw [Bool.not_eq_true', List.any_eq_false]
          simpa using hno
    rw [this]
    rfl
  case isFalse hs =>
    rw [List.find?_eq_none]
    intro row hrow
    obtain ⟨k, hk, rfl⟩ := List.mem_map.1 hrow
    have hk := (List.mem_filter.1 hk).1
    rw [List.mem_insertionSort, List.mem_dedup, List.mem_filterMap] at hk
    obtain ⟨scan, hscan, hsk⟩ := hk
    rw [Bool.not_eq_true, beq_eq_false_iff_ne]
    rintro rfl
    exact hs ⟨scan, hscan, hsk⟩

theorem boxAt_openBoxes_scan {scan : BatchScan} (hscan : scan ∈ scans)
    (hk : scan.boxKey? = some key) : ∃ box, boxAt (openBoxes srv scans boxes) key = some box := by
  cases hb : boxAt boxes key with
  | some box => exact ⟨box, boxAt_openBoxes_of_some hb⟩
  | none =>
    rw [boxAt_openBoxes_of_none hb, if_pos ⟨scan, hscan, hk⟩]
    exact ⟨_, rfl⟩

end Boxes

/-! ## The rows of a batch's scans -/

section Rows

variable {srv : Server} {now : ℤ} {boxes : List BoxRow} {scans : List BatchScan}
variable {ownerByHash : String → Option Scan} {items : BoxKey → String → Option BoxItem}
variable {rows : List MembershipRow} {row : MembershipRow} {box : BoxKey} {h : String} {addedAt : ℤ}

theorem BatchScan.boxKey?_eq_some {scan : BatchScan} :
    scan.boxKey? = some box ↔
      scan.boxId = some box.deviceBoxId ∧ scan.shiftId = box.shiftId ∧
        scan.terminalId = box.terminalId := by
  rw [BatchScan.boxKey?]
  cases box
  cases scan.boxId with
  | none => simp
  | some b =>
    simp only [Option.map_some, Option.some.injEq, BoxKey.mk.injEq]
    tauto

theorem mem_membershipRows : row ∈ membershipRows boxes ownerByHash scans ↔
    ∃ scan ∈ scans, scan.boxKey? = some row.box ∧ retiredBox boxes row.box = false ∧
      scan.codeHash = row.codeHash ∧ scan.scannedAt = row.addedAt ∧
      (ownerByHash scan.codeHash).any (sameScan scan.toScan) = row.ownerIsThisScan := by
  rw [membershipRows, List.mem_filterMap]
  refine exists_congr fun scan => and_congr_right fun _ => ?_
  cases scan.boxKey? with
  | none => simp
  | some key =>
    cases row
    by_cases hr : retiredBox boxes key = true
    · simp only [hr, if_true, Option.some.injEq, reduceCtorEq, false_iff]
      rintro ⟨rfl, hf, -⟩
      rw [hr] at hf
      cases hf
    · simp only [hr, Option.some.injEq]
      constructor
      · rintro ⟨rfl, rfl, rfl, rfl⟩
        exact ⟨rfl, by simpa using hr, rfl, rfl, rfl⟩
      · rintro ⟨rfl, -, rfl, rfl, rfl⟩
        simp

theorem owner_row (hr : row ∈ membershipRows boxes ownerByHash scans)
    (ho : row.ownerIsThisScan = true) :
    ownerByHash row.codeHash = some ⟨row.box.shiftId, row.box.terminalId, row.addedAt⟩ := by
  obtain ⟨scan, -, hk, -, hc, ht, hany⟩ := mem_membershipRows.1 hr
  obtain ⟨-, hs, hterm⟩ := BatchScan.boxKey?_eq_some.1 hk
  rw [ho, hc] at hany
  obtain ⟨owner, howner, hsame⟩ := (Option.any_eq_true _ _).1 hany
  rw [howner, ← sameScan_iff.1 hsame]
  cases hscan : scan.toScan
  rw [hscan] at hs hterm ht
  cases hs
  cases hterm
  cases ht
  rfl

theorem mem_oneOwnerBox (hr : row ∈ oneOwnerBox srv rows) (ho : row.ownerIsThisScan = true) :
    row ∈ rows := by
  obtain ⟨⟨b, c, a, o⟩, hold, rfl⟩ := List.mem_map.1 hr
  simp only [Bool.and_eq_true] at ho
  obtain ⟨rfl, hfirst⟩ := ho
  simpa [hfirst] using hold

theorem mem_sortBoxItems : row ∈ sortBoxItems srv rows ↔ row ∈ rows := List.mem_insertionSort _

theorem liveAt_writeMemberships
    (hl : liveAt (writeMemberships srv now rows items) box h = some addedAt) :
    liveAt items box h = some addedAt ∨
      ∃ row ∈ rows, row.ownerIsThisScan = true ∧ row.box = box ∧ row.codeHash = h ∧
        row.addedAt = addedAt := by
  rw [writeMemberships] at hl
  have hl := (liveAt_displaceWhere_eq_some.1 hl).1
  rw [liveAt_insertFresh] at hl
  rcases liveAt_upsert hl with hl | ⟨row, hrow, hat⟩
  · exact .inl hl
  · obtain ⟨hmem, hbox, hcode⟩ := rowOf_eq_some hrow
    obtain ⟨hmem, ho⟩ := List.mem_filter.1 hmem
    exact .inr ⟨row, mem_oneOwnerBox (mem_sortBoxItems.1 hmem) ho, ho, hbox, hcode, hat⟩

theorem liveAt_displaceIncumbents {displaced : List ConflictRow} :
    liveAt (displaceIncumbents srv now displaced items) box h = some addedAt ↔
      liveAt items box h = some addedAt ∧ ∀ x ∈ displaced, x.codeHash = h →
        x.losing ≠ ⟨box.shiftId, box.terminalId, addedAt⟩ := by
  rw [displaceIncumbents, liveAt_displaceAll]
  refine and_congr_right fun _ => ?_
  simp only [List.mem_insertionSort]
  refine forall₂_congr fun x _ => ?_
  obtain ⟨c, ⟨s, t, a⟩, w⟩ := x
  simp only [Bool.and_eq_false_iff, beq_eq_false_iff_ne, ne_eq, Scan.mk.injEq]
  constructor
  · rintro hx rfl ⟨rfl, rfl, rfl⟩
    simp at hx
  · intro hx
    by_contra hn
    push Not at hn
    exact hx hn.1.1.1.symm ⟨hn.1.2.symm, hn.2.symm, hn.1.1.2.symm⟩

theorem mem_activeOwnerMemberships {hashes : List String} {a : ActiveMembership} :
    a ∈ activeOwnerMemberships srv boxes hashes ownerByHash items ↔
      a.codeHash ∈ hashes ∧ (∃ row ∈ boxes, row.key = a.box ∧ row.disassembledAt = none) ∧
        liveAt items a.box a.codeHash = some a.addedAt ∧ ownerByHash a.codeHash = some a.scan := by
  rw [activeOwnerMemberships, List.mem_filter, List.mem_flatMap]
  have howner : (ownerByHash a.codeHash).any (sameScan a.scan) = true ↔
      ownerByHash a.codeHash = some a.scan := by
    cases ownerByHash a.codeHash with
    | none => simp
    | some owner => simpa using eq_comm
  rw [howner, ← and_assoc, ← and_assoc]
  refine and_congr_left fun _ => ?_
  constructor
  · rintro ⟨hash, hhash, ha⟩
    obtain ⟨row, hrow, hsome⟩ := List.mem_filterMap.1 ha
    rw [List.mem_insertionSort, List.mem_filter] at hrow
    cases hi : items row.key hash with
    | none => rw [hi] at hsome; cases hsome
    | some item =>
      rw [hi] at hsome
      by_cases hlive : item.live = true
      · simp only [hlive, if_true, Option.some.injEq] at hsome
        subst hsome
        exact ⟨⟨hhash, row, hrow.1, rfl, by simpa using hrow.2⟩,
          liveAt_eq_some.2 ⟨item, hi, hlive, rfl⟩⟩
      · simp [hlive] at hsome
  · rintro ⟨⟨hhash, row, hrow, hkey, hdis⟩, hlive⟩
    obtain ⟨item, hi, hil, hat⟩ := liveAt_eq_some.1 hlive
    refine ⟨a.codeHash, hhash, List.mem_filterMap.2 ⟨row, ?_, ?_⟩⟩
    · rw [List.mem_insertionSort, List.mem_filter]
      exact ⟨hrow, by simp [hdis]⟩
    · rw [hkey, hi]
      simp only [hil, if_true]
      rw [hat]

theorem not_duplicate {active : List ActiveMembership} {a : ActiveMembership} (ha : a ∈ active)
    (hd : a ∉ duplicateMemberships active) :
    (active.find? (·.codeHash == a.codeHash)).map (·.box) = some a.box := by
  rw [duplicateMemberships, List.mem_filter] at hd
  cases hf : active.find? (·.codeHash == a.codeHash) with
  | none => exact absurd (List.find?_eq_none.1 hf a ha) (by simp)
  | some first =>
    rw [hf] at hd
    by_contra hne
    refine hd ⟨ha, ?_⟩
    simp only [Option.map_some, Option.some.injEq] at hne
    simpa using hne

end Rows

/-! ## The registry of retired scans -/

section Release

variable {registry : String → Option Scan} {h : String} {scan : Scan}

theorem releaseCode_eq_some {codeHash : String} {at' : Scan} :
    releaseCode codeHash at' registry h = some scan ↔
      registry h = some scan ∧ ¬ (h = codeHash ∧ scan = at') := by
  rw [releaseCode]
  split
  case isTrue hc =>
    rw [hc.2]
    simp only [Option.some.injEq, reduceCtorEq, false_iff]
    rintro ⟨rfl, hn⟩
    exact hn ⟨hc.1, rfl⟩
  case isFalse hc =>
    constructor
    · intro hs
      refine ⟨hs, ?_⟩
      rintro ⟨rfl, rfl⟩
      exact hc ⟨rfl, hs⟩
    · exact And.left

/-- A code keeps its owner unless a retired scan, held by no live row, is that owner. -/
theorem releaseRetired_eq_some {active : List ActiveMembership} {retired : List BatchScan} :
    releaseRetired active retired registry h = some scan ↔
      registry h = some scan ∧ ∀ r ∈ retired, r.codeHash = h → r.toScan = scan →
        ∃ a ∈ active, a.codeHash = h ∧ a.scan = scan := by
  rw [releaseRetired]
  induction retired generalizing registry with
  | nil => simp
  | cons r retired ih =>
    rw [List.foldl_cons, ih, List.forall_mem_cons]
    split
    case isTrue hact =>
      obtain ⟨a, ha, hsame⟩ := List.any_eq_true.1 hact
      rw [Bool.and_eq_true, beq_iff_eq, sameScan_iff] at hsame
      refine and_congr_right fun _ => (and_iff_right ?_).symm
      rintro rfl rfl
      exact ⟨a, ha, hsame⟩
    case isFalse hact =>
      rw [releaseCode_eq_some, and_assoc]
      refine and_congr_right fun _ => and_congr_left fun _ => ?_
      constructor
      · rintro hn rfl rfl
        exact absurd ⟨rfl, rfl⟩ hn
      · rintro hex ⟨rfl, rfl⟩
        obtain ⟨a, ha, hcode, hscan⟩ := hex rfl rfl
        exact hact (List.any_eq_true.2 ⟨a, ha, by simp [hcode, hscan]⟩)

end Release

/-! ## The scans of a batch keep the tie -/

section Scans

variable {srv : Server} {now : ℤ} {scans : List BatchScan} {t : Tables}
variable {box : BoxKey} {h : String} {addedAt : ℤ}

/-- The ownership part of a batch of scans. -/
def scanClaims (scans : List BatchScan) (t : Tables) : Claimed :=
  claimCodes t.codeRegistry (scans.map (·.toClaimItem))

def scanRows (srv : Server) (scans : List BatchScan) (t : Tables) : List MembershipRow :=
  membershipRows (openBoxes srv scans t.boxes) (scanClaims scans t).ownerByHash scans

/-- The memberships before the duplicates of one exact scan are looked for. -/
def scanItems (srv : Server) (now : ℤ) (scans : List BatchScan) (t : Tables) :
    BoxKey → String → Option BoxItem :=
  displaceIncumbents srv now (scanClaims scans t).displaced
    (writeMemberships srv now (scanRows srv scans t) t.boxItems)

def scanActive (srv : Server) (now : ℤ) (scans : List BatchScan) (t : Tables) :
    List ActiveMembership :=
  activeOwnerMemberships srv (openBoxes srv scans t.boxes) (scanClaims scans t).hashes
    (scanClaims scans t).ownerByHash (scanItems srv now scans t)

theorem applyScans_boxes : (applyScans srv now scans t).1.boxes = openBoxes srv scans t.boxes := rfl

theorem applyScans_registry : (applyScans srv now scans t).1.codeRegistry =
    releaseRetired (scanActive srv now scans t)
      (retiredBoxScans (openBoxes srv scans t.boxes) scans) (scanClaims scans t).registry := rfl

theorem applyScans_boxItems : (applyScans srv now scans t).1.boxItems =
    displaceWhere now (fun box h addedAt =>
      (duplicateMemberships (scanActive srv now scans t)).any fun d =>
        d.box == box && d.codeHash == h && d.addedAt == addedAt) (scanItems srv now scans t) := rfl

theorem liveAt_applyScans :
    liveAt (applyScans srv now scans t).1.boxItems box h = some addedAt ↔
      liveAt (scanItems srv now scans t) box h = some addedAt ∧
        ⟨box, h, addedAt⟩ ∉ duplicateMemberships (scanActive srv now scans t) := by
  rw [applyScans_boxItems, liveAt_displaceWhere_eq_some]
  refine and_congr_right fun _ => ?_
  rw [List.any_eq_false]
  constructor
  · intro hd hmem
    exact hd _ hmem (by simp)
  · rintro hd ⟨b, c, a⟩ hmem hall
    simp only [Bool.and_eq_true, beq_iff_eq] at hall
    obtain ⟨⟨rfl, rfl⟩, rfl⟩ := hall
    exact hd hmem

theorem liveAt_scanItems (hl : liveAt (scanItems srv now scans t) box h = some addedAt) :
    (liveAt t.boxItems box h = some addedAt ∨
      ∃ row ∈ scanRows srv scans t, row.ownerIsThisScan = true ∧ row.box = box ∧
        row.codeHash = h ∧ row.addedAt = addedAt) ∧
    ∀ x ∈ (scanClaims scans t).displaced, x.codeHash = h →
      x.losing ≠ ⟨box.shiftId, box.terminalId, addedAt⟩ := by
  obtain ⟨hl, hx⟩ := liveAt_displaceIncumbents.1 hl
  exact ⟨liveAt_writeMemberships hl, hx⟩

theorem mem_hashes_of_row {row : MembershipRow} (hr : row ∈ scanRows srv scans t) :
    row.codeHash ∈ claimHashes (scans.map (·.toClaimItem)) := by
  obtain ⟨scan, hscan, -, -, hc, -⟩ := mem_membershipRows.1 hr
  exact mem_claimHashes.2 ⟨scan.toClaimItem, List.mem_map_of_mem hscan, hc⟩

theorem registry_of_not_displaced {owner : Scan} (hr : t.codeRegistry h = some owner)
    (hx : ∀ x ∈ (scanClaims scans t).displaced, x.codeHash = h → x.losing ≠ owner) :
    (scanClaims scans t).registry h = some owner := by
  rw [scanClaims] at hx ⊢
  by_cases hh : h ∈ claimHashes (scans.map (·.toClaimItem))
  · obtain ⟨c, hc⟩ := exists_claim hh
    rw [claimCodes_registry_of_claim hc, hr, settleClaim]
    by_cases hlt : c.scannedAt < owner.scannedAt
    · exact absurd rfl (hx ⟨h, owner, c.toScan⟩ (mem_displaced.2 ⟨c, hc, hr, hlt, rfl⟩) rfl)
    · rw [if_neg hlt]
  · rw [claimCodes_registry_of_not hh, hr]

theorem scanClaims_le {owner : Scan}
    (ho : (scanClaims scans t).registry h = some owner) :
    (∀ row ∈ t.codeRegistry h, owner.scannedAt ≤ row.scannedAt) ∧
      ∀ scan ∈ scans, scan.codeHash = h → owner.scannedAt ≤ scan.scannedAt := by
  rw [scanClaims] at ho
  by_cases hh : h ∈ claimHashes (scans.map (·.toClaimItem))
  · obtain ⟨c, hc⟩ := exists_claim hh
    rw [claimCodes_registry_of_claim hc, Option.some.injEq] at ho
    subst ho
    obtain ⟨hle, hrow⟩ := settleClaim_le (t.codeRegistry h) c.toScan
    exact ⟨hrow, fun scan hscan hcode =>
      hle.trans (claimsByHash_le hc (List.mem_map_of_mem hscan) hcode)⟩
  · rw [claimCodes_registry_of_not hh] at ho
    refine ⟨fun row hrow => ?_, fun scan hscan hcode => ?_⟩
    · rw [Option.mem_def.1 hrow, Option.some.injEq] at ho
      rw [ho]
    · exact absurd (mem_claimHashes.2 ⟨scan.toClaimItem, List.mem_map_of_mem hscan, hcode⟩) hh

theorem scanClaims_mem {owner : Scan} (ho : (scanClaims scans t).registry h = some owner) :
    (∃ scan ∈ scans, scan.codeHash = h ∧ scan.toScan = owner) ∨ t.codeRegistry h = some owner := by
  rw [scanClaims] at ho
  by_cases hh : h ∈ claimHashes (scans.map (·.toClaimItem))
  · obtain ⟨c, hc⟩ := exists_claim hh
    obtain ⟨hmem, hcode⟩ := claimsByHash_mem hc
    obtain ⟨scan, hscan, rfl⟩ := List.mem_map.1 hmem
    rw [claimCodes_registry_of_claim hc, Option.some.injEq] at ho
    subst ho
    cases hr : t.codeRegistry h with
    | none => exact .inl ⟨scan, hscan, hcode, rfl⟩
    | some row =>
      rw [settleClaim]
      split
      · exact .inl ⟨scan, hscan, hcode, rfl⟩
      · exact .inr rfl
  · rw [claimCodes_registry_of_not hh] at ho
    exact .inr ho

theorem scanClaims_ne_none
    (hex : (∃ scan ∈ scans, scan.codeHash = h) ∨ t.codeRegistry h ≠ none) :
    (scanClaims scans t).registry h ≠ none := by
  rw [scanClaims]
  by_cases hh : h ∈ claimHashes (scans.map (·.toClaimItem))
  · obtain ⟨c, hc⟩ := exists_claim hh
    rw [claimCodes_registry_of_claim hc]
    exact Option.some_ne_none _
  · rw [claimCodes_registry_of_not hh]
    refine hex.resolve_left ?_
    rintro ⟨scan, hscan, hcode⟩
    exact hh (mem_claimHashes.2 ⟨scan.toClaimItem, List.mem_map_of_mem hscan, hcode⟩)

theorem scanItems_owned (ht : t.Sound)
    (hl : liveAt (scanItems srv now scans t) box h = some addedAt) :
    (scanClaims scans t).registry h = some ⟨box.shiftId, box.terminalId, addedAt⟩ := by
  obtain ⟨hl | ⟨row, hrow, ho, rfl, rfl, rfl⟩, hx⟩ := liveAt_scanItems hl
  · exact registry_of_not_displaced (ht.owned hl) hx
  · rw [← owner_row hrow ho]
    exact (claimCodes_ownerByHash (mem_hashes_of_row hrow)).symm

theorem scanItems_standing (ht : t.Sound)
    (hl : liveAt (scanItems srv now scans t) box h = some addedAt) :
    ∃ row, boxAt (openBoxes srv scans t.boxes) box = some row ∧ row.disassembledAt = none := by
  obtain ⟨hl | ⟨row, hrow, -, rfl, -, -⟩, -⟩ := liveAt_scanItems hl
  · obtain ⟨row, hb, hd⟩ := ht.standing hl
    exact ⟨row, boxAt_openBoxes_of_some hb, hd⟩
  · obtain ⟨scan, hscan, hk, hret, -⟩ := mem_membershipRows.1 hrow
    obtain ⟨b, hb⟩ := boxAt_openBoxes_scan hscan hk
    refine ⟨b, hb, ?_⟩
    rw [retiredBox, hb] at hret
    simpa using hret

theorem mem_scanActive (ht : t.Sound) (hh : h ∈ claimHashes (scans.map (·.toClaimItem)))
    (hl : liveAt (scanItems srv now scans t) box h = some addedAt) :
    ⟨box, h, addedAt⟩ ∈ scanActive srv now scans t := by
  obtain ⟨row, hb, hd⟩ := scanItems_standing ht hl
  refine mem_activeOwnerMemberships.2 ⟨hh, ⟨row, (boxAt_mem hb).1, (boxAt_mem hb).2, hd⟩, hl, ?_⟩
  rw [show (scanClaims scans t).ownerByHash h = _ from claimCodes_ownerByHash hh]
  exact scanItems_owned ht hl

theorem liveAt_of_not_mem (hh : h ∉ claimHashes (scans.map (·.toClaimItem)))
    (hl : liveAt (scanItems srv now scans t) box h = some addedAt) :
    liveAt t.boxItems box h = some addedAt := by
  obtain ⟨hl | ⟨row, hrow, -, -, rfl, -⟩, -⟩ := liveAt_scanItems hl
  · exact hl
  · exact absurd (mem_hashes_of_row hrow) hh

theorem applyScans_sound (ht : t.Sound) : (applyScans srv now scans t).1.Sound where
  unique := openBoxes_unique ht.unique
  owned {box h addedAt} hl := by
    have hl := (liveAt_applyScans.1 hl).1
    rw [applyScans_registry, releaseRetired_eq_some]
    refine ⟨scanItems_owned ht hl, fun r hr hcode _ => ?_⟩
    have hh : h ∈ claimHashes (scans.map (·.toClaimItem)) :=
      mem_claimHashes.2 ⟨r.toClaimItem, List.mem_map_of_mem (List.mem_filter.1 hr).1, hcode⟩
    exact ⟨_, mem_scanActive ht hh hl, rfl, rfl⟩
  standing hl := scanItems_standing ht (liveAt_applyScans.1 hl).1
  single {box box' h a a'} hl hl' := by
    obtain ⟨hl, hd⟩ := liveAt_applyScans.1 hl
    obtain ⟨hl', hd'⟩ := liveAt_applyScans.1 hl'
    by_cases hh : h ∈ claimHashes (scans.map (·.toClaimItem))
    · have h1 := not_duplicate (mem_scanActive ht hh hl) hd
      have h2 := not_duplicate (mem_scanActive ht hh hl') hd'
      exact Option.some.inj (h1.symm.trans h2)
    · exact ht.single (liveAt_of_not_mem hh hl) (liveAt_of_not_mem hh hl')

end Scans

end Markiro.Cloud
