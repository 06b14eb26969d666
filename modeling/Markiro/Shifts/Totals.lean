import Markiro.Registry.Owners
import Markiro.Shifts.Parts

/-!
# A shift's totals

`SHIFT_TOTALS` counts a shift's units, boxes and pallets whole, `BY_DEVICE` by participant, and
neither is stored. They agree because every box, pallet and owner of a shift is of a device that
entered it (`Housed`), and units in boxes are owners because of `Owned`.
-/

namespace Markiro

open Table (Unique)

/-! ## What belongs to whom -/

/-- A box and the part of the shift it is of. -/
structure Home where
  id : String
  part : String × String

def BoxRow.home (x : BoxRow) : Home := ⟨x.id, x.shiftId, x.deviceId⟩

def PalletRow.part (x : PalletRow) : String × String := (x.shiftId, x.deviceId)

def CodeOwnerRow.part (o : CodeOwnerRow) : String × String := (o.shiftId, o.deviceId)

def ParticipantRow.key (p : ParticipantRow) : String × String := (p.shiftId, p.deviceId)

/-- Boxes, pallets and owners are of parts that exist, and an owner is of the part of its box. -/
structure Housed (parts : List (String × String)) (boxes : List Home)
    (pallets : List (String × String)) (owners : List CodeOwnerRow) : Prop where
  parts_unique : parts.Nodup
  boxes_unique : Unique (·.id) boxes
  boxes_of : ∀ x ∈ boxes, x.part ∈ parts
  pallets_of : ∀ x ∈ pallets, x ∈ parts
  owners_of : ∀ o ∈ owners, o.part ∈ parts
  boxed : ∀ o ∈ owners, ∀ b, o.boxId = some b → ∃ x ∈ boxes, x.id = b ∧ x.part = o.part

def Db.Housed (db : Db) : Prop :=
  Markiro.Housed (db.participants.map ParticipantRow.key) (db.boxes.map BoxRow.home)
    (db.pallets.map PalletRow.part) db.codeOwners

/-! ## What the writes keep -/

namespace Housed

variable {parts : List (String × String)} {boxes : List Home} {pallets : List (String × String)}
  {owners : List CodeOwnerRow}

theorem enter {part : String × String} (h : Housed parts boxes pallets owners)
    (hfree : part ∉ parts) : Housed (parts ++ [part]) boxes pallets owners :=
  { h with
    parts_unique := by
      rw [List.nodup_append_comm]
      exact List.nodup_cons.2 ⟨hfree, h.parts_unique⟩
    boxes_of := fun x hx => List.mem_append_left _ (h.boxes_of x hx)
    pallets_of := fun x hx => List.mem_append_left _ (h.pallets_of x hx)
    owners_of := fun o ho => List.mem_append_left _ (h.owners_of o ho) }

theorem openBox {x : Home} (h : Housed parts boxes pallets owners) (hid : ∀ y ∈ boxes, y.id ≠ x.id)
    (hpart : x.part ∈ parts) : Housed parts (boxes ++ [x]) pallets owners :=
  { h with
    boxes_unique := h.boxes_unique.append hid
    boxes_of := by
      intro y hy
      rcases List.mem_append.1 hy with hy | hy
      · exact h.boxes_of y hy
      · rwa [List.mem_singleton.1 hy]
    boxed := by
      intro o ho b hb
      obtain ⟨y, hy, hrest⟩ := h.boxed o ho b hb
      exact ⟨y, List.mem_append_left _ hy, hrest⟩ }

theorem openPallet {part : String × String} (h : Housed parts boxes pallets owners)
    (hpart : part ∈ parts) : Housed parts boxes (pallets ++ [part]) owners :=
  { h with
    pallets_of := by
      intro x hx
      rcases List.mem_append.1 hx with hx | hx
      · exact h.pallets_of x hx
      · rwa [List.mem_singleton.1 hx] }

theorem own {owners' : List CodeOwnerRow} (h : Housed parts boxes pallets owners)
    (hnew : ∀ o ∈ owners', o ∈ owners ∨
      o.part ∈ parts ∧ ∀ b, o.boxId = some b → ∃ x ∈ boxes, x.id = b ∧ x.part = o.part) :
    Housed parts boxes pallets owners' :=
  { h with
    owners_of := by
      intro o ho
      rcases hnew o ho with hold | hnew
      · exact h.owners_of o hold
      · exact hnew.1
    boxed := by
      intro o ho
      rcases hnew o ho with hold | hnew
      · exact h.boxed o hold
      · exact hnew.2 }

end Housed

section Writers

variable {k : Crates} {now : String} {row : ScanRow} {db db' : Db}

theorem Db.Housed.of_eq {d : Db} (h : d.Housed)
    (hparts : db'.participants.map ParticipantRow.key = d.participants.map ParticipantRow.key)
    (hboxes : db'.boxes.map BoxRow.home = d.boxes.map BoxRow.home)
    (hpallets : db'.pallets.map PalletRow.part = d.pallets.map PalletRow.part)
    (howners : db'.codeOwners = d.codeOwners) : db'.Housed := by
  rw [Db.Housed, hparts, hboxes, hpallets, howners]
  exact h

theorem touch_home (p : BoxRow → Bool) (now : String) (db : Db) :
    (db.touch p now).boxes.map BoxRow.home = db.boxes.map BoxRow.home :=
  Table.map_update fun _ _ => rfl

theorem Worked.part {shiftId deviceId : String} {shifts : List ShiftRow}
    {participants : List ParticipantRow} (h : Worked shiftId deviceId shifts participants) :
    (shiftId, deviceId) ∈ participants.map ParticipantRow.key := by
  obtain ⟨p, hp, rfl, rfl⟩ := h.participant
  exact List.mem_map_of_mem hp

theorem NewScan.housed {hash : String} (h : NewScan k row db) :
    (row.owner hash).part ∈ db.participants.map ParticipantRow.key ∧
      ∀ b, (row.owner hash).boxId = some b →
        ∃ x ∈ db.boxes.map BoxRow.home, x.id = b ∧ x.part = (row.owner hash).part := by
  refine ⟨h.worked.part, fun b hb => ?_⟩
  obtain ⟨x, hx, hid, hshift, hdevice⟩ := h.box b hb
  refine ⟨x.home, List.mem_map_of_mem hx, hid, ?_⟩
  show (x.shiftId, x.deviceId) = (row.shiftId, row.deviceId)
  rw [hshift, hdevice]

theorem Scanned.housed (h : Scanned k now row db db') (hi : db.Housed) : db'.Housed := by
  cases h with
  | noted => exact hi
  | imported => exact hi
  | late => exact hi
  | took hash id o _ _ hnew =>
    refine Housed.own hi fun x hx => ?_
    obtain ⟨y, hy, rfl⟩ := Table.mem_update.1 hx
    split
    · exact .inr hnew.housed
    · exact .inl hy
  | claimed hash _ _ hnew =>
    refine Housed.own hi fun x hx => ?_
    rcases List.mem_append.1 hx with hx | hx
    · exact .inl hx
    · rw [List.mem_singleton.1 hx]
      exact .inr hnew.housed

theorem free_part {participants : List ParticipantRow} {shiftId deviceId : String}
    (h : ∀ p ∈ participants, p.is shiftId deviceId = false) :
    (shiftId, deviceId) ∉ participants.map ParticipantRow.key := by
  intro hmem
  obtain ⟨p, hp, hkey⟩ := List.mem_map.1 hmem
  have hnot := h p hp
  simp only [ParticipantRow.is, decide_eq_false_iff_not] at hnot
  exact hnot (Prod.mk.inj hkey)

theorem Written.housed (h : Written k now db db') (hi : db.Housed) : db'.Housed := by
  cases h with
  | openBox x _ hid hworked =>
    show Markiro.Housed _ ((db.boxes ++ [x]).map BoxRow.home) _ _
    rw [List.map_append]
    refine Housed.openBox hi ?_ hworked.part
    intro y hy
    obtain ⟨z, hz, rfl⟩ := List.mem_map.1 hy
    exact hid z hz
  | takeOut => exact Housed.own hi fun o ho => .inl (Table.mem_delete.1 ho).1
  | emptyBox => exact Housed.own hi fun o ho => .inl (Table.mem_delete.1 ho).1
  | closeBox =>
    exact hi.of_eq rfl ((touch_home _ _ _).trans (Table.map_update fun _ _ => rfl)) rfl rfl
  | labelBox l =>
    refine hi.of_eq rfl (Table.map_update fun x _ => ?_) rfl rfl
    rw [BoxRow.label]
    split <;> rfl
  | disassembleBox =>
    exact hi.of_eq rfl ((touch_home _ _ _).trans (Table.map_update fun _ _ => rfl)) rfl rfl
  | openPallet ctx id openedAt hctx =>
    show Markiro.Housed _ _ ((db.pallets ++ [_]).map PalletRow.part) _
    rw [List.map_append]
    exact Housed.openPallet hi hctx.worked.part
  | closePallet ctx c hctx =>
    rw [Db.closePallet]
    split
    · exact hi.of_eq rfl (touch_home _ _ _) (Table.map_update fun _ _ => rfl) rfl
    · refine Db.Housed.of_eq (d := { db with
        pallets := db.pallets ++ [c.closePallet ctx (ctx.newPallet c.palletId c.openedAt)] }) ?_
        rfl (touch_home _ _ _) rfl rfl
      show Markiro.Housed _ _ ((db.pallets ++ [_]).map PalletRow.part) _
      rw [List.map_append]
      exact Housed.openPallet hi hctx.worked.part
  | labelPallet l =>
    refine hi.of_eq rfl rfl (Table.map_update fun x _ => ?_) rfl
    rw [PalletRow.label]
    split <;> rfl
  | disassemblePallet =>
    exact hi.of_eq rfl (touch_home _ _ _) (Table.map_update fun _ _ => rfl) rfl
  | addStay => exact hi.of_eq rfl (touch_home _ _ _) rfl rfl
  | endStay => exact hi.of_eq rfl (touch_home _ _ _) rfl rfl
  | closeWarehousePallet => exact hi.of_eq rfl (touch_home _ _ _) rfl rfl
  | disassembleWarehousePallet => exact hi.of_eq rfl (touch_home _ _ _) rfl rfl
  | createPallet => exact hi.of_eq rfl (touch_home _ _ _) rfl rfl
  | openShift s deviceId snapshot _ _ _ hfree =>
    show Markiro.Housed ((db.participants ++ [_]).map ParticipantRow.key) _ _ _
    rw [List.map_append]
    exact Housed.enter hi (free_part hfree)
  | join s deviceId _ _ hfree =>
    show Markiro.Housed ((db.participants ++ [_]).map ParticipantRow.key) _ _ _
    rw [List.map_append]
    exact Housed.enter hi (free_part hfree)
  | rejoin => exact hi.of_eq (Table.map_update fun _ _ => rfl) rfl rfl rfl
  | leave => exact hi.of_eq (Table.map_update fun _ _ => rfl) rfl rfl rfl
  | closePart => exact hi.of_eq (Table.map_update fun _ _ => rfl) rfl rfl rfl
  | closeLast => exact hi.of_eq (Table.map_update fun _ _ => rfl) rfl rfl rfl
  | closeByOffice => exact hi.of_eq (Table.map_update fun _ _ => rfl) rfl rfl rfl
  | markPart p f hf =>
    refine hi.of_eq (Table.map_update fun x _ => ?_) rfl rfl rfl
    rw [hf x]
    rfl
  | _ => exact hi

theorem Change.housed (h : Change k now db db') (hi : db.Housed) : db'.Housed := by
  cases h with
  | scanned h => exact h.housed hi
  | written h => exact h.housed hi
  | filed h => cases h <;> exact hi

end Writers

/-! ## Sums over the parts -/

section Sums

variable {db : Db} {shiftId : String}

theorem countP_by_part {α : Type} {rows : List α} {f : α → String × String} {c : α → Bool}
    {participants : List ParticipantRow} (hunique : (participants.map ParticipantRow.key).Nodup)
    (hof : ∀ x ∈ rows, f x ∈ participants.map ParticipantRow.key) (shiftId : String) :
    rows.countP (fun x => decide ((f x).1 = shiftId) && c x) =
      ((byEntry (participants.filter fun p => p.shiftId = shiftId)).map fun p =>
        rows.countP fun x =>
          decide ((f x).1 = p.shiftId ∧ (f x).2 = p.deviceId) && c x).sum := by
  have hkeys : ((participants.filter fun p => p.shiftId = shiftId).map ParticipantRow.key).Nodup :=
    hunique.sublist (List.filter_sublist.map _)
  have hmem : ∀ x ∈ rows, (decide ((f x).1 = shiftId) && c x) = true →
      f x ∈ (participants.filter fun p => p.shiftId = shiftId).map ParticipantRow.key := by
    intro x hx hq
    simp only [Bool.and_eq_true, decide_eq_true_eq] at hq
    obtain ⟨p, hp, hkey⟩ := List.mem_map.1 (hof x hx)
    refine List.mem_map.2 ⟨p, List.mem_filter.2 ⟨hp, decide_eq_true ?_⟩, hkey⟩
    rw [← hq.1, ← hkey]
    rfl
  rw [Table.countP_eq_sum hkeys hmem, List.map_map, byEntry,
    ((List.perm_insertionSort _ (participants.filter fun p => p.shiftId = shiftId)).map _).sum_eq]
  refine congrArg List.sum (List.map_congr_left fun p hp => List.countP_congr fun x _ => ?_)
  have hshift : p.shiftId = shiftId := of_decide_eq_true (List.mem_filter.1 hp).2
  have hkey : f x = p.key ↔ (f x).1 = p.shiftId ∧ (f x).2 = p.deviceId := Prod.ext_iff
  simp only [Bool.and_eq_true, decide_eq_true_eq, hkey]
  constructor
  · rintro ⟨⟨-, hc⟩, hpart⟩
    exact ⟨hpart, hc⟩
  · rintro ⟨hpart, hc⟩
    exact ⟨⟨hpart.1.trans hshift, hc⟩, hpart⟩

theorem byDevice_of_shift {s : ShiftRow}
    (hs : db.shifts.find? (fun s => s.id = shiftId) = some s) :
    db.byDevice shiftId =
      (byEntry (db.participants.filter fun p => p.shiftId = shiftId)).map fun p =>
        (p.deviceId, db.totals s.mode (fun x => x.shiftId = p.shiftId ∧ x.deviceId = p.deviceId)
          (fun x => x.shiftId = p.shiftId ∧ x.deviceId = p.deviceId)
          (fun o => o.shiftId = p.shiftId ∧ o.deviceId = p.deviceId)) := by
  simp only [Db.byDevice, hs, Option.map_some]
  exact congrFun List.filterMap_eq_map _

theorem Db.Housed.boxes_sum (h : db.Housed) (shiftId : String) :
    (db.boxes.countP fun x => decide (x.shiftId = shiftId) && x.counts) =
      ((byEntry (db.participants.filter fun p => p.shiftId = shiftId)).map fun p =>
        db.boxes.countP fun x =>
          decide (x.shiftId = p.shiftId ∧ x.deviceId = p.deviceId) && x.counts).sum :=
  countP_by_part (f := fun x => (x.shiftId, x.deviceId)) (c := BoxRow.counts) h.parts_unique
    (fun x hx => h.boxes_of x.home (List.mem_map_of_mem hx)) shiftId

theorem Db.Housed.pallets_sum (h : db.Housed) (shiftId : String) :
    (db.pallets.countP fun x => decide (x.shiftId = shiftId) && x.counts) =
      ((byEntry (db.participants.filter fun p => p.shiftId = shiftId)).map fun p =>
        db.pallets.countP fun x =>
          decide (x.shiftId = p.shiftId ∧ x.deviceId = p.deviceId) && x.counts).sum :=
  countP_by_part (f := fun x => (x.shiftId, x.deviceId)) (c := PalletRow.counts) h.parts_unique
    (fun x hx => h.pallets_of x.part (List.mem_map_of_mem hx)) shiftId

theorem Db.Housed.owners_sum (h : db.Housed) (shiftId : String) :
    (db.codeOwners.countP fun o => decide (o.shiftId = shiftId) && o.boxId.isNone) =
      ((byEntry (db.participants.filter fun p => p.shiftId = shiftId)).map fun p =>
        db.codeOwners.countP fun o =>
          decide (o.shiftId = p.shiftId ∧ o.deviceId = p.deviceId) && o.boxId.isNone).sum :=
  countP_by_part (f := CodeOwnerRow.part) (c := fun o => o.boxId.isNone)
    h.parts_unique h.owners_of shiftId

theorem liveItems_eq (p : BoxRow → Bool) :
    db.liveItems p = (db.boxItems ×ˢ db.boxes).countP fun x =>
      p x.2 && (decide (x.2.id = x.1.boxId) && x.1.live) := by
  refine List.countP_congr fun x _ => ?_
  simp only [Bool.and_eq_true]
  tauto

theorem Db.Housed.items_sum (h : db.Housed) (shiftId : String) :
    db.liveItems (fun x => x.shiftId = shiftId) =
      ((byEntry (db.participants.filter fun p => p.shiftId = shiftId)).map fun p =>
        db.liveItems fun x => x.shiftId = p.shiftId ∧ x.deviceId = p.deviceId).sum := by
  simp only [liveItems_eq]
  refine countP_by_part (f := fun x : BoxItemRow × BoxRow => (x.2.shiftId, x.2.deviceId))
    (c := fun x => decide (x.2.id = x.1.boxId) && x.1.live) h.parts_unique (fun x hx => ?_) shiftId
  obtain ⟨i, b⟩ := x
  exact h.boxes_of b.home (List.mem_map_of_mem (List.pair_mem_product.1 hx).2)

theorem mem_pairs {i : BoxItemRow} {x : BoxRow} :
    (i, x) ∈ db.boxItems ×ˢ db.boxes ↔ i ∈ db.boxItems ∧ x ∈ db.boxes := List.pair_mem_product

theorem liveItems_owners (h : db.Housed) (ho : db.Owned) (shiftId : String) :
    db.liveItems (fun x => x.shiftId = shiftId) =
      db.codeOwners.countP fun o => decide (o.shiftId = shiftId) && o.boxId.isSome := by
  rw [Db.liveItems, List.countP_eq_length_filter, List.countP_eq_length_filter]
  have hboxes : Unique (·.id) db.boxes := by
    have := h.boxes_unique
    rw [Table.Unique, List.map_map] at this
    exact this
  -- A live item and its owner have the same scan.
  have hperm : (((db.boxItems ×ˢ db.boxes).filter fun x => decide (x.2.id = x.1.boxId) &&
      decide (x.2.shiftId = shiftId) && x.1.live).map (·.1.scanId)).Perm
      ((db.codeOwners.filter fun o => decide (o.shiftId = shiftId) && o.boxId.isSome).map
        (·.scanId)) := by
    refine (List.perm_ext_iff_of_nodup ?_ ?_).2 fun id => ?_
    · refine List.Nodup.map_on ?_ ((List.Nodup.product (List.Nodup.of_map _ ho.items_unique)
        (List.Nodup.of_map _ hboxes)).filter _)
      rintro ⟨i, x⟩ hx ⟨j, y⟩ hy hid
      simp only [List.mem_filter, Bool.and_eq_true, decide_eq_true_eq, mem_pairs] at hx hy
      obtain rfl : i = j := ho.items_unique.eq hx.1.1 hy.1.1 hid
      refine Prod.ext rfl (hboxes.eq hx.1.2 hy.1.2 ?_)
      rw [hx.2.1.1, hy.2.1.1]
    · exact ho.owners_unique.sublist (List.filter_sublist.map _)
    · simp only [List.mem_map, List.mem_filter, Bool.and_eq_true, decide_eq_true_eq, Prod.exists,
        mem_pairs]
      constructor
      · rintro ⟨i, x, ⟨⟨hi, hx⟩, ⟨hbox, hshift⟩, hl⟩, rfl⟩
        obtain ⟨o, hmem, -, hid, hob⟩ := ho.owned i hi hl
        obtain ⟨y, hy, hyid, hypart⟩ := h.boxed o hmem _ hob
        obtain ⟨z, hz, rfl⟩ := List.mem_map.1 hy
        obtain rfl : z = x := hboxes.eq hz hx (hyid.trans hbox.symm)
        refine ⟨o, ⟨hmem, (congrArg Prod.fst hypart).symm.trans hshift, by simp [hob]⟩, hid⟩
      · rintro ⟨o, ⟨hmem, hshift, hob⟩, rfl⟩
        obtain ⟨b, hb⟩ := Option.isSome_iff_exists.1 hob
        obtain ⟨i, hi, hl, hid, hbox, -⟩ := ho.boxed o hmem b hb
        obtain ⟨y, hy, hyid, hypart⟩ := h.boxed o hmem b hb
        obtain ⟨z, hz, rfl⟩ := List.mem_map.1 hy
        exact ⟨i, z, ⟨⟨hi, hz⟩, ⟨hyid.trans hbox.symm, (congrArg Prod.fst hypart).trans hshift⟩,
          hl⟩, hid⟩
  simpa using hperm.length_eq

end Sums

/-- **A shift's totals are the sums of its parts.** From no participants, boxes, pallets and codes,
after every run of requests, for every shift: the units, boxes and pallets of the shift are the sums
over its participants, and its units are its owners with a box, or without one where it validates. -/
theorem totals_are_sums (k : Crates) (db : Db) (calls : List Call) :
    let now := run k { db with
      participants := [], scans := [], boxes := [], boxItems := [], codeOwners := [],
      pallets := [] } calls
    ∀ shiftId s totals, now.shifts.find? (fun s => s.id = shiftId) = some s →
      now.shiftTotals shiftId = some totals →
      totals.accepted = ((now.byDevice shiftId).map (·.2.accepted)).sum ∧
      totals.boxesClosed = ((now.byDevice shiftId).map (·.2.boxesClosed)).sum ∧
      totals.pallets = ((now.byDevice shiftId).map (·.2.pallets)).sum ∧
      totals.accepted = now.codeOwners.countP fun o => decide (o.shiftId = shiftId) &&
        match s.mode with
        | .aggregation => o.boxId.isSome
        | .validation => o.boxId.isNone := by
  intro now shiftId s totals hs htotals
  have hhoused : now.Housed := by
    refine run_invariant (P := Db.Housed) Change.housed ?_ calls
    exact ⟨List.nodup_nil, List.nodup_nil, nofun, nofun, nofun, nofun⟩
  have howned : now.Owned := by
    refine run_invariant (P := Db.Owned) Change.owned ?_ calls
    exact Owned.empty
  have hid : s.id = shiftId := by simpa using List.find?_some hs
  rw [Db.shiftTotals, hs, Option.map_some, hid] at htotals
  obtain rfl := Option.some.inj htotals
  rw [byDevice_of_shift hs]
  simp only [List.map_map]
  refine ⟨?_, hhoused.boxes_sum shiftId, hhoused.pallets_sum shiftId, ?_⟩
  · cases hmode : s.mode with
    | validation => exact hhoused.owners_sum shiftId
    | aggregation => exact hhoused.items_sum shiftId
  · cases hmode : s.mode with
    | validation => rfl
    | aggregation => exact liveItems_owners hhoused howned shiftId

open Sample in
/-- One accepted scan of a validation shift is its total and its station's. -/
theorem totals_are_sums_sample :
    let now := run Crates.sample (planned .validation) [enter,
      ⟨env "66666666-6666-4666-8666-66666666666", .facts station
        [scan "33333333-3333-4333-8333-333333333333" "2024-01-01T09:00:00.000Z" none]⟩]
    now.shiftTotals shift = some ⟨1, 0, 0⟩ ∧ ((now.byDevice shift).map (·.2.accepted)).sum = 1 := by
  intro now
  have hnow : now.shiftTotals shift = some ⟨1, 0, 0⟩ ∧
      (now.shifts.find? fun s => s.id = shift).isSome = true := by decide +kernel
  obtain ⟨s, hs⟩ := Option.isSome_iff_exists.1 hnow.2
  exact ⟨hnow.1, (totals_are_sums Crates.sample (planned .validation) _ shift s _ hs hnow.1).1.symm⟩

end Markiro
