import Markiro.Pallets.Standing
import Markiro.Host.BoxRegistry

/-!
# Every change of a box is stamped

What the registry says of a closed box comes from the box, its shift, its production pallet and the
warehouse pallet it stands on (`Lookups`). A change of the tables that changes it stamps the box in
the same transaction, no lower than the clock and than every stamp so far (`Change.stamps`).
-/

namespace Markiro

open Table (Unique)

/-! ## What the registry says of a box -/

/-- What the registry reads beside the box: the product and the date of its shift, its production
pallet and the warehouse pallet of its live stay. -/
structure Lookups where
  shift : Option (String × String)
  pallet : Option (String × Option String × Bool)
  warehouse : Option (String × Option String)

def ShiftRow.registered (s : ShiftRow) : String × String := (s.productId, s.productionDate)

def PalletRow.registered (p : PalletRow) : String × Option String × Bool :=
  (p.id, p.sscc, p.disassembledAt.isNone)

def WarehousePalletRow.registered (w : WarehousePalletRow) : String × Option String :=
    (w.id, w.sscc)

def Db.warehouseOf (sscc : String) (db : Db) : Option WarehousePalletRow :=
  (db.stays.find? fun w => w.boxSscc = sscc ∧ w.live).bind fun w =>
    db.warehousePallets.find? fun p => p.id = w.palletId

def Db.lookups (db : Db) (x : BoxRow) : Lookups where
  shift := (db.shifts.find? fun s => s.id = x.shiftId).map ShiftRow.registered
  pallet := (db.palletOf x).map PalletRow.registered
  warehouse := (x.sscc.bind fun sscc => db.warehouseOf sscc).map WarehousePalletRow.registered

def Lookups.standsOn (l : Lookups) : Option String × Option String × Bool :=
  match l.warehouse, l.pallet with
  | some w, _ => (some w.1, w.2, true)
  | none, some p => if p.2.2 then (some p.1, p.2.1, true) else (none, none, false)
  | none, none => (none, none, false)

/-- The item of a box, when it is closed and stamped. -/
def Db.itemOf (db : Db) (x : BoxRow) : Option BoxRegistryItem :=
    (db.registryRow x).map RegistryRow.item

def Db.items (db : Db) : List BoxRegistryItem := db.boxes.filterMap db.itemOf

def BoxRegistryItem.updatedAt : BoxRegistryItem → String
  | .upsert _ updatedAt .. => updatedAt
  | .remove _ updatedAt => updatedAt

/-- The box was taken apart. -/
def BoxRegistryItem.isRemove : BoxRegistryItem → Bool
  | .upsert .. => false
  | .remove .. => true

def BoxRow.itemWith (x : BoxRow) (l : Lookups) : Option BoxRegistryItem :=
  x.sscc.bind fun sscc => x.changedAt.bind fun changedAt => l.shift.map fun shift =>
    if x.disassembledAt.isSome then .remove sscc changedAt
    else .upsert sscc changedAt x.id shift.1 (x.itemCountReported.bind asCount) l.standsOn.1
      l.standsOn.2.1 l.standsOn.2.2 x.closedAt shift.2

variable {db db' d : Db} {x y : BoxRow} {item : BoxRegistryItem}

theorem RegistryRow.standsOn_eq (r : RegistryRow) (shift : Option (String × String)) :
    r.standsOn = Lookups.standsOn ⟨shift, r.prodPallet.map PalletRow.registered,
      r.whPallet.map WarehousePalletRow.registered⟩ := by
  unfold RegistryRow.standsOn Lookups.standsOn
  cases r.whPallet <;> cases r.prodPallet <;> rfl

theorem Db.itemOf_eq (db : Db) (x : BoxRow) : db.itemOf x = x.itemWith (db.lookups x) := by
  unfold Db.itemOf Db.registryRow BoxRow.itemWith
  cases hs : x.sscc with
  | none => rfl
  | some sscc =>
    cases hc : x.changedAt with
    | none => rfl
    | some changedAt =>
      cases hsh : db.shifts.find? fun s => s.id = x.shiftId with
      | none =>
        have hl : (db.lookups x).shift = none := by simp [Db.lookups, hsh]
        rw [hl]
        rfl
      | some s =>
        have hl : db.lookups x = ⟨some s.registered, (db.palletOf x).map PalletRow.registered,
            (db.warehouseOf sscc).map WarehousePalletRow.registered⟩ := by
          rw [Db.lookups, hsh, hs]
          rfl
        rw [hl]
        show some (RegistryRow.item _) = some _
        rw [RegistryRow.item, RegistryRow.standsOn_eq _ (some s.registered)]
        rfl

theorem itemOf_open (h : x.sscc = none) : db.itemOf x = none := by
  rw [Db.itemOf_eq, BoxRow.itemWith, h]
  rfl

theorem itemOf_some (h : db.itemOf x = some item) :
    x.sscc = some item.sscc ∧ x.changedAt = some item.updatedAt ∧
      item.isRemove = x.disassembledAt.isSome := by
  rw [Db.itemOf_eq, BoxRow.itemWith] at h
  simp only [Option.bind_eq_some_iff, Option.map_eq_some_iff] at h
  obtain ⟨sscc, hs, changedAt, hc, shift, -, rfl⟩ := h
  cases hd : x.disassembledAt <;>
    simp [hs, hc, BoxRegistryItem.sscc, BoxRegistryItem.updatedAt, BoxRegistryItem.isRemove]

theorem itemOf_congr (hx : x.sscc = y.sscc ∧ x.changedAt = y.changedAt ∧ x.id = y.id ∧
      x.itemCountReported = y.itemCountReported ∧ x.closedAt = y.closedAt ∧
      x.disassembledAt = y.disassembledAt)
    (hshift : (db'.lookups x).shift = (db.lookups y).shift)
    (hplace : y.disassembledAt = none → (db'.lookups x).pallet = (db.lookups y).pallet ∧
      (db'.lookups x).warehouse = (db.lookups y).warehouse) : db'.itemOf x = db.itemOf y := by
  obtain ⟨h1, h2, h3, h4, h5, h6⟩ := hx
  rw [Db.itemOf_eq, Db.itemOf_eq, BoxRow.itemWith, BoxRow.itemWith, h1, h2, h3, h4, h5, h6, hshift]
  cases hd : y.disassembledAt with
  | some t => rfl
  | none =>
    obtain ⟨hp, hw⟩ := hplace hd
    have hl : (db'.lookups x).standsOn = (db.lookups y).standsOn := by
      rw [Lookups.standsOn, Lookups.standsOn, hp, hw]
    rw [hl]

/-! ## Changes and their stamps -/

/-- Every box is stamped `t`, or the registry said of some box before what it says of it. -/
def Stamps (t : String) (db db' : Db) : Prop :=
  ∀ x ∈ db'.boxes, x.changedAt = some t ∨ db'.itemOf x = none ∨
    ∃ y ∈ db.boxes, db'.itemOf x = db.itemOf y

theorem Stamps.of_boxes {t : String} (h : ∀ x ∈ db'.boxes, x.sscc ≠ none →
    x ∈ db.boxes ∧ db'.itemOf x = db.itemOf x) : Stamps t db db' := by
  intro x hx
  cases hs : x.sscc with
  | none => exact .inr (.inl (itemOf_open hs))
  | some sscc =>
    obtain ⟨hmem, heq⟩ := h x hx (by rw [hs]; simp)
    exact .inr (.inr ⟨x, hmem, heq⟩)

theorem Stamps.touch {p : BoxRow → Bool} {now t : String} (ht : d.stamp now = t)
    (hboxes : db'.boxes = (d.touch p now).boxes)
    (h : ∀ x ∈ d.boxes, p x = false → x.sscc ≠ none →
      ∃ y ∈ db.boxes, db'.itemOf x = db.itemOf y) : Stamps t db db' := by
  intro x hx
  rw [hboxes] at hx
  obtain ⟨y, hy, rfl⟩ := Table.mem_update.1 hx
  by_cases hp : p y = true
  · left
    rw [if_pos hp, ht]
  · right
    rw [if_neg hp]
    cases hs : y.sscc with
    | none => exact .inl (itemOf_open hs)
    | some sscc => exact .inr (h y hy (by simpa using hp) (by rw [hs]; simp))

theorem stamp_update {p : BoxRow → Bool} {f : BoxRow → BoxRow} {now : String}
    (h : ∀ x ∈ db.boxes, p x = true → (if (f x).sscc.isSome then (f x).changedAt else none) =
      if x.sscc.isSome then x.changedAt else none) :
    Db.stamp now { db with boxes := Table.update p f db.boxes } = db.stamp now := by
  have hnewest : Db.newestChange { db with boxes := Table.update p f db.boxes } = db.newestChange := by
    unfold Db.newestChange
    rw [Table.filterMap_update h]
  rw [Db.stamp, Db.stamp, hnewest]

theorem shift_lookup {p : ShiftRow → Bool} {f : ShiftRow → ShiftRow} {id : String}
    (h : ∀ s, (f s).id = s.id ∧ (f s).registered = s.registered) (shifts : List ShiftRow) :
    ((Table.update p f shifts).find? fun s => s.id = id).map ShiftRow.registered =
      (shifts.find? fun s => s.id = id).map ShiftRow.registered := by
  rw [Table.find?_update fun s _ => by rw [(h s).1], Option.map_map]
  congr 1
  funext s
  simp only [Function.comp]
  split
  · exact (h s).2
  · rfl

section Writers

variable {k : Crates} {now : String}

theorem Stamps.shifts {p : ShiftRow → Bool} {f : ShiftRow → ShiftRow} {t : String}
    (h : ∀ s, (f s).id = s.id ∧ (f s).registered = s.registered) (hboxes : db'.boxes = db.boxes)
    (hshifts : db'.shifts = Table.update p f db.shifts) (hpallets : db'.pallets = db.pallets)
    (hstays : db'.stays = db.stays) (hwarehouse : db'.warehousePallets = db.warehousePallets) :
    Stamps t db db' := by
  apply Stamps.of_boxes
  intro x hx _
  refine ⟨hboxes ▸ hx, itemOf_congr ⟨rfl, rfl, rfl, rfl, rfl, rfl⟩ ?_ fun _ => ⟨?_, ?_⟩⟩
  · simp only [Db.lookups, hshifts]
    exact shift_lookup h _
  · simp only [Db.lookups, Db.palletOf, hpallets]
  · simp only [Db.lookups, Db.warehouseOf, hstays, hwarehouse]

theorem itemOf_same (hshifts : db'.shifts = db.shifts)
    (hpallet : x.disassembledAt = none → db'.palletOf x = db.palletOf x)
    (hwarehouse : x.disassembledAt = none → ∀ sscc, x.sscc = some sscc →
      (db'.warehouseOf sscc).map WarehousePalletRow.registered =
        (db.warehouseOf sscc).map WarehousePalletRow.registered) : db'.itemOf x = db.itemOf x := by
  refine itemOf_congr ⟨rfl, rfl, rfl, rfl, rfl, rfl⟩ ?_ fun hd => ⟨?_, ?_⟩
  · simp only [Db.lookups, hshifts]
  · simp only [Db.lookups, hpallet hd]
  · simp only [Db.lookups]
    cases hs : x.sscc with
    | none => rfl
    | some sscc => exact hwarehouse hd sscc hs

/-- A production pallet changes and its boxes are stamped. -/
theorem Stamps.touchPallet {palletId : String} {p : PalletRow → Bool} {f : PalletRow → PalletRow}
    (hp : ∀ x, p x = true → x.id = palletId) (hf : ∀ x, (f x).id = x.id) :
    Stamps (db.stamp now) db
      (Db.touchPallet palletId now { db with pallets := Table.update p f db.pallets }) := by
  refine Stamps.touch rfl rfl fun x hx huntouched hs => ?_
  have hother : x.palletId ≠ some palletId := by
    simpa [Option.isSome_iff_ne_none, hs] using huntouched
  refine ⟨x, hx, itemOf_same rfl (fun _ => ?_) fun _ _ _ => rfl⟩
  show Option.bind x.palletId _ = Option.bind x.palletId _
  cases hid : x.palletId with
  | none => rfl
  | some id =>
    refine Table.find?_update_of_not fun y _ hy => ?_
    have hne : y.id ≠ id := by
      rintro rfl
      exact hother (by rw [hid, hp y hy])
    simp [hf, hne]

theorem itemOf_openPallet {y : PalletRow} (hi : db.Standing) (hboxes : ∀ x ∈ d.boxes, x ∈ db.boxes)
    (hshifts : d.shifts = db.shifts) (hpallets : d.pallets = db.pallets ++ [y])
    (hstays : d.stays = db.stays) (hwarehouse : d.warehousePallets = db.warehousePallets) :
    ∀ x ∈ d.boxes, d.itemOf x = db.itemOf x := by
  intro x hx
  refine itemOf_same hshifts (fun _ => ?_) fun _ _ _ => ?_
  · unfold Db.palletOf
    cases hid : x.palletId with
    | none => rfl
    | some id =>
      obtain ⟨p, hp, hpid⟩ := hi.placed x.place (List.mem_map_of_mem (hboxes x hx)) id hid
      obtain ⟨q, hq, rfl⟩ := List.mem_map.1 hp
      have hpid : q.id = id := hpid
      show d.pallets.find? _ = db.pallets.find? _
      rw [hpallets, List.find?_append]
      cases hfind : db.pallets.find? fun p => p.id = id with
      | some r => rfl
      | none =>
        have := List.find?_eq_none.1 hfind q hq
        exact absurd hpid (by simpa using this)
  · unfold Db.warehouseOf
    rw [hstays, hwarehouse]

/-! ### Warehouse pallets -/

theorem warehouseOf_some {sscc : String} {w : StayRow}
    (h : db.stays.find? (fun w => w.boxSscc = sscc ∧ w.live) = some w) :
    w ∈ db.stays ∧ w.boxSscc = sscc ∧ w.live = true ∧
      db.warehouseOf sscc = db.warehousePallets.find? fun p => p.id = w.palletId := by
  have hw := List.find?_some h
  simp only [decide_eq_true_eq] at hw
  refine ⟨List.mem_of_find?_eq_some h, hw.1, hw.2, ?_⟩
  rw [Db.warehouseOf, h]
  rfl

theorem warehouseOf_update {sscc palletId : String} {p : WarehousePalletRow → Bool}
    {f : WarehousePalletRow → WarehousePalletRow} (hp : ∀ x, p x = true → x.id = palletId)
    (hf : ∀ x, (f x).id = x.id)
    (hstays : d.stays.find? (fun w => w.boxSscc = sscc ∧ w.live) =
      db.stays.find? fun w => w.boxSscc = sscc ∧ w.live)
    (hpallets : d.warehousePallets = Table.update p f db.warehousePallets)
    (hfree : ∀ w ∈ db.stays, w.live = true → w.boxSscc = sscc → w.palletId ≠ palletId) :
    d.warehouseOf sscc = db.warehouseOf sscc := by
  rw [Db.warehouseOf, Db.warehouseOf, hstays, hpallets]
  cases h : db.stays.find? fun w => decide (w.boxSscc = sscc ∧ w.live) with
  | none => rfl
  | some w =>
    obtain ⟨hw, hsscc, hlive, -⟩ := warehouseOf_some h
    refine Table.find?_update_of_not fun y _ hy => ?_
    have hne : y.id ≠ w.palletId := by
      rw [hp y hy]
      exact Ne.symm (hfree w hw hlive hsscc)
    simp [hf, hne]

theorem warehouseOf_append {sscc : String} {y : WarehousePalletRow} (hi : db.Standing)
    (hpallets : d.warehousePallets = db.warehousePallets ++ [y])
    (hstays : d.stays.find? (fun w => w.boxSscc = sscc ∧ w.live) =
      db.stays.find? fun w => w.boxSscc = sscc ∧ w.live) :
    d.warehouseOf sscc = db.warehouseOf sscc := by
  rw [Db.warehouseOf, Db.warehouseOf, hstays, hpallets]
  cases h : db.stays.find? fun w => decide (w.boxSscc = sscc ∧ w.live) with
  | none => rfl
  | some w =>
    obtain ⟨hw, -, -, -⟩ := warehouseOf_some h
    obtain ⟨z, hz, hzid, -⟩ := hi.stay_stands w hw
    obtain ⟨v, hv, rfl⟩ := List.mem_map.1 hz
    have hvid : v.id = w.palletId := hzid
    show (db.warehousePallets ++ [y]).find? _ = db.warehousePallets.find? _
    rw [List.find?_append]
    cases hfind : db.warehousePallets.find? fun p => p.id = w.palletId with
    | some r => rfl
    | none =>
      have := List.find?_eq_none.1 hfind v hv
      exact absurd hvid (by simpa using this)

theorem untouched_free {palletId sscc : String} (hs : x.sscc = some sscc)
    (h : (d.stays.any fun w => w.palletId = palletId ∧ w.live ∧ x.sscc = some w.boxSscc) = false) :
    ∀ w ∈ d.stays, w.live = true → w.boxSscc = sscc → w.palletId ≠ palletId := by
  intro w hw hlive hsscc hpallet
  have := List.any_eq_false.1 h w hw
  simp [hpallet, hlive, hs, hsscc] at this

theorem find?_stay_append {sscc : String} {stays extra : List StayRow}
    (h : ∀ w ∈ extra, w.live = true → w.boxSscc ≠ sscc) :
    (stays ++ extra).find? (fun w => w.boxSscc = sscc ∧ w.live) =
      stays.find? fun w => w.boxSscc = sscc ∧ w.live := by
  have hnone : extra.find? (fun w => decide (w.boxSscc = sscc ∧ w.live)) = none := by
    refine List.find?_eq_none.2 fun w hw => ?_
    simp only [decide_eq_true_eq, not_and]
    exact fun hsscc hlive => h w hw hlive hsscc
  rw [List.find?_append, hnone, Option.or_none]

/-! ### Every change -/

/-- A box without an SSCC has no stamp. -/
def Db.Unstamped (db : Db) : Prop := ∀ x ∈ db.boxes, x.sscc = none → x.changedAt = none

/-- A box is open until it is closed: its close does not move the newest stamp by itself. -/
theorem stamp_closeBox {ctx : Context} {c : BoxClosedFact} {digestMatches : Bool}
    (hi : db.Standing) (hb : db.Unstamped) (hx : db.boxes.find? (fun x => x.id = c.boxId) = some x)
    (hsscc : x.sscc = none) :
    Db.stamp now { db with
      boxes := Table.update (fun x => x.id = c.boxId) (c.closeBox ctx digestMatches) db.boxes } =
      db.stamp now := by
  refine stamp_update ?_
  intro y hy hid
  have hfound := List.find?_some hx
  have hunique : Unique (·.id) db.boxes := by
    have := hi.boxes_unique
    rwa [Table.Unique, List.map_map] at this
  have hyx : y = x := by
    refine hunique.eq hy (List.mem_of_find?_eq_some hx) ?_
    rw [decide_eq_true_eq] at hid hfound
    rw [hid, hfound]
  have hnone := hb y hy (hyx ▸ hsscc)
  simp [BoxClosedFact.closeBox, hnone]

theorem Written.stamps (h : Written k now db db') (hi : db.Standing) (hb : db.Unstamped) :
    Stamps (db.stamp now) db db' := by
  cases h with
  | openBox x hnew =>
    apply Stamps.of_boxes
    intro y hy hsscc
    rcases List.mem_append.1 hy with hy | hy
    · exact ⟨hy, rfl⟩
    · rw [List.mem_singleton.1 hy] at hsscc
      exact absurd hnew.sscc hsscc
  | @closeBox ctx c digestMatches x _ _ hx _ _ hsscc =>
    refine Stamps.touch (stamp_closeBox hi hb hx hsscc) rfl ?_
    intro y hy huntouched _
    obtain ⟨z, hz, rfl⟩ := Table.mem_update.1 hy
    by_cases hid : z.id = c.boxId
    · simp [hid, BoxClosedFact.closeBox] at huntouched
    · refine ⟨z, hz, ?_⟩
      simp only [hid, decide_false, Bool.false_eq_true, if_false]
      rfl
  | labelBox l =>
    intro y hy
    obtain ⟨z, hz, rfl⟩ := Table.mem_update.1 hy
    refine .inr (.inr ⟨z, hz, ?_⟩)
    split
    · rw [BoxRow.label]
      split <;> exact itemOf_congr ⟨rfl, rfl, rfl, rfl, rfl, rfl⟩ rfl fun _ => ⟨rfl, rfl⟩
    · rfl
  | disassembleBox boxId instant p hp =>
    refine Stamps.touch (stamp_update (by intros; rfl)) rfl ?_
    intro y hy huntouched hsscc
    obtain ⟨z, hz, rfl⟩ := Table.mem_update.1 hy
    by_cases hpz : p z = true
    · rw [if_pos hpz] at huntouched hsscc
      have hsome : z.sscc.isSome = true := Option.isSome_iff_ne_none.2 hsscc
      simp [hp z hpz, hsome] at huntouched
    · rw [if_neg hpz]
      exact ⟨z, hz, rfl⟩
  | openPallet ctx id openedAt =>
    apply Stamps.of_boxes
    intro x hx _
    refine ⟨hx, ?_⟩
    exact itemOf_openPallet (d := { db with pallets := db.pallets ++ [ctx.newPallet id openedAt] })
      hi (fun _ h => h) rfl rfl rfl rfl x hx
  | closePallet ctx c =>
    rw [Db.closePallet]
    split
    · exact Stamps.touchPallet (fun x hx => by simpa using hx) fun _ => rfl
    · refine Stamps.touch rfl rfl fun x hx _ _ => ⟨x, hx, ?_⟩
      exact itemOf_openPallet (d := { db with
        pallets := db.pallets ++ [c.closePallet ctx (ctx.newPallet c.palletId c.openedAt)] })
        hi (fun _ h => h) rfl rfl rfl rfl x hx
  | labelPallet l =>
    apply Stamps.of_boxes
    intro x hx _
    refine ⟨hx, itemOf_congr ⟨rfl, rfl, rfl, rfl, rfl, rfl⟩ rfl fun _ => ⟨?_, rfl⟩⟩
    show Option.map _ (Option.bind x.palletId _) = Option.map _ (Option.bind x.palletId _)
    cases x.palletId with
    | none => rfl
    | some id =>
      have hface (y : PalletRow) : (y.label l).id = y.id ∧ (y.label l).registered = y.registered := by
        rw [PalletRow.label]
        split <;> exact ⟨rfl, rfl⟩
      show ((Table.update _ _ db.pallets).find? _).map _ = (db.pallets.find? _).map _
      rw [Table.find?_update fun y _ => by rw [(hface y).1], Option.map_map]
      congr 1
      funext y
      simp only [Function.comp]
      split
      · exact (hface y).2
      · rfl
  | disassemblePallet palletId instant p hp => exact Stamps.touchPallet hp fun _ => rfl
  | openWarehousePallet x =>
    apply Stamps.of_boxes
    intro y hy _
    refine ⟨hy, itemOf_same rfl (fun _ => rfl) fun _ sscc _ => ?_⟩
    rw [warehouseOf_append (d := { db with warehousePallets := db.warehousePallets ++ [x] }) hi rfl
      rfl]
  | dropDraft x hx hopen hempty =>
    apply Stamps.of_boxes
    intro y hy _
    refine ⟨hy, itemOf_same rfl (fun _ => rfl) fun hd sscc hs => ?_⟩
    have hfree : ∀ w ∈ db.stays, w.live = true → w.boxSscc = sscc → w.palletId ≠ x.id := by
      intro w hw hlive hsscc hid
      rw [Db.boxesOn, List.countP_eq_zero] at hempty
      have := hempty (w, y) (List.mem_product.2 ⟨hw, hy⟩)
      simp [hid, hlive, hs, hsscc, hd] at this
    have hstays : (Table.delete (fun w => decide (w.palletId = x.id)) db.stays).find?
        (fun w => w.boxSscc = sscc ∧ w.live) = db.stays.find? fun w => w.boxSscc = sscc ∧ w.live := by
      refine Table.find?_delete fun w hw hid => ?_
      rw [decide_eq_true_eq] at hid
      rw [decide_eq_false_iff_not]
      exact fun h => hfree w hw h.2 h.1 hid
    rw [Db.warehouseOf, Db.warehouseOf]
    simp only [Db.dropDraft]
    rw [hstays]
    cases hfind : db.stays.find? fun w => decide (w.boxSscc = sscc ∧ w.live) with
    | none => rfl
    | some w =>
      obtain ⟨hw, hsscc, hlive, -⟩ := warehouseOf_some hfind
      refine congrArg _ (Table.find?_delete fun v _ hid => ?_)
      rw [decide_eq_true_eq] at hid
      rw [decide_eq_false_iff_not, hid]
      exact Ne.symm (hfree w hw hlive hsscc)
  | addStay w x hlive =>
    refine Stamps.touch rfl rfl fun y hy huntouched hsscc => ⟨y, hy, ?_⟩
    refine itemOf_same rfl (fun _ => rfl) fun _ sscc hs => ?_
    have hne : w.boxSscc ≠ sscc := by
      rintro rfl
      simp [hs] at huntouched
    have hstays := @find?_stay_append sscc db.stays [w]
      fun v hv _ => List.mem_singleton.1 hv ▸ hne
    show Option.map _ (Option.bind ((db.stays ++ [w]).find? _) _) = _
    rw [hstays]
    rfl
  | endStay palletId boxSscc instant =>
    refine Stamps.touch rfl rfl fun y hy huntouched hsscc => ⟨y, hy, ?_⟩
    refine itemOf_same rfl (fun _ => rfl) fun _ sscc hs => ?_
    have hne : boxSscc ≠ sscc := by
      rintro rfl
      simp [hs] at huntouched
    have hstays : (db.endStay palletId boxSscc instant).stays.find?
        (fun w => w.boxSscc = sscc ∧ w.live) = db.stays.find? fun w => w.boxSscc = sscc ∧ w.live := by
      refine Table.find?_update_of_not fun w _ hw => ?_
      rw [decide_eq_true_eq] at hw
      simp [hw.2.1, hne]
    show Option.map _ (Option.bind ((db.endStay palletId boxSscc instant).stays.find? _) _) = _
    rw [hstays]
    rfl
  | closeWarehousePallet ctx c =>
    refine Stamps.touch rfl rfl fun y hy huntouched hsscc => ⟨y, hy, ?_⟩
    refine itemOf_same rfl (fun _ => rfl) fun _ sscc hs => ?_
    have hfree := untouched_free hs huntouched
    refine congrArg _ (warehouseOf_update (d := { db with
      warehousePallets := Table.update (fun x => x.id = c.palletId) (c.closeWarehousePallet ctx)
        db.warehousePallets }) (fun x hx => ?_)
      (by intro; rfl) rfl rfl hfree)
    exact of_decide_eq_true hx
  | disassembleWarehousePallet palletId instant p f hp hf =>
    refine Stamps.touch rfl rfl fun y hy huntouched hsscc => ⟨y, hy, ?_⟩
    refine itemOf_same rfl (fun _ => rfl) fun _ sscc hs => congrArg _ ?_
    have hfree := untouched_free hs huntouched
    have hstays : (db.endStays palletId instant).stays.find? (fun w => w.boxSscc = sscc ∧ w.live) =
        db.stays.find? fun w => w.boxSscc = sscc ∧ w.live := by
      refine Table.find?_update_of_not fun w hw hp => ?_
      rw [decide_eq_true_eq] at hp
      have hne : w.boxSscc ≠ sscc := fun h => hfree w hw hp.2 h hp.1
      simp [hne]
    exact warehouseOf_update (d := { db.endStays palletId instant with
      warehousePallets := Table.update p f db.warehousePallets }) (fun x hx => ((hp x).1 hx).1)
      (fun x => (hf x).id) hstays rfl hfree
  | createPallet x rev block pallet stays _ _ _ _ _ _ _ _ hlive =>
    refine Stamps.touch rfl rfl fun y hy huntouched hsscc => ⟨y, hy, ?_⟩
    refine itemOf_same rfl (fun _ => rfl) fun _ sscc hs => congrArg _ ?_
    have hfree := untouched_free hs huntouched
    have hstays := @find?_stay_append sscc db.stays stays fun w hw hl h =>
      hfree w (List.mem_append_right _ hw) hl h (hlive w hw).1
    exact warehouseOf_append (d := { db with
      warehousePallets := db.warehousePallets ++ [pallet], stays := db.stays ++ stays }) hi rfl hstays
  | openShift s deviceId snapshot => exact Stamps.shifts (by exact fun _ => ⟨rfl, rfl⟩) rfl rfl rfl rfl rfl
  | closeLast => exact Stamps.shifts (by exact fun _ => ⟨rfl, rfl⟩) rfl rfl rfl rfl rfl
  | closeByOffice => exact Stamps.shifts (by exact fun _ => ⟨rfl, rfl⟩) rfl rfl rfl rfl rfl
  | markShift p f hf =>
    refine Stamps.shifts (fun s => ?_) rfl rfl rfl rfl rfl
    rw [hf s]
    exact ⟨rfl, rfl⟩
  | _ => exact Stamps.of_boxes fun x hx _ => ⟨hx, rfl⟩

end Writers

end Markiro
