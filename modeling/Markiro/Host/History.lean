import Markiro.Sscc.Labels

/-!
# What a run never takes back

The host's scans, conflicts and receipts are logs: a request appends to them and changes none of
their rows. A code that left its box never comes back to that place, and a pack that is closed keeps
its SSCC, block and serial for good.
-/

namespace Markiro

open Table (update mem_update_of_mem)

variable {k : Crates} {now : String} {db db' db'' : Db}

/-! ## Logs and items -/

/-- The item where it was put, whether or not it has left since. -/
def BoxItemRow.place (i : BoxItemRow) : String × String × String × String :=
  (i.scanId, i.boxId, i.codeHash, i.addedAt)

/-- The items of a later moment: each is still there, and out of its box if it was. -/
def ItemsOnward (items items' : List BoxItemRow) : Prop :=
  ∀ i ∈ items, ∃ j ∈ items', j.place = i.place ∧ (i.live = false → j.live = false)

theorem ItemsOnward.refl (items : List BoxItemRow) : ItemsOnward items items :=
  fun i hi => ⟨i, hi, rfl, id⟩

theorem ItemsOnward.trans {items items' items'' : List BoxItemRow} (h : ItemsOnward items items')
    (h' : ItemsOnward items' items'') : ItemsOnward items items'' := by
  intro i hi
  obtain ⟨j, hj, hplace, hlive⟩ := h i hi
  obtain ⟨l, hl, hplace', hlive'⟩ := h' j hj
  exact ⟨l, hl, hplace'.trans hplace, fun hout => hlive' (hlive hout)⟩

theorem ItemsOnward.append {items items' : List BoxItemRow} (h : ItemsOnward items items')
    (new : List BoxItemRow) : ItemsOnward items (items' ++ new) := by
  intro i hi
  obtain ⟨j, hj, hkept⟩ := h i hi
  exact ⟨j, List.mem_append_left _ hj, hkept⟩

theorem itemsOnward_update {p : BoxItemRow → Bool} (f : BoxItemRow → BoxItemRow)
    (hplace : ∀ i, (f i).place = i.place) (hout : ∀ i, (f i).live = false)
    (items : List BoxItemRow) : ItemsOnward items (update p f items) := by
  intro i hi
  refine ⟨_, mem_update_of_mem hi, ?_⟩
  split
  · exact ⟨hplace i, fun _ => hout i⟩
  · exact ⟨rfl, id⟩

/-- The logs of a later moment start with those of the earlier one. -/
structure Db.Recorded (db db' : Db) : Prop where
  revision : db.revision ≤ db'.revision
  scans : db.scans <+: db'.scans
  codeConflicts : db.codeConflicts <+: db'.codeConflicts
  factReceipts : db.factReceipts <+: db'.factReceipts
  eventReceipts : db.eventReceipts <+: db'.eventReceipts
  items : ItemsOnward db.boxItems db'.boxItems

theorem Db.Recorded.refl (db : Db) : db.Recorded db :=
  ⟨le_rfl, List.prefix_rfl, List.prefix_rfl, List.prefix_rfl, List.prefix_rfl, .refl _⟩

theorem Db.Recorded.trans (h : db.Recorded db') (h' : db'.Recorded db'') : db.Recorded db'' where
  revision := h.revision.trans h'.revision
  scans := h.scans.trans h'.scans
  codeConflicts := h.codeConflicts.trans h'.codeConflicts
  factReceipts := h.factReceipts.trans h'.factReceipts
  eventReceipts := h.eventReceipts.trans h'.eventReceipts
  items := h.items.trans h'.items

theorem Scanned.recorded {row : ScanRow} (h : Scanned k now row db db') : db.Recorded db' := by
  have hdisplaced (scanId : String) :
      ItemsOnward db.boxItems (displaced scanId now db.boxItems) :=
    itemsOnward_update (fun i => { i with displacedAt := some now }) (fun _ => rfl)
      (fun i => by simp [BoxItemRow.live]) _
  have hscans : db.scans <+: db.scans ++ [row] := List.prefix_append _ _
  cases h with
  | noted => exact { Db.Recorded.refl db with scans := hscans }
  | imported => exact { Db.Recorded.refl db with scans := hscans }
  | late hash id o =>
    exact { Db.Recorded.refl db with
      scans := hscans
      codeConflicts := List.prefix_append _ _ }
  | took hash id o =>
    exact { Db.Recorded.refl db with
      scans := hscans
      codeConflicts := List.prefix_append _ _
      items := (hdisplaced o.scanId).append _ }
  | claimed hash =>
    exact { Db.Recorded.refl db with
      scans := hscans
      items := (ItemsOnward.refl _).append _ }

theorem Written.recorded (h : Written k now db db') : db.Recorded db' := by
  have hremoved (p : BoxItemRow → Bool) (instant : String) : ItemsOnward db.boxItems
      (update p (fun i => { i with removedAt := some instant }) db.boxItems) :=
    itemsOnward_update (fun i => { i with removedAt := some instant }) (fun _ => rfl)
      (fun i => by simp [BoxItemRow.live]) _
  cases h with
  | aside hle => exact { Db.Recorded.refl db with revision := hle }
  | takeOut instant scanId => exact { Db.Recorded.refl db with items := hremoved _ instant }
  | emptyBox boxId instant => exact { Db.Recorded.refl db with items := hremoved _ instant }
  | closePallet ctx c =>
    rw [Db.closePallet]
    split <;> exact { Db.Recorded.refl db with revision := le_rfl }
  | openShift => exact { Db.Recorded.refl db with revision := Nat.le_succ _ }
  | join => exact { Db.Recorded.refl db with revision := Nat.le_succ _ }
  | rejoin => exact { Db.Recorded.refl db with revision := Nat.le_succ _ }
  | _ => exact { Db.Recorded.refl db with revision := le_rfl }

theorem Change.recorded (h : Change k now db db') : db.Recorded db' := by
  cases h with
  | scanned h => exact h.recorded
  | written h => exact h.recorded
  | filed h =>
    cases h with
    | fact row => exact { Db.Recorded.refl db with factReceipts := List.prefix_append _ _ }
    | event row => exact { Db.Recorded.refl db with eventReceipts := List.prefix_append _ _ }

/-- **Nothing recorded is taken back.** After every run of requests from every tables, the logs of
scans, conflicts and receipts start with what they were, the revision is not lower, and each item is
where it was put, out of its box if it was. -/
theorem records_stay (k : Crates) (db : Db) (calls : List Call) : db.Recorded (run k db calls) :=
  run_invariant (P := db.Recorded) (fun hc h => h.trans hc.recorded) (.refl db) calls

/-! ## Closed packs -/

/-- The closed packs of a table are among those of a later one. -/
def Sealed (parcels parcels' : List Parcel) : Prop := ∀ x ∈ parcels, x.closed = true → x ∈ parcels'

/-- The closed boxes and pallets of a later moment: those of the earlier one, with their labels. -/
structure Db.Sealed (db db' : Db) : Prop where
  boxes : Markiro.Sealed (db.boxes.map BoxRow.parcel) (db'.boxes.map BoxRow.parcel)
  pallets : Markiro.Sealed (db.pallets.map PalletRow.parcel) (db'.pallets.map PalletRow.parcel)
  warehousePallets : Markiro.Sealed (db.warehousePallets.map WarehousePalletRow.parcel)
    (db'.warehousePallets.map WarehousePalletRow.parcel)

theorem Db.Sealed.refl (db : Db) : db.Sealed db :=
  ⟨fun _ hx _ => hx, fun _ hx _ => hx, fun _ hx _ => hx⟩

theorem Db.Sealed.trans (h : db.Sealed db') (h' : db'.Sealed db'') : db.Sealed db'' where
  boxes x hx hc := h'.boxes x (h.boxes x hx hc) hc
  pallets x hx hc := h'.pallets x (h.pallets x hx hc) hc
  warehousePallets x hx hc := h'.warehousePallets x (h.warehousePallets x hx hc) hc

section Tables

variable {α : Type} {f : α → Parcel} {g : α → α} {p : α → Bool} {rows : List α}

theorem sealed_of_eq {parcels parcels' : List Parcel} (h : parcels' = parcels) :
    Sealed parcels parcels' := fun _ hx _ => h ▸ hx

theorem sealed_append (new : α) : Sealed (rows.map f) ((rows ++ [new]).map f) := by
  intro x hx _
  rw [List.map_append]
  exact List.mem_append_left _ hx

theorem sealed_of_kept {rows' : List α} (hkept : ∀ x ∈ rows, p x = false → x ∈ rows')
    (h : ∀ x ∈ rows, p x = true → (f x).closed = false) :
    Sealed (rows.map f) (rows'.map f) := by
  intro x hx hc
  obtain ⟨r, hr, rfl⟩ := List.mem_map.1 hx
  refine List.mem_map_of_mem (hkept r hr ?_)
  cases hp : p r with
  | false => rfl
  | true =>
    rw [h r hr hp] at hc
    cases hc

theorem sealed_update (h : ∀ x ∈ rows, p x = true → (f x).closed = false) :
    Sealed (rows.map f) ((update p g rows).map f) :=
  sealed_of_kept (fun _ hr hp => Table.mem_update_of_not hr hp) h

theorem sealed_delete (h : ∀ x ∈ rows, p x = true → (f x).closed = false) :
    Sealed (rows.map f) ((Table.delete p rows).map f) :=
  sealed_of_kept (fun _ hr hp => Table.mem_delete.2 ⟨hr, hp⟩) h

theorem open_of_id {extension : ℕ} {x : α} (h : Parcels extension (rows.map f)) (hx : x ∈ rows)
    (hopen : (f x).closed = false) : ∀ y ∈ rows, (f y).id = (f x).id → (f y).closed = false := by
  intro y hy hid
  rw [h.ids.eq (List.mem_map_of_mem hy) (List.mem_map_of_mem hx) hid]
  exact hopen

end Tables

theorem Written.sealed (h : Written k now db db') (hi : db.Labelled) : db.Sealed db' := by
  cases h with
  | openBox x => exact { Db.Sealed.refl db with boxes := sealed_append x }
  | closeBox ctx c digestMatches x _ _ hx _ _ hsscc =>
    have hmem := List.mem_of_find?_eq_some hx
    have hid : x.id = c.boxId := by simpa using List.find?_some hx
    have hopen := hi.ofBoxes.unlabelled _ (List.mem_map_of_mem hmem) hsscc
    refine { Db.Sealed.refl db with boxes := ?_ }
    show Sealed _ ((Db.touchBox _ _ _).boxes.map BoxRow.parcel)
    rw [Db.touchBox, touch_parcels]
    refine sealed_update fun y hy hp => open_of_id hi.ofBoxes hmem hopen y hy ?_
    exact (of_decide_eq_true hp).trans hid.symm
  | labelBox l =>
    refine { Db.Sealed.refl db with boxes := sealed_of_eq (Table.map_update fun x _ => ?_) }
    rw [BoxRow.label]
    split <;> rfl
  | disassembleBox =>
    exact { Db.Sealed.refl db with
      boxes := sealed_of_eq ((touch_parcels _ _ _).trans (Table.map_update fun _ _ => rfl)) }
  | openPallet ctx id openedAt =>
    exact { Db.Sealed.refl db with pallets := sealed_append (ctx.newPallet id openedAt) }
  | closePallet ctx c _ hfound =>
    rw [Db.closePallet]
    split
    · next hany =>
      obtain ⟨x, hx⟩ := Option.isSome_iff_exists.1 (List.find?_isSome.2 (List.any_eq_true.1 hany))
      have hmem := List.mem_of_find?_eq_some hx
      have hid : x.id = c.palletId := by simpa using List.find?_some hx
      have hopen := hi.ofPallets.unlabelled _ (List.mem_map_of_mem hmem) (hfound x hx).2.2
      refine { Db.Sealed.refl db with
        boxes := sealed_of_eq (touch_parcels _ _ _)
        pallets := sealed_update fun y hy hp => open_of_id hi.ofPallets hmem hopen y hy ?_ }
      exact (of_decide_eq_true hp).trans hid.symm
    · exact { Db.Sealed.refl db with
        boxes := sealed_of_eq (touch_parcels _ _ _)
        pallets := sealed_append _ }
  | labelPallet l =>
    refine { Db.Sealed.refl db with pallets := sealed_of_eq (Table.map_update fun x _ => ?_) }
    rw [PalletRow.label]
    split <;> rfl
  | disassemblePallet =>
    exact { Db.Sealed.refl db with
      boxes := sealed_of_eq (touch_parcels _ _ _)
      pallets := sealed_of_eq (Table.map_update fun _ _ => rfl) }
  | openWarehousePallet x =>
    exact { Db.Sealed.refl db with warehousePallets := sealed_append x }
  | dropDraft x hx hopen =>
    refine { Db.Sealed.refl db with warehousePallets := sealed_delete fun y hy hp => ?_ }
    refine open_of_id hi.ofWarehousePallets hx ?_ y hy (of_decide_eq_true hp)
    rw [WarehousePalletRow.parcel, hopen]
    rfl
  | addStay => exact { Db.Sealed.refl db with boxes := sealed_of_eq (touch_parcels _ _ _) }
  | endStay => exact { Db.Sealed.refl db with boxes := sealed_of_eq (touch_parcels _ _ _) }
  | closeWarehousePallet ctx c x hx hopen =>
    have hmem := List.mem_of_find?_eq_some hx
    have hfound := List.find?_some hx
    simp only [decide_eq_true_eq] at hfound
    refine { Db.Sealed.refl db with
      boxes := sealed_of_eq (touch_parcels _ _ _)
      warehousePallets := sealed_update fun y hy hp => ?_ }
    have hid := (of_decide_eq_true hp).trans hfound.1.symm
    refine open_of_id hi.ofWarehousePallets hmem ?_ y hy hid
    rw [WarehousePalletRow.parcel, hopen]
    rfl
  | disassembleWarehousePallet palletId instant p f hp hf =>
    refine { Db.Sealed.refl db with
      boxes := sealed_of_eq (touch_parcels _ _ _)
      warehousePallets := sealed_of_eq (Table.map_update fun x _ => ?_) }
    obtain ⟨h1, h2, -, h4, h5, h6, h7, -⟩ := hf x
    simp only [WarehousePalletRow.parcel, h1, h2, h4, h5, h6, h7]
  | createPallet x rev block pallet =>
    exact { Db.Sealed.refl db with
      boxes := sealed_of_eq (touch_parcels _ _ _)
      warehousePallets := sealed_append pallet }
  | _ => exact { Db.Sealed.refl db with boxes := fun _ hx _ => hx }

theorem Change.sealed (h : Change k now db db') (hi : db.Labelled) : db.Sealed db' := by
  cases h with
  | scanned h => cases h <;> exact { Db.Sealed.refl db with boxes := fun _ hx _ => hx }
  | written h => exact h.sealed hi
  | filed h => cases h <;> exact { Db.Sealed.refl db with boxes := fun _ hx _ => hx }

/-- **A label is for good.** After every run of requests from tables whose labels are of their
blocks' serials, a box or a pallet that was closed is still there, with the device, the SSCC, the
block and the serial it was closed with. -/
theorem labels_stay (k : Crates) (db : Db) (hl : db.Labelled) (calls : List Call) :
    db.Sealed (run k db calls) := by
  refine (run_invariant (P := fun s => s.Labelled ∧ db.Sealed s) ?_ ⟨hl, .refl db⟩ calls).2
  rintro now s s' hc ⟨hs, hsealed⟩
  exact ⟨hc.labelled hs, hsealed.trans (hc.sealed hs)⟩

/-- The box that was closed, after the station sends the same records again. -/
theorem labels_stay_sample :
    let s := run Crates.sample Sample.counted Sample.packed
    s.labels.map (·.sscc) = [some "046000000000000017"] ∧
      s.Sealed (run Crates.sample s Sample.packed) := by
  refine ⟨by decide +kernel, labels_stay _ _ ?_ _⟩
  have hempty : ∀ extension, Parcels extension [] := fun _ => ⟨List.nodup_nil, by simp, by simp⟩
  refine run_invariant (P := Db.Labelled) Change.labelled ?_ _
  exact ⟨hempty 0, hempty 1, hempty 1, List.nodup_nil,
    by simp [Sample.counted, Sample.site, labelsOf], List.nodup_nil,
    by simp [Sample.counted, Sample.site]⟩

end Markiro
