import Markiro.Host.Run

/-!
# A box stands on one pallet

A closed box is on a production pallet through its own row and on a warehouse pallet through a stay
under its SSCC. Stations, handhelds and the office write the two, each with a query of its own for a
box that is taken. `Standing` is what they keep: live stays of standing pallets, one a box, of the
box's product, and none of a box on a production pallet that stands.
-/

namespace Markiro

open Table (Unique update map_update delete mem_update)

/-! ## What the places are -/

/-- A box, as far as where it stands. -/
structure BoxPlace where
  id : String
  shiftId : String
  sscc : Option String
  palletId : Option String

def BoxRow.place (x : BoxRow) : BoxPlace := ⟨x.id, x.shiftId, x.sscc, x.palletId⟩

/-- A production pallet, standing or taken apart. -/
structure PalletPlace where
  id : String
  stands : Bool

def PalletRow.place (x : PalletRow) : PalletPlace := ⟨x.id, x.disassembledAt.isNone⟩

/-- A warehouse pallet of a product, standing or taken apart. -/
structure WarehousePlace where
  id : String
  productId : String
  isClosed : Bool
  stands : Bool

def WarehousePalletRow.place (x : WarehousePalletRow) : WarehousePlace :=
  ⟨x.id, x.productId, x.closedAt.isSome, x.disassembledAt.isNone⟩

def ShiftRow.product (s : ShiftRow) : String × String := (s.id, s.productId)

def productOf (products : List (String × String)) (shiftId : String) : Option String :=
  (products.find? fun x => x.1 = shiftId).map (·.2)

/-- The box of a stay: it has the stay's SSCC and the pallet's product, and it is on no production
pallet that stands while the stay lives. -/
structure BoxPlace.Stays (products : List (String × String)) (pallets : List PalletPlace)
    (w : StayRow) (productId : String) (x : BoxPlace) : Prop where
  sscc : x.sscc = some w.boxSscc
  product : productOf products x.shiftId = some productId
  loose : w.live = true → ∀ p ∈ pallets, x.palletId = some p.id → p.stands = false

def StayRow.Stands (products : List (String × String)) (boxes : List BoxPlace)
    (pallets : List PalletPlace) (warehousePallets : List WarehousePlace) (w : StayRow) : Prop :=
  ∃ y ∈ warehousePallets, y.id = w.palletId ∧ (w.live = true → y.stands = true) ∧
    ∃ x ∈ boxes, x.Stays products pallets w y.productId

structure Standing (products : List (String × String)) (boxes : List BoxPlace)
    (pallets : List PalletPlace) (warehousePallets : List WarehousePlace) (stays : List StayRow) :
    Prop where
  boxes_unique : Unique (·.id) boxes
  ssccs_unique : Table.UniqueSome (·.sscc) boxes
  pallets_unique : Unique (·.id) pallets
  warehouse_unique : Unique (·.id) warehousePallets
  placed : ∀ x ∈ boxes, ∀ id, x.palletId = some id → ∃ p ∈ pallets, p.id = id
  drafts_stand : ∀ y ∈ warehousePallets, y.isClosed = false → y.stands = true
  stay_stands : ∀ w ∈ stays, w.Stands products boxes pallets warehousePallets
  live_unique : Unique (·.boxSscc) (stays.filter StayRow.live)

def Db.Standing (db : Db) : Prop :=
  Markiro.Standing (db.shifts.map ShiftRow.product) (db.boxes.map BoxRow.place)
    (db.pallets.map PalletRow.place) (db.warehousePallets.map WarehousePalletRow.place) db.stays

namespace Standing

variable {products : List (String × String)} {boxes : List BoxPlace} {pallets : List PalletPlace}
  {warehousePallets : List WarehousePlace} {stays : List StayRow}

/-! ## Boxes and production pallets -/

theorem openBox (h : Standing products boxes pallets warehousePallets stays) {x : BoxPlace}
    (hid : ∀ y ∈ boxes, y.id ≠ x.id) (hsscc : x.sscc = none) (hpallet : x.palletId = none) :
    Standing products (boxes ++ [x]) pallets warehousePallets stays :=
  { h with
    boxes_unique := h.boxes_unique.append hid
    ssccs_unique := h.ssccs_unique.append_none hsscc
    placed := by
      intro y hy id hyid
      rcases List.mem_append.1 hy with hy | hy
      · exact h.placed y hy id hyid
      · rw [List.mem_singleton.1 hy, hpallet] at hyid
        cases hyid
    stay_stands := by
      intro w hw
      obtain ⟨y, hy, hyid, hstands, x, hx, hstays⟩ := h.stay_stands w hw
      exact ⟨y, hy, hyid, hstands, x, List.mem_append_left _ hx, hstays⟩ }

theorem openPallet (h : Standing products boxes pallets warehousePallets stays) {p : PalletPlace}
    (hid : ∀ y ∈ pallets, y.id ≠ p.id) :
    Standing products boxes (pallets ++ [p]) warehousePallets stays :=
  { h with
    pallets_unique := h.pallets_unique.append hid
    placed := by
      intro x hx id hxid
      obtain ⟨q, hq, hqid⟩ := h.placed x hx id hxid
      exact ⟨q, List.mem_append_left _ hq, hqid⟩
    stay_stands := by
      intro w hw
      obtain ⟨y, hy, hyid, hstands, x, hx, hsscc, hproduct, hloose⟩ := h.stay_stands w hw
      refine ⟨y, hy, hyid, hstands, x, hx, hsscc, hproduct, fun hl q hq hxq => ?_⟩
      rcases List.mem_append.1 hq with hq | hq
      · exact hloose hl q hq hxq
      · -- The box's own pallet was there before.
        rw [List.mem_singleton.1 hq] at hxq
        obtain ⟨r, hr, hrid⟩ := h.placed x hx p.id hxq
        exact absurd hrid (hid r hr) }

/-- Pallets are taken apart, and none stands again. -/
theorem takePallets (h : Standing products boxes pallets warehousePallets stays)
    {pallets' : List PalletPlace} (hids : pallets'.map (·.id) = pallets.map (·.id))
    (hstands : ∀ p ∈ pallets', p.stands = true → p ∈ pallets) :
    Standing products boxes pallets' warehousePallets stays :=
  { h with
    pallets_unique := by
      rw [Table.Unique, hids]
      exact h.pallets_unique
    placed := by
      intro x hx id hxid
      obtain ⟨q, hq, hqid⟩ := h.placed x hx id hxid
      have hmem : q.id ∈ pallets'.map (·.id) := by
        rw [hids]
        exact List.mem_map_of_mem hq
      obtain ⟨r, hr, hrid⟩ := List.mem_map.1 hmem
      exact ⟨r, hr, hrid.trans hqid⟩
    stay_stands := by
      intro w hw
      obtain ⟨y, hy, hyid, hst, x, hx, hsscc, hproduct, hloose⟩ := h.stay_stands w hw
      refine ⟨y, hy, hyid, hst, x, hx, hsscc, hproduct, fun hl q hq hxq => ?_⟩
      by_contra hne
      have hstand : q.stands = true := by simpa using hne
      rw [hloose hl q (hstands q hq hstand) hxq] at hstand
      cases hstand }

theorem closeBox (h : Standing products boxes pallets warehousePallets stays) {x : BoxPlace}
    (hx : x ∈ boxes) (hopen : x.sscc = none) {sscc : String} {palletId : Option String}
    (hnew : ∀ y ∈ boxes, y.sscc ≠ some sscc)
    (hpallet : ∀ id, palletId = some id → ∃ p ∈ pallets, p.id = id) :
    Standing products
      (update (fun y => y.id = x.id) (fun y => { y with sscc := some sscc, palletId }) boxes)
      pallets warehousePallets stays :=
  { h with
    boxes_unique := h.boxes_unique.update fun _ _ => rfl
    ssccs_unique := by
      have hperm := h.boxes_unique.perm_filterMap_update
        (f := fun y => { y with sscc := some sscc, palletId }) (g := (·.sscc)) hx hopen rfl
      rw [Table.UniqueSome, hperm.nodup_iff, List.nodup_cons]
      refine ⟨?_, h.ssccs_unique⟩
      rw [List.mem_filterMap]
      rintro ⟨y, hy, hys⟩
      exact hnew y hy hys
    placed := by
      intro y hy id hyid
      obtain ⟨z, hz, rfl⟩ := Table.mem_update.1 hy
      split at hyid
      · exact hpallet id hyid
      · exact h.placed z hz id hyid
    stay_stands := by
      intro w hw
      obtain ⟨y, hy, hyid, hst, z, hz, hstays⟩ := h.stay_stands w hw
      refine ⟨y, hy, hyid, hst, z, ?_, hstays⟩
      refine Table.mem_update_of_not hz ?_
      rw [decide_eq_false_iff_not]
      intro hid
      have hzx : z = x := h.boxes_unique.eq hz hx hid
      rw [hzx] at hstays
      rw [hstays.sscc] at hopen
      cases hopen }

/-! ## Warehouse pallets -/

theorem openWarehouse (h : Standing products boxes pallets warehousePallets stays)
    {y : WarehousePlace} (hid : ∀ x ∈ warehousePallets, x.id ≠ y.id) (hstands : y.stands = true) :
    Standing products boxes pallets (warehousePallets ++ [y]) stays :=
  { h with
    warehouse_unique := h.warehouse_unique.append hid
    drafts_stand := by
      intro x hx
      rcases List.mem_append.1 hx with hx | hx
      · exact h.drafts_stand x hx
      · rw [List.mem_singleton.1 hx]
        exact fun _ => hstands
    stay_stands := by
      intro w hw
      obtain ⟨x, hx, hrest⟩ := h.stay_stands w hw
      exact ⟨x, List.mem_append_left _ hx, hrest⟩ }

theorem dropWarehouse (h : Standing products boxes pallets warehousePallets stays)
    (palletId : String) :
    Standing products boxes pallets
      (delete (fun y => y.id = palletId) warehousePallets)
      (delete (fun w => w.palletId = palletId) stays) :=
  { h with
    warehouse_unique := h.warehouse_unique.delete
    drafts_stand := fun y hy => h.drafts_stand y (Table.mem_delete.1 hy).1
    stay_stands := by
      intro w hw
      obtain ⟨hw, hne⟩ := Table.mem_delete.1 hw
      obtain ⟨y, hy, hyid, hrest⟩ := h.stay_stands w hw
      refine ⟨y, Table.mem_delete.2 ⟨hy, ?_⟩, hyid, hrest⟩
      rw [hyid]
      exact hne
    live_unique := by
      refine h.live_unique.sublist (List.Sublist.map _ ?_)
      exact List.filter_sublist.filter _ }

theorem addStays (h : Standing products boxes pallets warehousePallets stays)
    {added : List StayRow}
    (hon : ∀ w ∈ added, w.Stands products boxes pallets warehousePallets)
    (hnodup : (added.map (·.boxSscc)).Nodup)
    (hfree : ∀ w ∈ added, ∀ v ∈ stays, v.live = true → v.boxSscc ≠ w.boxSscc) :
    Standing products boxes pallets warehousePallets (stays ++ added) :=
  { h with
    stay_stands := by
      intro w hw
      rcases List.mem_append.1 hw with hw | hw
      · exact h.stay_stands w hw
      · exact hon w hw
    live_unique := by
      rw [Table.Unique, List.filter_append, List.map_append, List.nodup_append]
      refine ⟨h.live_unique, hnodup.sublist (List.filter_sublist.map _), ?_⟩
      intro s hs t ht
      obtain ⟨v, hv, rfl⟩ := List.mem_map.1 hs
      obtain ⟨w, hw, rfl⟩ := List.mem_map.1 ht
      rw [List.mem_filter] at hv hw
      exact hfree w hw.1 v hv.1 hv.2 }

theorem live_sublist {p : StayRow → Bool} {instant : String} (stays : List StayRow) :
    ((update p (fun w => { w with removedAt := some instant }) stays).filter
      StayRow.live).Sublist (stays.filter StayRow.live) := by
  induction stays with
  | nil => exact List.Sublist.refl _
  | cons w rest ih =>
    rw [update, List.map_cons, ← update]
    by_cases hp : p w = true
    · rw [if_pos hp, List.filter_cons_of_neg (by simp [StayRow.live])]
      exact ih.trans ((List.sublist_cons_self w rest).filter _)
    · rw [if_neg hp]
      by_cases hl : w.live = true
      · rw [List.filter_cons_of_pos hl, List.filter_cons_of_pos hl]
        exact ih.cons_cons w
      · rw [List.filter_cons_of_neg hl, List.filter_cons_of_neg hl]
        exact ih

theorem endStays (h : Standing products boxes pallets warehousePallets stays)
    (p : StayRow → Bool) (instant : String) :
    Standing products boxes pallets warehousePallets
      (update p (fun w => { w with removedAt := some instant }) stays) :=
  { h with
    stay_stands := by
      intro w hw
      obtain ⟨v, hv, rfl⟩ := Table.mem_update.1 hw
      obtain ⟨y, hy, hyid, hst, x, hx, hstays⟩ := h.stay_stands v hv
      by_cases hp : p v = true
      · rw [if_pos hp]
        have hdead : ¬StayRow.live { v with removedAt := some instant } = true := by
          simp [StayRow.live]
        exact ⟨y, hy, hyid, fun hl => absurd hl hdead, x, hx, hstays.sscc, hstays.product,
          fun hl => absurd hl hdead⟩
      · rw [if_neg hp]
        exact ⟨y, hy, hyid, hst, x, hx, hstays⟩
    live_unique := h.live_unique.sublist ((live_sublist stays).map _) }

theorem updateWarehouse (h : Standing products boxes pallets warehousePallets stays)
    {p : WarehousePlace → Bool} {f : WarehousePlace → WarehousePlace}
    (hf : ∀ x ∈ warehousePallets, (f x).id = x.id ∧ (f x).productId = x.productId)
    (hdraft : ∀ x ∈ warehousePallets, p x = true → (f x).isClosed = false → (f x).stands = true)
    (hstands : ∀ x ∈ warehousePallets, p x = true → ∀ w ∈ stays, w.live = true →
      w.palletId = x.id → x.stands = true → (f x).stands = true) :
    Standing products boxes pallets (update p f warehousePallets) stays :=
  { h with
    warehouse_unique := by
      rw [Table.Unique, Table.map_update_mem fun x hx _ => (hf x hx).1]
      exact h.warehouse_unique
    drafts_stand := by
      intro y hy
      obtain ⟨x, hx, rfl⟩ := Table.mem_update.1 hy
      by_cases hp : p x = true
      · rw [if_pos hp]
        exact hdraft x hx hp
      · rw [if_neg hp]
        exact h.drafts_stand x hx
    stay_stands := by
      intro w hw
      obtain ⟨y, hy, hyid, hst, x, hx, hsscc, hproduct, hloose⟩ := h.stay_stands w hw
      refine ⟨_, Table.mem_update_of_mem hy, ?_⟩
      by_cases hp : p y = true
      · rw [if_pos hp]
        refine ⟨(hf y hy).1.trans hyid, fun hl => ?_, x, hx, hsscc, ?_, hloose⟩
        · exact hstands y hy hp w hw hl hyid.symm (hst hl)
        · rw [(hf y hy).2]
          exact hproduct
      · rw [if_neg hp]
        exact ⟨hyid, hst, x, hx, hsscc, hproduct, hloose⟩ }

end Standing

/-! ## Every change -/

section Writers

variable {k : Crates} {now : String} {db db' : Db}

theorem Db.Standing.of_eq {d : Db} (h : d.Standing)
    (hshifts : db'.shifts.map ShiftRow.product = d.shifts.map ShiftRow.product)
    (hboxes : db'.boxes.map BoxRow.place = d.boxes.map BoxRow.place)
    (hpallets : db'.pallets.map PalletRow.place = d.pallets.map PalletRow.place)
    (hwarehouse : db'.warehousePallets.map WarehousePalletRow.place =
      d.warehousePallets.map WarehousePalletRow.place)
    (hstays : db'.stays = d.stays) : db'.Standing := by
  rw [Db.Standing, hshifts, hboxes, hpallets, hwarehouse, hstays]
  exact h

theorem touch_places (p : BoxRow → Bool) (now : String) (db : Db) :
    (db.touch p now).boxes.map BoxRow.place = db.boxes.map BoxRow.place :=
  map_update fun _ _ => rfl

theorem find?_product {shifts : List ShiftRow} {id : String} {s : ShiftRow}
    (h : shifts.find? (fun s => s.id = id) = some s) :
    productOf (shifts.map ShiftRow.product) id = some s.productId := by
  have hcomp : ((fun x : String × String => decide (x.1 = id)) ∘ ShiftRow.product) =
      fun s : ShiftRow => decide (s.id = id) := rfl
  rw [productOf, List.find?_map, hcomp, h]
  rfl

theorem Db.Loose.stays {w : StayRow} {productId : String} (h : db.Loose w.boxSscc productId)
    (hs : db.Standing) :
    ∃ x ∈ db.boxes.map BoxRow.place,
      x.Stays (db.shifts.map ShiftRow.product) (db.pallets.map PalletRow.place) w productId := by
  obtain ⟨x, s, hx, -, hsh, rfl, hpallet⟩ := h
  refine ⟨x.place, List.mem_map_of_mem (List.mem_of_find?_eq_some hx), ?_, find?_product hsh, ?_⟩
  · have hsscc := List.find?_some hx
    exact of_decide_eq_true hsscc
  · intro _ p hp hxp
    obtain ⟨q, hq, rfl⟩ := List.mem_map.1 hp
    have hunique : Unique (·.id) db.pallets := by
      have h := hs.pallets_unique
      rwa [Table.Unique, List.map_map] at h
    have hfind : db.palletOf x = some q := by
      rw [Db.palletOf, show x.palletId = some q.id from hxp, Option.bind_some]
      exact hunique.find? hq
    have hne := hpallet q hfind
    show q.disassembledAt.isNone = false
    simpa [Option.isNone_eq_false_iff, Option.isSome_iff_ne_none] using hne

theorem mem_places {α β : Type} {f : α → β} {g : β → String} {id : String} {rows : List α}
    (h : ∀ y ∈ rows, g (f y) ≠ id) : ∀ y ∈ rows.map f, g y ≠ id := by
  intro y hy
  obtain ⟨z, hz, rfl⟩ := List.mem_map.1 hy
  exact h z hz

theorem Db.Standing.closeBox {ctx : Context} {c : BoxClosedFact} {digestMatches : Bool}
    {x : BoxRow} (h : db.Standing) (hx : db.boxes.find? (fun x => x.id = c.boxId) = some x)
    (hsscc : x.sscc = none) (htaken : db.boxTaken c.sscc c.blockId c.serial = false)
    (hpallet : ∀ id, c.palletId = some id → ∃ p ∈ db.pallets, p.id = id) :
    Db.Standing { db with
      boxes := update (fun x => x.id = c.boxId) (c.closeBox ctx digestMatches) db.boxes } := by
  have hmem := List.mem_map_of_mem (f := BoxRow.place) (List.mem_of_find?_eq_some hx)
  have hid : x.id = c.boxId := by simpa using List.find?_some hx
  have hrows : (update (fun x => decide (x.id = c.boxId)) (c.closeBox ctx digestMatches)
      db.boxes).map BoxRow.place = update (fun y => y.id = x.place.id)
        (fun y => { y with sscc := some c.sscc, palletId := c.palletId })
        (db.boxes.map BoxRow.place) := by
    refine Table.map_update_comm (fun y => ?_) fun y _ => rfl
    rw [show x.place.id = c.boxId from hid]
    rfl
  show Markiro.Standing _ ((update _ _ db.boxes).map BoxRow.place) _ _ _
  rw [hrows]
  refine Markiro.Standing.closeBox h hmem hsscc ?_ ?_
  · intro y hy hys
    obtain ⟨z, hz, rfl⟩ := List.mem_map.1 hy
    rw [Db.boxTaken, List.any_eq_false] at htaken
    refine htaken z hz ?_
    rw [decide_eq_true_eq]
    exact .inl hys
  · intro id hc
    obtain ⟨p, hp, hpid⟩ := hpallet id hc
    exact ⟨p.place, List.mem_map_of_mem hp, hpid⟩

theorem Db.Standing.disassembleWarehouse {palletId instant : String}
    {p : WarehousePalletRow → Bool} {f : WarehousePalletRow → WarehousePalletRow}
    (h : db.Standing) (hp : ∀ x, p x = true ↔ x.id = palletId ∧ x.disassembledAt = none)
    (hf : ∀ x, WarehousePalletRow.TakenApart x (f x) instant) (hclosed : db.HasClosed palletId) :
    (Db.endStays palletId instant { db with
      warehousePallets := update p f db.warehousePallets }).Standing := by
  have hrows : (update p f db.warehousePallets).map WarehousePalletRow.place =
      update (fun y => decide (y.id = palletId) && y.stands)
        (fun y => { y with stands := false })
        (db.warehousePallets.map WarehousePalletRow.place) := by
    refine Table.map_update_comm (fun x => ?_) fun x _ => ?_
    · rw [Bool.eq_iff_iff, hp, Bool.and_eq_true, decide_eq_true_eq]
      exact and_congr_right fun _ => Option.isNone_iff_eq_none
    · obtain ⟨h1, -, h3, h4, -, -, -, h8⟩ := hf x
      simp only [WarehousePalletRow.place, h1, h3, h4, h8, Option.isNone_some]
  show Markiro.Standing _ _ _ ((update p f db.warehousePallets).map WarehousePalletRow.place)
    (update _ _ db.stays)
  rw [hrows]
  refine (Standing.endStays h _ instant).updateWarehouse (fun _ _ => ⟨rfl, rfl⟩) ?_ ?_
  · intro y hy hpy hopen
    -- The row of the id is the closed one.
    obtain ⟨x, hx, hxid, hxc⟩ := hclosed
    simp only [Bool.and_eq_true, decide_eq_true_eq] at hpy
    have heq : y = x.place :=
      h.warehouse_unique.eq hy (List.mem_map_of_mem hx) (hpy.1.trans hxid.symm)
    rw [heq] at hopen
    have hopen : x.closedAt.isSome = false := hopen
    exact absurd (by simpa using hopen) hxc
  · intro y _ hpy w hw hl hwy
    simp only [Bool.and_eq_true, decide_eq_true_eq] at hpy
    obtain ⟨v, hv, rfl⟩ := Table.mem_update.1 hw
    by_cases hpv : v.palletId = palletId ∧ v.live = true
    · rw [if_pos (by simpa using hpv)] at hl
      simp [StayRow.live] at hl
    · rw [if_neg (by simpa using hpv)] at hl hwy
      exact absurd ⟨hwy.trans hpy.1, hl⟩ hpv

theorem Db.Standing.closeWarehouse {ctx : EventContext} {c : PalletClosedFact} (h : db.Standing) :
    Db.Standing { db with
      warehousePallets := update (fun x => x.id = c.palletId) (c.closeWarehousePallet ctx)
        db.warehousePallets } := by
  have hrows : (update (fun x => decide (x.id = c.palletId)) (c.closeWarehousePallet ctx)
      db.warehousePallets).map WarehousePalletRow.place =
      update (fun y => y.id = c.palletId) (fun y => { y with isClosed := true })
        (db.warehousePallets.map WarehousePalletRow.place) :=
    Table.map_update_comm (fun _ => rfl) fun _ _ => rfl
  show Markiro.Standing _ _ _ ((update _ _ db.warehousePallets).map WarehousePalletRow.place) _
  rw [hrows]
  refine Standing.updateWarehouse h (fun _ _ => ⟨rfl, rfl⟩) ?_ ?_
  · intro y _ _ hopen
    cases hopen
  · intro y _ _ w _ _ _ hstands
    exact hstands

theorem Written.standing (h : Written k now db db') (hi : db.Standing) : db'.Standing := by
  cases h with
  | openBox x hnew hid =>
    show Markiro.Standing _ ((db.boxes ++ [x]).map BoxRow.place) _ _ _
    rw [List.map_append]
    exact Standing.openBox hi (mem_places hid) hnew.sscc hnew.palletId
  | closeBox ctx c digestMatches x _ _ hx _ _ hsscc _ htaken hpallet =>
    exact (hi.closeBox hx hsscc htaken hpallet).of_eq rfl (touch_places _ _ _) rfl rfl rfl
  | labelBox l =>
    refine hi.of_eq rfl (map_update fun x _ => ?_) rfl rfl rfl
    rw [BoxRow.label]
    split <;> rfl
  | disassembleBox boxId instant p hp =>
    exact hi.of_eq rfl ((touch_places _ _ _).trans (map_update fun _ _ => rfl)) rfl rfl rfl
  | openPallet ctx id openedAt _ hid =>
    show Markiro.Standing _ _ ((db.pallets ++ [_]).map PalletRow.place) _ _
    rw [List.map_append]
    exact Standing.openPallet hi (mem_places hid)
  | closePallet ctx c _ hfound hissued hpallet hwarehouse =>
    rw [Db.closePallet]
    split
    · exact hi.of_eq rfl (touch_places _ _ _) (map_update fun _ _ => rfl) rfl rfl
    · next hany =>
      have hid : ∀ y ∈ db.pallets, y.id ≠ c.palletId := by simpa using hany
      refine Db.Standing.of_eq (d := { db with
        pallets := db.pallets ++ [c.closePallet ctx (ctx.newPallet c.palletId c.openedAt)] }) ?_
        rfl (touch_places _ _ _) rfl rfl rfl
      show Markiro.Standing _ _ ((db.pallets ++ [_]).map PalletRow.place) _ _
      rw [List.map_append]
      exact Standing.openPallet hi (mem_places hid)
  | labelPallet l =>
    refine hi.of_eq rfl rfl (map_update fun x _ => ?_) rfl rfl
    rw [PalletRow.label]
    split <;> rfl
  | disassemblePallet palletId instant p hp =>
    refine Db.Standing.of_eq (d := { db with
      pallets := update p (fun x => { x with disassembledAt := some instant }) db.pallets }) ?_
      rfl (touch_places _ _ _) rfl rfl rfl
    refine Standing.takePallets hi ?_ ?_
    · rw [List.map_map, List.map_map]
      exact map_update fun _ _ => rfl
    · intro q hq hstands
      obtain ⟨y, hy, rfl⟩ := List.mem_map.1 hq
      obtain ⟨z, hz, rfl⟩ := Table.mem_update.1 hy
      by_cases hpz : p z = true
      · rw [if_pos hpz] at hstands
        cases hstands
      · rw [if_neg hpz]
        exact List.mem_map_of_mem hz
  | openWarehousePallet x hclosed _ _ _ hstands hid =>
    show Markiro.Standing _ _ _ ((db.warehousePallets ++ [x]).map WarehousePalletRow.place) _
    rw [List.map_append]
    refine Standing.openWarehouse hi (mem_places hid) ?_
    show x.disassembledAt.isNone = true
    rw [hstands]
    rfl
  | dropDraft x hx hopen =>
    have hrows : (delete (fun y => decide (y.id = x.id)) db.warehousePallets).map
        WarehousePalletRow.place = delete (fun y => decide (y.id = x.id))
          (db.warehousePallets.map WarehousePalletRow.place) := by
      rw [delete, delete, List.filter_map]
      rfl
    show Markiro.Standing _ _ _ ((delete _ db.warehousePallets).map WarehousePalletRow.place) _
    rw [hrows]
    exact Standing.dropWarehouse hi x.id
  | addStay w x hlive hx hid hopen hloose hfree =>
    refine Db.Standing.of_eq (d := { db with stays := db.stays ++ [w] }) ?_ rfl (touch_places _ _ _)
      rfl rfl rfl
    refine Standing.addStays hi ?_ (by simp) ?_
    · intro v hv
      obtain rfl := List.mem_singleton.1 hv
      have hxm := List.mem_map_of_mem (f := WarehousePalletRow.place) hx
      refine ⟨x.place, hxm, hid, fun _ => hi.drafts_stand _ hxm ?_, hloose.stays hi⟩
      show x.closedAt.isSome = false
      rw [hopen]
      rfl
    · intro v hv
      obtain rfl := List.mem_singleton.1 hv
      exact hfree
  | endStay palletId boxSscc instant =>
    refine Db.Standing.of_eq (d := db.endStay palletId boxSscc instant) ?_ rfl (touch_places _ _ _)
      rfl rfl rfl
    exact Standing.endStays hi _ instant
  | closeWarehousePallet ctx c =>
    exact Db.Standing.of_eq hi.closeWarehouse rfl (touch_places _ _ _) rfl rfl rfl
  | disassembleWarehousePallet palletId instant p f hp hf hclosed =>
    exact (hi.disassembleWarehouse hp hf hclosed).of_eq rfl (touch_places _ _ _) rfl rfl rfl
  | createPallet x rev block pallet stays _ _ hblock hid hpallet hsscc hstands hnew hon hnodup
      hfree =>
    refine Db.Standing.of_eq (d := { db with
      warehousePallets := db.warehousePallets ++ [pallet], stays := db.stays ++ stays }) ?_ rfl
      (touch_places _ _ _) rfl rfl rfl
    have hstands : pallet.place.stands = true := by
      show pallet.disassembledAt.isNone = true
      rw [hstands]
      rfl
    have hopened := Standing.openWarehouse hi (y := pallet.place) (mem_places hnew) hstands
    show Markiro.Standing _ _ _ ((db.warehousePallets ++ [pallet]).map WarehousePalletRow.place) _
    rw [List.map_append]
    refine hopened.addStays ?_ hnodup hfree
    intro w hw
    obtain ⟨hwid, -, hloose⟩ := hon w hw
    exact ⟨pallet.place, by simp, hwid.symm, fun _ => hstands, hloose.stays hi⟩
  | openShift => exact hi.of_eq (map_update fun _ _ => rfl) rfl rfl rfl rfl
  | closeLast => exact hi.of_eq (map_update fun _ _ => rfl) rfl rfl rfl rfl
  | closeByOffice => exact hi.of_eq (map_update fun _ _ => rfl) rfl rfl rfl rfl
  | markShift p f hf =>
    refine hi.of_eq (map_update fun s _ => ?_) rfl rfl rfl rfl
    rw [hf s]
    rfl
  | _ => exact hi

theorem Change.standing (h : Change k now db db') (hi : db.Standing) : db'.Standing := by
  cases h with
  | scanned h => cases h <;> exact hi
  | written h => exact h.standing hi
  | filed h => cases h <;> exact hi

end Writers

/-! ## Every run -/

theorem productOf_some {shifts : List ShiftRow} {shiftId productId : String}
    (h : productOf (shifts.map ShiftRow.product) shiftId = some productId) :
    ∃ s, shifts.find? (fun s => s.id = shiftId) = some s ∧ s.productId = productId := by
  have hcomp : ((fun x : String × String => decide (x.1 = shiftId)) ∘ ShiftRow.product) =
      fun s : ShiftRow => decide (s.id = shiftId) := rfl
  rw [productOf, List.find?_map, hcomp, Option.map_map, Option.map_eq_some_iff] at h
  exact h

/-- **A box stands on one pallet, of its own product.** From no boxes, pallets and stays, after every
run of requests, a live stay is on a warehouse pallet that is not taken apart; and a closed box is
not at once on a production pallet that stands and in a live stay, is in at most one live stay, and
is of the product of every warehouse pallet it has a stay on. -/
theorem box_stands_once (k : Crates) (db : Db) (calls : List Call) :
    let s := run k { db with boxes := [], pallets := [], warehousePallets := [], stays := [] } calls
    (∀ w ∈ s.stays, w.live = true →
      ∃ y ∈ s.warehousePallets, y.id = w.palletId ∧ y.disassembledAt = none) ∧
    ∀ x ∈ s.boxes, ∀ sscc, x.sscc = some sscc →
      ¬((∃ p ∈ s.pallets, x.palletId = some p.id ∧ p.disassembledAt = none) ∧
        ∃ w ∈ s.stays, w.boxSscc = sscc ∧ w.live = true) ∧
      s.stays.countP (fun w => w.live && decide (w.boxSscc = sscc)) ≤ 1 ∧
      ∀ w ∈ s.stays, w.boxSscc = sscc → ∀ y ∈ s.warehousePallets, y.id = w.palletId →
        ∃ sh, s.shifts.find? (fun sh => sh.id = x.shiftId) = some sh ∧ sh.productId = y.productId := by
  intro s
  have h : s.Standing := by
    refine run_invariant (P := Db.Standing) Change.standing ?_ calls
    exact ⟨List.nodup_nil, List.nodup_nil, List.nodup_nil, List.nodup_nil, by simp, by simp, by simp,
      List.nodup_nil⟩
  -- The box of a stay is the box with its SSCC.
  have hbox : ∀ x ∈ s.boxes, ∀ w ∈ s.stays, x.sscc = some w.boxSscc →
      ∃ y ∈ s.warehousePallets, y.id = w.palletId ∧ (w.live = true → y.disassembledAt = none) ∧
        x.place.Stays (s.shifts.map ShiftRow.product) (s.pallets.map PalletRow.place) w
          y.productId := by
    intro x hx w hw hsscc
    obtain ⟨y', hy', hyid, hst, x', hx', hstays⟩ := h.stay_stands w hw
    obtain ⟨y, hy, rfl⟩ := List.mem_map.1 hy'
    have heq : x' = x.place :=
      h.ssccs_unique.eq hx' (List.mem_map_of_mem hx) hstays.sscc hsscc
    refine ⟨y, hy, hyid, fun hl => ?_, heq ▸ hstays⟩
    exact Option.isNone_iff_eq_none.1 (hst hl)
  refine ⟨?_, fun x hx sscc hsscc => ⟨?_, ?_, ?_⟩⟩
  · intro w hw hl
    obtain ⟨y', hy', hyid, hst, -⟩ := h.stay_stands w hw
    obtain ⟨y, hy, rfl⟩ := List.mem_map.1 hy'
    exact ⟨y, hy, hyid, Option.isNone_iff_eq_none.1 (hst hl)⟩
  · rintro ⟨⟨p, hp, hxp, hstands⟩, w, hw, rfl, hl⟩
    obtain ⟨_, _, _, _, hstays⟩ := hbox x hx w hw hsscc
    have := hstays.loose hl p.place (List.mem_map_of_mem hp) hxp
    rw [PalletRow.place, hstands] at this
    cases this
  · have hle := h.live_unique.countP_le_one (q := fun w => decide (w.boxSscc = sscc))
      fun w _ v _ hw hv => by
        rw [decide_eq_true_eq] at hw hv
        rw [hw, hv]
    rw [List.countP_filter] at hle
    simpa only [Bool.and_comm] using hle
  · rintro w hw rfl y hy hyid
    obtain ⟨z, hz, hzid, _, hstays⟩ := hbox x hx w hw hsscc
    have hunique : Unique (·.id) s.warehousePallets := by
      have hu := h.warehouse_unique
      rwa [Table.Unique, List.map_map] at hu
    rw [hunique.eq hy hz (hyid.trans hzid.symm)]
    exact productOf_some hstays.product

end Markiro
