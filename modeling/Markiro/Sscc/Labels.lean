import Markiro.Sscc.Blocks

/-!
# One serial, one label

Boxes, production pallets and warehouse pallets are closed in three tables, each with an SSCC of a
serial of a block. The tables are unique by SSCC text and by block and serial, each on its own.
`Labelled` is what the closes keep over the three; with the blocks apart (`Db.Handed`), no two labels
start with the same 17 digits.
-/

namespace Markiro

open Table (Unique update delete map_update)

/-! ## Labels -/

/-- What a closed box or pallet has on its label, and where it is from. -/
structure Label where
  extension : ℕ
  deviceId : String
  sscc : Option String
  blockId : Option String
  serial : Option ℕ

/-- A box or a pallet, as far as its label. -/
structure Parcel where
  id : String
  closed : Bool
  label : Label

def BoxRow.parcel (x : BoxRow) : Parcel :=
  ⟨x.id, x.closedAt.isSome, ⟨0, x.deviceId, x.sscc, x.blockId, x.serial⟩⟩

def PalletRow.parcel (x : PalletRow) : Parcel :=
  ⟨x.id, x.closedAt.isSome, ⟨1, x.deviceId, x.sscc, x.blockId, x.serial⟩⟩

def WarehousePalletRow.parcel (x : WarehousePalletRow) : Parcel :=
  ⟨x.id, x.closedAt.isSome, ⟨1, x.deviceId, x.sscc, x.blockId, x.serial⟩⟩

def Parcel.printed (x : Parcel) : Option Label := if x.closed then some x.label else none

/-- The labels of the closed packs of three tables. -/
def labelsOf (boxes pallets warehousePallets : List Parcel) : List Label :=
  boxes.filterMap Parcel.printed ++ (pallets.filterMap Parcel.printed ++
    warehousePallets.filterMap Parcel.printed)

def Db.labels (db : Db) : List Label :=
  labelsOf (db.boxes.map BoxRow.parcel) (db.pallets.map PalletRow.parcel)
    (db.warehousePallets.map WarehousePalletRow.parcel)

/-- The label is that of a serial of the block, which was issued to the pack's device. -/
def Label.IsOf (b : BlockRow) (l : Label) : Prop :=
  ∃ sscc serial, l = ⟨b.extension, b.deviceId, some sscc, some b.id, some serial⟩ ∧
    b.fromSerial ≤ serial ∧ serial ≤ b.toSerial ∧
    sscc.toList.take 17 = ssccBody b.extension b.issuerPrefix serial

def usedOf (b : BlockRow) (labels : List Label) : Set ℕ :=
  {n | ∃ l ∈ labels, l.blockId = some b.id ∧ l.serial = some n}

structure BlockRow.Consumed (b : BlockRow) (labels : List Label) : Prop where
  unused : b.consumedThrough = none → usedOf b labels = ∅
  greatest : ∀ n, b.consumedThrough = some n → IsGreatest (usedOf b labels) n

/-- Each label is of a serial of a block, each serial is on one label, and each block knows the
greatest of its own. -/
structure Used (blocks : List BlockRow) (labels : List Label) : Prop where
  ids : Unique (·.id) blocks
  placed : ∀ l ∈ labels, ∃ b ∈ blocks, l.IsOf b
  serials : Unique (fun l => (l.blockId, l.serial)) labels
  consumed : ∀ b ∈ blocks, b.Consumed labels

namespace Used

variable {blocks : List BlockRow} {labels labels' : List Label} {b : BlockRow} {l : Label}

theorem perm (h : Used blocks labels) (hp : labels.Perm labels') : Used blocks labels' := by
  have hused : ∀ b, usedOf b labels' = usedOf b labels := by
    intro b
    ext n
    simp only [usedOf, Set.mem_ofPred_eq, hp.mem_iff]
  refine ⟨h.ids, fun l hl => h.placed l (hp.mem_iff.2 hl), h.serials.perm hp, fun b hb => ?_⟩
  obtain ⟨hunused, hgreatest⟩ := h.consumed b hb
  exact ⟨by rwa [hused], by rwa [hused]⟩

theorem issue (h : Used blocks labels) (hid : ∀ x ∈ blocks, x.id ≠ b.id)
    (hb : b.consumedThrough = none) : Used (blocks ++ [b]) labels where
  ids := h.ids.append hid
  placed := by
    intro l hl
    obtain ⟨x, hx, hof⟩ := h.placed l hl
    exact ⟨x, List.mem_append_left _ hx, hof⟩
  serials := h.serials
  consumed := by
    intro x hx
    rcases List.mem_append.1 hx with hx | hx
    · exact h.consumed x hx
    · obtain rfl := List.mem_singleton.1 hx
      refine ⟨fun _ => ?_, fun n hn => by simp [hb] at hn⟩
      -- A label of the new block would be of an old one with the same id.
      ext n
      simp only [usedOf, Set.mem_ofPred_eq, Set.mem_empty_iff_false, iff_false]
      rintro ⟨l, hl, hblock, -⟩
      obtain ⟨y, hy, sscc, serial, rfl, -⟩ := h.placed l hl
      exact hid y hy (Option.some.inj hblock)

theorem isOf_consume {serial : ℕ} (h : l.IsOf b) : l.IsOf (b.consume serial) := h

theorem usedOf_cons (x : BlockRow) (serial : ℕ) (hblock : l.blockId = some b.id)
    (hserial : l.serial = some serial) :
    usedOf x (l :: labels) = if x.id = b.id then Insert.insert serial (usedOf x labels)
      else usedOf x labels := by
  ext n
  by_cases hx : x.id = b.id
  · simp [usedOf, hx, hblock, hserial, eq_comm]
  · have hne : b.id ≠ x.id := fun h => hx h.symm
    simp [usedOf, hx, hblock, hne]

theorem consumed_cons {serial : ℕ} (h : b.Consumed labels) (hblock : l.blockId = some b.id)
    (hserial : l.serial = some serial) : (b.consume serial).Consumed (l :: labels) := by
  have hset : usedOf (b.consume serial) (l :: labels) = Insert.insert serial (usedOf b labels) := by
    rw [usedOf_cons (b := b) _ serial hblock hserial]
    exact if_pos rfl
  refine ⟨fun hn => by simp [BlockRow.consume] at hn, fun n hn => ?_⟩
  rw [hset]
  simp only [BlockRow.consume, Option.some.injEq] at hn
  subst hn
  cases hc : b.consumedThrough with
  | none =>
    rw [h.unused hc]
    simp
  | some m =>
    have hg := h.greatest m hc
    rw [Option.getD_some, max_comm]
    exact hg.insert serial

theorem use {serial : ℕ} (h : Used blocks labels) (hb : b ∈ blocks) (hof : l.IsOf b)
    (hserial : l.serial = some serial)
    (hnew : ∀ x ∈ labels, (x.blockId, x.serial) ≠ (l.blockId, l.serial)) :
    Used (update (fun x => x.id = b.id) (BlockRow.consume serial) blocks) (l :: labels) := by
  have hblock : l.blockId = some b.id := by
    obtain ⟨sscc, n, rfl, -⟩ := hof
    rfl
  refine ⟨h.ids.update fun _ _ => rfl, ?_, ?_, ?_⟩
  · -- What a block has consumed is not part of what its labels say.
    have hkeep : ∀ x ∈ blocks, ∀ y : Label, y.IsOf x →
        ∃ z ∈ update (fun x => x.id = b.id) (BlockRow.consume serial) blocks, y.IsOf z := by
      intro x hx y hy
      refine ⟨_, Table.mem_update_of_mem hx, ?_⟩
      split
      · exact isOf_consume hy
      · exact hy
    intro y hy
    rcases List.mem_cons.1 hy with rfl | hy
    · exact hkeep b hb y hof
    · obtain ⟨x, hx, hxy⟩ := h.placed y hy
      exact hkeep x hx y hxy
  · rw [Table.Unique, List.map_cons, List.nodup_cons]
    refine ⟨?_, h.serials⟩
    intro hmem
    obtain ⟨x, hx, hxl⟩ := List.mem_map.1 hmem
    exact hnew x hx hxl
  · intro x hx
    obtain ⟨y, hy, rfl⟩ := Table.mem_update.1 hx
    have hc := h.consumed y hy
    by_cases hid : y.id = b.id
    · rw [if_pos (by simpa using hid)]
      exact consumed_cons hc (by rw [hblock, hid]) hserial
    · rw [if_neg (by simpa using hid)]
      have hset : usedOf y (l :: labels) = usedOf y labels := by
        rw [usedOf_cons (b := b) _ serial hblock hserial, if_neg hid]
      exact ⟨by rw [hset]; exact hc.unused, by rw [hset]; exact hc.greatest⟩

end Used

/-! ## The three tables -/

/-- A table of boxes or pallets: one row an id, one extension, and none closed without an SSCC. -/
structure Parcels (extension : ℕ) (parcels : List Parcel) : Prop where
  ids : Unique (·.id) parcels
  extension_eq : ∀ x ∈ parcels, x.label.extension = extension
  unlabelled : ∀ x ∈ parcels, x.label.sscc = none → x.closed = false

/-- The three tables and the blocks their labels are from. -/
structure Labelled (boxes pallets warehousePallets : List Parcel) (blocks : List BlockRow) :
    Prop where
  ofBoxes : Parcels 0 boxes
  ofPallets : Parcels 1 pallets
  ofWarehousePallets : Parcels 1 warehousePallets
  used : Used blocks (labelsOf boxes pallets warehousePallets)

def Db.Labelled (db : Db) : Prop :=
  Markiro.Labelled (db.boxes.map BoxRow.parcel) (db.pallets.map PalletRow.parcel)
    (db.warehousePallets.map WarehousePalletRow.parcel) db.blocks

def Parcel.close (sscc blockId : String) (serial : ℕ) (x : Parcel) : Parcel :=
  ⟨x.id, true, ⟨x.label.extension, x.label.deviceId, some sscc, some blockId, some serial⟩⟩

namespace Parcels

variable {extension : ℕ} {parcels : List Parcel} {x : Parcel} {sscc blockId : String} {serial : ℕ}

theorem append (h : Parcels extension parcels) (hid : ∀ y ∈ parcels, y.id ≠ x.id)
    (hext : x.label.extension = extension) (hx : x.label.sscc = none → x.closed = false) :
    Parcels extension (parcels ++ [x]) := by
  refine ⟨h.ids.append hid, fun y hy => ?_, fun y hy => ?_⟩ <;>
    rcases List.mem_append.1 hy with hy | hy
  · exact h.extension_eq y hy
  · rwa [List.mem_singleton.1 hy]
  · exact h.unlabelled y hy
  · rwa [List.mem_singleton.1 hy]

theorem delete {p : Parcel → Bool} (h : Parcels extension parcels) :
    Parcels extension (delete p parcels) :=
  ⟨h.ids.delete, fun y hy => h.extension_eq y (Table.mem_delete.1 hy).1,
    fun y hy => h.unlabelled y (Table.mem_delete.1 hy).1⟩

theorem close {p : Parcel → Bool} (h : Parcels extension parcels) :
    Parcels extension (update p (Parcel.close sscc blockId serial) parcels) := by
  refine ⟨h.ids.update fun _ _ => rfl, fun y hy => ?_, fun y hy => ?_⟩ <;>
    obtain ⟨z, hz, rfl⟩ := Table.mem_update.1 hy
  · split <;> exact h.extension_eq z hz
  · split
    · intro hn
      simp [Parcel.close] at hn
    · exact h.unlabelled z hz

theorem printed_close (h : Parcels extension parcels) (hx : x ∈ parcels)
    (hopen : x.closed = false) (sscc blockId : String) (serial : ℕ) :
    ((update (fun y => y.id = x.id) (Parcel.close sscc blockId serial)
      parcels).filterMap Parcel.printed).Perm
      ((x.close sscc blockId serial).label :: parcels.filterMap Parcel.printed) :=
  h.ids.perm_filterMap_update hx (by simp [Parcel.printed, hopen])
    (by simp [Parcel.printed, Parcel.close])

end Parcels

theorem printed_append {parcels : List Parcel} {x : Parcel} (h : x.closed = false) :
    (parcels ++ [x]).filterMap Parcel.printed = parcels.filterMap Parcel.printed := by
  simp [List.filterMap_append, Parcel.printed, h]

theorem printed_append_closed {parcels : List Parcel} {x : Parcel} (h : x.closed = true) :
    (parcels ++ [x]).filterMap Parcel.printed = parcels.filterMap Parcel.printed ++ [x.label] := by
  simp [List.filterMap_append, Parcel.printed, h]

theorem mem_printed {parcels : List Parcel} {l : Label} :
    l ∈ parcels.filterMap Parcel.printed ↔ ∃ x ∈ parcels, x.closed = true ∧ x.label = l := by
  simp [Parcel.printed]

namespace Labelled

variable {boxes pallets warehousePallets : List Parcel} {blocks : List BlockRow} {b : BlockRow}
  {x : Parcel} {l : Label} {sscc : String} {serial : ℕ}

theorem parcel_of (h : Labelled boxes pallets warehousePallets blocks) (hb : b ∈ blocks)
    (hl : l ∈ labelsOf boxes pallets warehousePallets) (hid : l.blockId = some b.id) :
    ((∃ y ∈ boxes, y.closed = true ∧ y.label = l) ∧ b.extension = 0) ∨
      ((∃ y ∈ pallets ++ warehousePallets, y.closed = true ∧ y.label = l) ∧ b.extension = 1) := by
  have hext : l.extension = b.extension := by
    obtain ⟨z, hz, _, _, rfl, -⟩ := h.used.placed l hl
    rw [h.used.ids.eq hz hb (Option.some.inj hid)]
  rcases List.mem_append.1 hl with hl | hl
  · obtain ⟨y, hy, hc, rfl⟩ := mem_printed.1 hl
    exact .inl ⟨⟨y, hy, hc, rfl⟩, hext ▸ h.ofBoxes.extension_eq y hy⟩
  · rw [← List.filterMap_append] at hl
    obtain ⟨y, hy, hc, rfl⟩ := mem_printed.1 hl
    refine .inr ⟨⟨y, hy, hc, rfl⟩, ?_⟩
    rw [← hext]
    rcases List.mem_append.1 hy with hy | hy
    · exact h.ofPallets.extension_eq y hy
    · exact h.ofWarehousePallets.extension_eq y hy

theorem closeBox (h : Labelled boxes pallets warehousePallets blocks) (hx : x ∈ boxes)
    (hopen : x.closed = false) (hb : b ∈ blocks)
    (hof : (x.close sscc b.id serial).label.IsOf b)
    (hnew : ∀ y ∈ boxes, y.closed = true →
      ¬(y.label.blockId = some b.id ∧ y.label.serial = some serial)) :
    Labelled (update (fun y => y.id = x.id) (Parcel.close sscc b.id serial) boxes) pallets
      warehousePallets
      (update (fun y => y.id = b.id) (BlockRow.consume serial) blocks) := by
  refine ⟨h.ofBoxes.close, h.ofPallets, h.ofWarehousePallets, ?_⟩
  have hperm := (h.ofBoxes.printed_close hx hopen sscc b.id serial).append_right (pallets.filterMap Parcel.printed ++
      warehousePallets.filterMap Parcel.printed)
  refine Used.perm (h.used.use hb hof rfl ?_) hperm.symm
  intro l hl heq
  obtain ⟨hblock, hserial⟩ := Prod.mk.inj heq
  rcases h.parcel_of hb hl hblock with ⟨⟨y, hy, hc, rfl⟩, -⟩ | ⟨-, hext⟩
  · exact hnew y hy hc ⟨hblock, hserial⟩
  · obtain ⟨_, _, hlabel, -⟩ := hof
    have hx0 : x.label.extension = b.extension := congrArg Label.extension hlabel
    rw [h.ofBoxes.extension_eq x hx, hext] at hx0
    cases hx0

theorem usePallet (h : Labelled boxes pallets warehousePallets blocks)
    {pallets' warehousePallets' : List Parcel} (hb : b ∈ blocks) (hof : l.IsOf b)
    (hext : l.extension = 1) (hserial : l.serial = some serial)
    (hnew : ∀ y ∈ pallets ++ warehousePallets, y.closed = true →
      ¬(y.label.blockId = some b.id ∧ y.label.serial = some serial))
    (hperm : (pallets'.filterMap Parcel.printed ++ warehousePallets'.filterMap Parcel.printed).Perm
      (l :: (pallets.filterMap Parcel.printed ++ warehousePallets.filterMap Parcel.printed))) :
    Used (update (fun y => y.id = b.id) (BlockRow.consume serial) blocks)
      (labelsOf boxes pallets' warehousePallets') := by
  have hp : (labelsOf boxes pallets' warehousePallets').Perm
      (l :: labelsOf boxes pallets warehousePallets) :=
    (hperm.append_left _).trans List.perm_middle
  refine Used.perm (h.used.use hb hof hserial ?_) hp.symm
  intro y hy heq
  obtain ⟨hyb, hys⟩ := Prod.mk.inj heq
  obtain ⟨_, _, rfl, -⟩ := hof
  rcases h.parcel_of hb hy hyb with ⟨-, h0⟩ | ⟨⟨z, hz, hc, rfl⟩, -⟩
  · rw [show b.extension = 1 from hext] at h0
    cases h0
  · exact hnew z hz hc ⟨hyb, hys.trans hserial⟩

theorem closePallet (h : Labelled boxes pallets warehousePallets blocks) (hx : x ∈ pallets)
    (hopen : x.closed = false) (hb : b ∈ blocks) (hof : (x.close sscc b.id serial).label.IsOf b)
    (hnew : ∀ y ∈ pallets ++ warehousePallets, y.closed = true →
      ¬(y.label.blockId = some b.id ∧ y.label.serial = some serial)) :
    Labelled boxes (update (fun y => y.id = x.id) (Parcel.close sscc b.id serial) pallets)
      warehousePallets
      (update (fun y => y.id = b.id) (BlockRow.consume serial) blocks) := by
  refine ⟨h.ofBoxes, h.ofPallets.close, h.ofWarehousePallets, ?_⟩
  refine h.usePallet hb hof (h.ofPallets.extension_eq x hx) rfl hnew ?_
  exact (h.ofPallets.printed_close hx hopen _ _ _).append_right _

theorem closeWarehousePallet (h : Labelled boxes pallets warehousePallets blocks)
    (hx : x ∈ warehousePallets) (hopen : x.closed = false) (hb : b ∈ blocks)
    (hof : (x.close sscc b.id serial).label.IsOf b)
    (hnew : ∀ y ∈ pallets ++ warehousePallets, y.closed = true →
      ¬(y.label.blockId = some b.id ∧ y.label.serial = some serial)) :
    Labelled boxes pallets
      (update (fun y => y.id = x.id) (Parcel.close sscc b.id serial) warehousePallets)
      (update (fun y => y.id = b.id) (BlockRow.consume serial) blocks) := by
  refine ⟨h.ofBoxes, h.ofPallets, h.ofWarehousePallets.close, ?_⟩
  refine h.usePallet hb hof (h.ofWarehousePallets.extension_eq x hx) rfl hnew ?_
  exact ((h.ofWarehousePallets.printed_close hx hopen _ _ _).append_left _).trans List.perm_middle

end Labelled

/-! ## Every change -/

section Writers

variable {k : Crates} {now : String} {db db' : Db}

theorem touch_parcels (p : BoxRow → Bool) (now : String) (db : Db) :
    (db.touch p now).boxes.map BoxRow.parcel = db.boxes.map BoxRow.parcel :=
  map_update fun _ _ => rfl

theorem Db.Labelled.of_eq (h : db.Labelled)
    (hboxes : db'.boxes.map BoxRow.parcel = db.boxes.map BoxRow.parcel)
    (hpallets : db'.pallets.map PalletRow.parcel = db.pallets.map PalletRow.parcel)
    (hwarehouse : db'.warehousePallets.map WarehousePalletRow.parcel =
      db.warehousePallets.map WarehousePalletRow.parcel)
    (hblocks : db'.blocks = db.blocks) : db'.Labelled := by
  rw [Db.Labelled, hboxes, hpallets, hwarehouse, hblocks]
  exact h

theorem Db.Issued.isOf {deviceId sscc blockId : String} {extension serial : ℕ}
    (h : db.Issued deviceId sscc blockId extension serial) :
    ∃ b ∈ db.blocks, b.id = blockId ∧
      Label.IsOf b ⟨extension, deviceId, some sscc, some blockId, some serial⟩ := by
  obtain ⟨issuer, hname, b, hb, hissued⟩ := h
  simp only [BlockRow.issuedTo, decide_eq_true_eq] at hissued
  obtain ⟨rfl, rfl, rfl, rfl, hfrom, hto, -⟩ := hissued
  exact ⟨b, hb, rfl, sscc, serial, rfl, hfrom, hto, (namesSerial_body hname).2⟩

theorem mem_parcels {α : Type} {f : α → Parcel} {id : String} {rows : List α}
    (h : ∀ y ∈ rows, (f y).id ≠ id) : ∀ y ∈ rows.map f, y.id ≠ id := by
  intro y hy
  obtain ⟨z, hz, rfl⟩ := List.mem_map.1 hy
  exact h z hz

theorem Db.Labelled.addPallet {x : PalletRow} (h : db.Labelled)
    (hid : ∀ y ∈ db.pallets, y.id ≠ x.id)
    (hclosed : x.closedAt = none) :
    Db.Labelled { db with pallets := db.pallets ++ [x] } := by
  have hopen : x.parcel.closed = false := by
    rw [PalletRow.parcel, hclosed]
    rfl
  have hused := h.used
  refine ⟨h.ofBoxes, ?_, h.ofWarehousePallets, ?_⟩
  · rw [List.map_append]
    exact h.ofPallets.append (mem_parcels hid) rfl fun _ => hopen
  · rw [List.map_append, labelsOf, List.map_singleton, printed_append hopen]
    exact hused

theorem map_close {α : Type} {f : α → Parcel} {g : α → α} {p : α → Bool} {rows : List α}
    {id sscc blockId : String} {serial : ℕ} (hp : ∀ x, decide ((f x).id = id) = p x)
    (hg : ∀ x, f (g x) = (f x).close sscc blockId serial) :
    (update p g rows).map f =
      update (fun y => y.id = id) (Parcel.close sscc blockId serial) (rows.map f) :=
  Table.map_update_comm hp fun x _ => hg x

/-- What the checks of a pallet's close say of the labels there are. -/
theorem pallet_new {sscc blockId : String} {serial : ℕ} {own : Option String}
    (hpallet : db.palletTaken sscc blockId serial = false)
    (hwarehouse : db.warehousePalletTaken sscc blockId serial own = false)
    (hown : ∀ x ∈ db.warehousePallets, some x.id = own → x.closedAt = none) :
    ∀ y ∈ db.pallets.map PalletRow.parcel ++ db.warehousePallets.map WarehousePalletRow.parcel,
      y.closed = true → ¬(y.label.blockId = some blockId ∧ y.label.serial = some serial) := by
  intro y hy hc htaken
  rcases List.mem_append.1 hy with hy | hy <;> obtain ⟨x, hx, rfl⟩ := List.mem_map.1 hy
  · rw [Db.palletTaken, List.any_eq_false] at hpallet
    refine hpallet x hx ?_
    rw [decide_eq_true_eq]
    exact .inr htaken
  · rw [Db.warehousePalletTaken, List.any_eq_false] at hwarehouse
    refine hwarehouse x hx ?_
    rw [decide_eq_true_eq]
    refine ⟨fun heq => ?_, .inr htaken⟩
    have hc : x.closedAt.isSome = true := hc
    rw [hown x hx heq] at hc
    cases hc

theorem Db.Labelled.closeBox {ctx : Context} {c : BoxClosedFact} {digestMatches : Bool}
    {x : BoxRow} (h : db.Labelled) (hx : db.boxes.find? (fun x => x.id = c.boxId) = some x)
    (hdevice : x.deviceId = ctx.deviceId) (hsscc : x.sscc = none)
    (hissued : db.Issued ctx.deviceId c.sscc c.blockId 0 c.serial)
    (htaken : db.boxTaken c.sscc c.blockId c.serial = false) :
    Db.Labelled (Db.consume c.blockId c.serial { db with
      boxes := update (fun x => x.id = c.boxId) (c.closeBox ctx digestMatches)
        db.boxes }) := by
  obtain ⟨b, hb, hblock, hof⟩ := hissued.isOf
  have hmem := List.mem_map_of_mem (f := BoxRow.parcel) (List.mem_of_find?_eq_some hx)
  have hid : x.id = c.boxId := by simpa using List.find?_some hx
  have hrows : (update (fun x => decide (x.id = c.boxId)) (c.closeBox ctx digestMatches)
      db.boxes).map BoxRow.parcel = update (fun y => y.id = x.parcel.id)
        (Parcel.close c.sscc c.blockId c.serial) (db.boxes.map BoxRow.parcel) := by
    refine map_close (fun y => ?_) fun y => rfl
    rw [show x.parcel.id = c.boxId from hid]
    rfl
  show Markiro.Labelled ((update _ _ db.boxes).map BoxRow.parcel) _ _ (update _ _ db.blocks)
  rw [hrows, ← hblock]
  refine Markiro.Labelled.closeBox h hmem (h.ofBoxes.unlabelled _ hmem hsscc) hb ?_ ?_
  · rw [hblock]
    show Label.IsOf b ⟨0, x.deviceId, _, _, _⟩
    rw [hdevice]
    exact hof
  · intro y hy _ hy'
    obtain ⟨z, hz, rfl⟩ := List.mem_map.1 hy
    rw [Db.boxTaken, List.any_eq_false] at htaken
    refine htaken z hz ?_
    rw [decide_eq_true_eq, ← hblock]
    exact .inr hy'

theorem Db.Labelled.closeOpenPallet {ctx : Context} {c : PalletClosedFact} {x : PalletRow}
    (h : db.Labelled) (hx : db.pallets.find? (fun x => x.id = c.palletId) = some x)
    (hdevice : x.deviceId = ctx.deviceId) (hsscc : x.sscc = none)
    (hissued : db.Issued ctx.deviceId c.sscc c.blockId 1 c.serial)
    (hpallet : db.palletTaken c.sscc c.blockId c.serial = false)
    (hwarehouse : db.warehousePalletTaken c.sscc c.blockId c.serial none = false) :
    Db.Labelled (Db.consume c.blockId c.serial { db with
      pallets := update (fun x => x.id = c.palletId) (c.closePallet ctx) db.pallets }) := by
  obtain ⟨b, hb, hblock, hof⟩ := hissued.isOf
  have hmem := List.mem_map_of_mem (f := PalletRow.parcel) (List.mem_of_find?_eq_some hx)
  have hid : x.id = c.palletId := by simpa using List.find?_some hx
  have hrows : (update (fun x => decide (x.id = c.palletId)) (c.closePallet ctx)
      db.pallets).map PalletRow.parcel = update (fun y => y.id = x.parcel.id)
        (Parcel.close c.sscc c.blockId c.serial) (db.pallets.map PalletRow.parcel) := by
    refine map_close (fun y => ?_) fun y => rfl
    rw [show x.parcel.id = c.palletId from hid]
    rfl
  show Markiro.Labelled _ ((update _ _ db.pallets).map PalletRow.parcel) _
    (update _ _ db.blocks)
  rw [hrows, ← hblock]
  rw [← hblock] at hpallet hwarehouse hof
  refine Markiro.Labelled.closePallet h hmem (h.ofPallets.unlabelled _ hmem hsscc) hb ?_
    (pallet_new hpallet hwarehouse (by simp))
  show Label.IsOf b ⟨1, x.deviceId, _, _, _⟩
  rw [hdevice]
  exact hof

theorem Db.Labelled.closeNewPallet {x : PalletRow} {sscc blockId : String} {serial : ℕ}
    (h : db.Labelled) (hid : ∀ y ∈ db.pallets, y.id ≠ x.id)
    (hx : x.parcel = ⟨x.id, true, ⟨1, x.deviceId, some sscc, some blockId, some serial⟩⟩)
    (hissued : db.Issued x.deviceId sscc blockId 1 serial)
    (hpallet : db.palletTaken sscc blockId serial = false)
    (hwarehouse : db.warehousePalletTaken sscc blockId serial none = false) :
    Db.Labelled (Db.consume blockId serial { db with pallets := db.pallets ++ [x] }) := by
  obtain ⟨b, hb, rfl, hof⟩ := hissued.isOf
  show Markiro.Labelled _ ((db.pallets ++ [x]).map PalletRow.parcel) _ (update _ _ db.blocks)
  rw [List.map_append, List.map_singleton, hx]
  refine ⟨h.ofBoxes, h.ofPallets.append (mem_parcels hid) rfl (by simp), h.ofWarehousePallets, ?_⟩
  refine Markiro.Labelled.usePallet h hb hof rfl rfl (pallet_new hpallet hwarehouse (by simp)) ?_
  rw [printed_append_closed rfl, List.append_assoc]
  exact List.perm_middle

theorem Db.Labelled.closeWarehousePallet {ctx : EventContext} {c : PalletClosedFact}
    {x : WarehousePalletRow} (h : db.Labelled)
    (hx : db.warehousePallets.find? (fun x => x.id = c.palletId ∧ x.deviceId = ctx.deviceId) =
      some x) (hopen : x.closedAt = none)
    (hissued : db.Issued ctx.deviceId c.sscc c.blockId 1 c.serial)
    (hpallet : db.palletTaken c.sscc c.blockId c.serial = false)
    (hwarehouse : db.warehousePalletTaken c.sscc c.blockId c.serial (some c.palletId) = false) :
    Db.Labelled (Db.consume c.blockId c.serial { db with
      warehousePallets := update (fun x => x.id = c.palletId) (c.closeWarehousePallet ctx)
        db.warehousePallets }) := by
  obtain ⟨b, hb, hblock, hof⟩ := hissued.isOf
  have hx' := List.mem_of_find?_eq_some hx
  have hmem := List.mem_map_of_mem (f := WarehousePalletRow.parcel) hx'
  have hfound := List.find?_some hx
  simp only [decide_eq_true_eq] at hfound
  obtain ⟨hid, hdevice⟩ := hfound
  have hrows : (update (fun x => decide (x.id = c.palletId)) (c.closeWarehousePallet ctx)
      db.warehousePallets).map WarehousePalletRow.parcel = update (fun y => y.id = x.parcel.id)
        (Parcel.close c.sscc c.blockId c.serial)
        (db.warehousePallets.map WarehousePalletRow.parcel) := by
    refine map_close (fun y => ?_) fun y => rfl
    rw [show x.parcel.id = c.palletId from hid]
    rfl
  have hclosed : x.parcel.closed = false := by
    rw [WarehousePalletRow.parcel, hopen]
    rfl
  -- The rows of the pallet's own id are the pallet.
  have hown : ∀ y ∈ db.warehousePallets, some y.id = some c.palletId → y.closedAt = none := by
    intro y hy hyid
    have heq : y.parcel = x.parcel :=
      h.ofWarehousePallets.ids.eq (List.mem_map_of_mem hy) hmem ((Option.some.inj hyid).trans hid.symm)
    have := congrArg Parcel.closed heq
    rw [hclosed] at this
    simpa [WarehousePalletRow.parcel] using this
  show Markiro.Labelled _ _ ((update _ _ db.warehousePallets).map WarehousePalletRow.parcel)
    (update _ _ db.blocks)
  rw [hrows, ← hblock]
  rw [← hblock] at hpallet hwarehouse hof
  refine Markiro.Labelled.closeWarehousePallet h hmem hclosed hb ?_ (pallet_new hpallet hwarehouse hown)
  show Label.IsOf b ⟨1, x.deviceId, _, _, _⟩
  rw [hdevice]
  exact hof

theorem Db.Labelled.dropDraft {x : WarehousePalletRow} (h : db.Labelled)
    (hx : x ∈ db.warehousePallets) (hopen : x.closedAt = none) : (db.dropDraft x.id).Labelled := by
  have hrows : (delete (fun y => decide (y.id = x.id)) db.warehousePallets).map
      WarehousePalletRow.parcel = delete (fun y => decide (y.id = x.id))
        (db.warehousePallets.map WarehousePalletRow.parcel) := by
    rw [delete, delete, List.filter_map]
    rfl
  show Markiro.Labelled _ _ ((delete _ db.warehousePallets).map WarehousePalletRow.parcel) _
  rw [hrows]
  refine ⟨h.ofBoxes, h.ofPallets, h.ofWarehousePallets.delete, ?_⟩
  rw [labelsOf, Table.filterMap_delete]
  · exact h.used
  · intro y hy hp
    have heq : y = x.parcel :=
      h.ofWarehousePallets.ids.eq hy (List.mem_map_of_mem hx) (of_decide_eq_true hp)
    rw [heq, Parcel.printed, WarehousePalletRow.parcel, hopen]
    rfl

/-- A pallet the office creates has a block of its own, used at once. -/
theorem Db.Labelled.createPallet {block : BlockRow} {pallet : WarehousePalletRow} {sscc : String}
    {serial : ℕ} (h : db.Labelled) (hid : ∀ y ∈ db.blocks, y.id ≠ block.id)
    (hserial : (block.extension, block.fromSerial, block.toSerial, block.consumedThrough) =
      (1, serial, serial, some serial))
    (hnew : ∀ y ∈ db.warehousePallets, y.id ≠ pallet.id)
    (hpallet : pallet.parcel =
      ⟨pallet.id, true, ⟨1, block.deviceId, some sscc, some block.id, some serial⟩⟩)
    (hbody : sscc.toList.take 17 = ssccBody 1 block.issuerPrefix serial) :
    Db.Labelled { db with
      blocks := db.blocks ++ [block]
      warehousePallets := db.warehousePallets ++ [pallet] } := by
  simp only [Prod.mk.injEq] at hserial
  obtain ⟨h1, h2, h3, h4⟩ := hserial
  -- The block as an issue would write it, and then used.
  let fresh : BlockRow := { block with consumedThrough := none }
  have hfresh : Markiro.Labelled (db.boxes.map BoxRow.parcel) (db.pallets.map PalletRow.parcel)
      (db.warehousePallets.map WarehousePalletRow.parcel) (db.blocks ++ [fresh]) :=
    ⟨h.ofBoxes, h.ofPallets, h.ofWarehousePallets, h.used.issue hid rfl⟩
  have hblocks : update (fun y => y.id = fresh.id) (BlockRow.consume serial)
      (db.blocks ++ [fresh]) = db.blocks ++ [block] := by
    have hold : update (fun y => decide (y.id = fresh.id)) (BlockRow.consume serial)
        db.blocks = db.blocks := by
      rw [update]
      conv_rhs => rw [← List.map_id db.blocks]
      refine List.map_congr_left fun y hy => ?_
      simp [hid y hy, fresh]
    rw [update, List.map_append, ← update, hold]
    show db.blocks ++ [if decide (fresh.id = fresh.id) then fresh.consume serial else fresh] = _
    have hused : fresh.consume serial = block := by
      simp only [fresh, BlockRow.consume, Option.getD_none, max_self, ← h4]
    rw [hused]
    simp
  have hof : Label.IsOf fresh ⟨1, block.deviceId, some sscc, some block.id, some serial⟩ := by
    refine ⟨sscc, serial, by simp only [fresh, h1], by simp only [fresh, h2]; exact le_rfl,
      by simp only [fresh, h3]; exact le_rfl, ?_⟩
    simp only [fresh, h1]
    exact hbody
  show Markiro.Labelled _ _ ((db.warehousePallets ++ [pallet]).map WarehousePalletRow.parcel)
    (db.blocks ++ [block])
  rw [List.map_append, List.map_singleton, hpallet]
  refine ⟨h.ofBoxes, h.ofPallets, h.ofWarehousePallets.append (mem_parcels hnew) rfl (by simp), ?_⟩
  rw [← hblocks]
  refine hfresh.usePallet (List.mem_append_right _ (List.mem_singleton_self _)) hof rfl rfl ?_ ?_
  · -- No label is of the block yet.
    intro y hy hc htaken
    have hl : y.label ∈ labelsOf (db.boxes.map BoxRow.parcel) (db.pallets.map PalletRow.parcel)
        (db.warehousePallets.map WarehousePalletRow.parcel) := by
      rw [labelsOf, ← List.filterMap_append]
      exact List.mem_append_right _ (mem_printed.2 ⟨y, hy, hc, rfl⟩)
    obtain ⟨z, hz, _, _, hlabel, -⟩ := h.used.placed _ hl
    rw [hlabel] at htaken
    exact hid z hz (Option.some.inj htaken.1)
  · rw [printed_append_closed rfl, ← List.append_assoc]
    exact List.perm_append_singleton _ _

theorem Written.labelled (h : Written k now db db') (hi : db.Labelled) : db'.Labelled := by
  cases h with
  | openBox x hnew hid =>
    have hopen : x.parcel.closed = false := by
      rw [BoxRow.parcel, hnew.closedAt]
      rfl
    refine ⟨?_, hi.ofPallets, hi.ofWarehousePallets, ?_⟩
    · rw [List.map_append]
      exact hi.ofBoxes.append (mem_parcels hid) rfl fun _ => hopen
    · rw [List.map_append, labelsOf, List.map_singleton, printed_append hopen]
      exact hi.used
  | closeBox ctx c digestMatches x _ _ hx _ hdevice hsscc hissued htaken =>
    exact (hi.closeBox hx hdevice hsscc hissued htaken).of_eq (touch_parcels _ _ _) rfl rfl rfl
  | labelBox l =>
    refine hi.of_eq (map_update fun x _ => ?_) rfl rfl rfl
    rw [BoxRow.label]
    split <;> rfl
  | disassembleBox boxId instant p hp =>
    refine hi.of_eq ((touch_parcels _ _ _).trans (map_update fun _ _ => rfl)) rfl rfl rfl
  | openPallet ctx id openedAt _ hid => exact hi.addPallet hid rfl
  | closePallet ctx c _ hfound hissued hpallet hwarehouse =>
    rw [Db.closePallet]
    split
    · next hany =>
      obtain ⟨x, hx⟩ := Option.isSome_iff_exists.1 (List.find?_isSome.2 (List.any_eq_true.1 hany))
      obtain ⟨-, hdevice, hsscc⟩ := hfound x hx
      exact (hi.closeOpenPallet hx hdevice hsscc hissued hpallet hwarehouse).of_eq
        (touch_parcels _ _ _) rfl rfl rfl
    · next hany =>
      have hid : ∀ y ∈ db.pallets, y.id ≠ c.palletId := by simpa using hany
      exact (hi.closeNewPallet hid rfl hissued hpallet hwarehouse).of_eq (touch_parcels _ _ _)
        rfl rfl rfl
  | labelPallet l =>
    refine hi.of_eq rfl (map_update fun x _ => ?_) rfl rfl
    rw [PalletRow.label]
    split <;> rfl
  | disassemblePallet palletId instant p hp =>
    exact hi.of_eq (touch_parcels _ _ _) (map_update fun _ _ => rfl) rfl rfl
  | openWarehousePallet x hclosed _ _ _ _ hid =>
    have hopen : x.parcel.closed = false := by
      rw [WarehousePalletRow.parcel, hclosed]
      rfl
    refine ⟨hi.ofBoxes, hi.ofPallets, ?_, ?_⟩
    · rw [List.map_append]
      exact hi.ofWarehousePallets.append (mem_parcels hid) rfl fun _ => hopen
    · rw [List.map_append, labelsOf, List.map_singleton, printed_append hopen]
      exact hi.used
  | dropDraft x hx hopen => exact hi.dropDraft hx hopen
  | addStay w x => exact hi.of_eq (touch_parcels _ _ _) rfl rfl rfl
  | endStay => exact hi.of_eq (touch_parcels _ _ _) rfl rfl rfl
  | closeWarehousePallet ctx c x hx hopen hissued hpallet hwarehouse =>
    exact (hi.closeWarehousePallet hx hopen hissued hpallet hwarehouse).of_eq
      (touch_parcels _ _ _) rfl rfl rfl
  | disassembleWarehousePallet palletId instant p f hp hf _ =>
    refine hi.of_eq (touch_parcels _ _ _) rfl (map_update fun x _ => ?_) rfl
    obtain ⟨h1, h2, -, h4, h5, h6, h7, -⟩ := hf x
    simp only [WarehousePalletRow.parcel, h1, h2, h4, h5, h6, h7]
  | createPallet x rev block pallet stays _ _ hblock hid hpallet hsscc _ hnew =>
    simp only [Prod.mk.injEq] at hblock hpallet
    obtain ⟨h1, h2, h3, h4, h5⟩ := hblock
    obtain ⟨p1, p2, p3⟩ := hpallet
    obtain ⟨sscc, closedAt, hs, hc, hbody⟩ := hsscc
    refine Db.Labelled.of_eq (hi.createPallet (fun y hy => (hid y hy).1) (by rw [h2, h3, h4, h5])
      hnew ?_ (by rwa [h1])) (touch_parcels _ _ _) rfl rfl rfl
    rw [WarehousePalletRow.parcel, p1, p2, p3, hs, hc]
    rfl
  | issueBlock x rev block _ _ _ _ hnone hid =>
    exact ⟨hi.ofBoxes, hi.ofPallets, hi.ofWarehousePallets,
      hi.used.issue (fun y hy => (hid y hy).1) hnone⟩
  | registerBlock rev block _ _ _ _ hnone hid =>
    exact ⟨hi.ofBoxes, hi.ofPallets, hi.ofWarehousePallets,
      hi.used.issue (fun y hy => (hid y hy).1) hnone⟩
  | _ => exact hi

theorem Change.labelled (h : Change k now db db') (hi : db.Labelled) : db'.Labelled := by
  cases h with
  | scanned h => cases h <;> exact hi
  | written h => exact h.labelled hi
  | filed h => cases h <;> exact hi

def Db.Prefixed (width : ℕ) (db : Db) : Prop :=
  ∀ x ∈ db.counters, allDigits x.issuerPrefix = true ∧ byteLen x.issuerPrefix = width

theorem prefixed_update {width : ℕ} {p : CounterRow → Bool} {f : CounterRow → CounterRow}
    (hi : db.Prefixed width) (hf : ∀ x, (f x).issuerPrefix = x.issuerPrefix) :
    ∀ x ∈ update p f db.counters,
      allDigits x.issuerPrefix = true ∧ byteLen x.issuerPrefix = width := by
  intro x hx
  obtain ⟨y, hy, rfl⟩ := Table.mem_update.1 hx
  split
  · rw [hf]
    exact hi y hy
  · exact hi y hy

theorem Change.prefixed {width : ℕ} (h : Change k now db db') (hi : db.Prefixed width) :
    db'.Prefixed width := by
  cases h with
  | scanned h => cases h <;> exact hi
  | filed h => cases h <;> exact hi
  | written h =>
    cases h with
    | closePallet =>
      rw [Db.closePallet]
      split <;> exact hi
    | createPallet => exact prefixed_update hi fun _ => rfl
    | issueBlock => exact prefixed_update hi fun _ => rfl
    | registerBlock => exact prefixed_update hi fun _ => rfl
    | setCounter => exact prefixed_update hi fun _ => rfl
    | _ => exact hi

end Writers

/-! ## Every run -/

theorem Db.Handed.block_eq {db : Db} (h : db.Handed) {b c : BlockRow} (hb : b ∈ db.blocks)
    (hc : c ∈ db.blocks) (hkey : b.key = c.key) {n : ℕ} (hbn : b.fromSerial ≤ n ∧ n ≤ b.toSerial)
    (hcn : c.fromSerial ≤ n ∧ n ≤ c.toSerial) : b = c := by
  by_contra hne
  have hsymm : Std.Symm fun x y : BlockRow => Ranges.Apart x.range y.range :=
    ⟨fun _ _ hxy => hxy.symm⟩
  have hapart := (List.pairwise_map.1 h.2.apart).forall hb hc hne hkey
  simp only [BlockRow.range] at hapart
  omega

theorem bodies_unique {db : Db} {width : ℕ} (hw : width < 16) (hl : db.Labelled) (hh : db.Handed)
    (hp : db.Prefixed width) : Unique (fun l => l.sscc.map (·.toList.take 17)) db.labels := by
  -- A label's block has a prefix of a counter, and the label a serial within it.
  have hlabel : ∀ l ∈ db.labels, ∃ b ∈ db.blocks, ∃ n, l.blockId = some b.id ∧ l.serial = some n ∧
      b.extension < 10 ∧ (b.fromSerial ≤ n ∧ n ≤ b.toSerial) ∧ n < serialCapacity b.issuerPrefix ∧
      (allDigits b.issuerPrefix = true ∧ byteLen b.issuerPrefix = width) ∧
      l.sscc.map (·.toList.take 17) = some (ssccBody b.extension b.issuerPrefix n) := by
    intro l hmem
    obtain ⟨b, hb, sscc, n, rfl, hfrom, hto, hbody⟩ := hl.used.placed l hmem
    have hr := List.mem_map_of_mem (f := BlockRow.range) hb
    have hbelow : b.toSerial < nextSerial db.counters b.key := hh.2.below _ hr
    have hcap : b.toSerial < serialCapacity b.issuerPrefix :=
      Nat.lt_of_lt_of_le hbelow (hh.2.bounded b.key)
    obtain ⟨x, hx, -⟩ := exists_counterOf hbelow
    have hprefix : x.issuerPrefix = b.issuerPrefix := congrArg Prod.fst (counterOf_some hx)
    have hext : b.extension < 10 := by
      rcases hl.parcel_of hb hmem rfl with ⟨-, h0⟩ | ⟨-, h1⟩ <;> omega
    refine ⟨b, hb, n, rfl, rfl, hext, ⟨hfrom, hto⟩, by omega, ?_, congrArg some hbody⟩
    rw [← hprefix]
    exact hp x (List.mem_of_find?_eq_some hx)
  refine List.Nodup.map_on ?_ (List.Nodup.of_map _ hl.used.serials)
  intro l hmem l' hmem' heq
  obtain ⟨b, hb, n, hid, hn, hext, hrange, hcap, ⟨hdig, hlen⟩, hbody⟩ := hlabel l hmem
  obtain ⟨b', hb', n', hid', hn', hext', hrange', hcap', ⟨hdig', hlen'⟩, hbody'⟩ := hlabel l' hmem'
  rw [hbody, hbody', Option.some.injEq] at heq
  obtain ⟨h1, h2, rfl⟩ := ssccBody_injective hext hext' hdig hdig' (hlen.trans hlen'.symm)
    (hlen ▸ hw) hcap hcap' heq
  obtain rfl := hh.block_eq hb hb' (Prod.ext h2 h1) hrange hrange'
  exact hl.used.serials.eq hmem hmem' (by rw [hid, hid', hn, hn'])

/-- **One serial, one label.** From no boxes, pallets and blocks and with counters of prefixes of one
length, after every run of requests: no two closed boxes or pallets have SSCCs that start with the
same 17 digits; each has the SSCC of its serial in a block that was issued to its device; and each
block knows the greatest of its serials that is used, or that none is. -/
theorem one_serial_one_label (k : Crates) (db : Db) (width : ℕ) (hw : width < 16)
    (hsized : db.site.Sized)
    (hcounters : ∀ x ∈ db.counters, x.nextSerial ≤ serialCapacity x.issuerPrefix)
    (hprefixes : ∀ x ∈ db.counters,
      allDigits x.issuerPrefix = true ∧ byteLen x.issuerPrefix = width) (calls : List Call) :
    let s := run k { db with boxes := [], pallets := [], warehousePallets := [], blocks := [] } calls
    Unique (fun l => l.sscc.map (·.toList.take 17)) s.labels ∧
    (∀ l ∈ s.labels, ∃ b ∈ s.blocks, l.IsOf b) ∧
    ∀ b ∈ s.blocks, b.Consumed s.labels := by
  intro s
  have hempty : ∀ extension, Parcels extension [] := fun _ =>
    ⟨List.nodup_nil, by simp, by simp⟩
  have hl : s.Labelled := by
    refine run_invariant (P := Db.Labelled) Change.labelled ?_ calls
    exact ⟨hempty 0, hempty 1, hempty 1, List.nodup_nil, by simp [labelsOf], List.nodup_nil, by simp⟩
  have hh : s.Handed := by
    refine (run_handed ?_ calls).1
    exact handed_start rfl hsized hcounters
  have hp : s.Prefixed width := by
    refine run_invariant (P := Db.Prefixed width) Change.prefixed ?_ calls
    exact hprefixes
  exact ⟨bodies_unique hw hl hh hp, hl.used.placed, hl.used.consumed⟩

namespace Sample

def box : String := "44444444-4444-4444-8444-444444444444"

/-- The station asks for a block, scans the sample code into a box and closes the box with the first
serial of the block. -/
def packed : List Call := [
  askBlock "66666666-6666-4666-8666-66666666666",
  ⟨env "b", .facts station [
    scan "55555555-5555-4555-8555-555555555551" "2024-01-01T10:00:00.000Z" (some box),
    .obj [("data", .obj [("blockId", .str "66666666-6666-4666-8666-666666666660"),
        ("boxId", .str box), ("closedAt", .str "2024-01-01T10:01:00.000Z"),
        ("itemCount", .number (.nat 1)), ("membershipDigest", .str code),
        ("openedAt", .str "2024-01-01T10:00:00.000Z"), ("serial", .number (.nat 1)),
        ("sscc", .str "046000000000000017")]),
      ("id", .str "55555555-5555-4555-8555-555555555552"), ("kind", .str "box_closed"),
      ("shiftId", .str shift)]]⟩]

end Sample

/-- A closed box has the first serial of the station's block. -/
theorem one_serial_one_label_sample :
    let s := run Crates.sample Sample.counted Sample.packed
    s.labels.map (fun l => (l.sscc, l.serial)) = [(some "046000000000000017", some 1)] ∧
      ∀ b ∈ s.blocks, b.Consumed s.labels := by
  have hrun : (run Crates.sample Sample.counted Sample.packed).labels.map
      (fun l => (l.sscc, l.serial)) = [(some "046000000000000017", some 1)] := by
    decide +kernel
  refine ⟨hrun, ?_⟩
  exact (one_serial_one_label Crates.sample Sample.counted 9 (by decide) ⟨by decide, by decide⟩
    (by decide) (by decide) Sample.packed).2.2

end Markiro
