import Markiro.Delta.Stamps
import Markiro.Host.Run

/-!
# Every closed box is registered

A closed box has a stamp of the host's clock and a shift, so the registry has its item
(`Db.Registered`), and the newest stamp never goes back. Over a request: an item that was not in the
registry before is stamped at or above the newest stamp before it (`step_delta`).
-/

namespace Markiro

variable {k : Crates} {now : String} {db db' : Db} {x y : BoxRow}

/-! ## What a change does to a box -/

structure BoxRow.Moves (stamp : String) (x y : BoxRow) : Prop where
  shiftId : y.shiftId = x.shiftId
  sscc : y.sscc = x.sscc ∧ y.changedAt = x.changedAt ∨
    ∃ sscc, y.sscc = some sscc ∧ (x.sscc = some sscc ∨ digits 18 sscc = true) ∧
      y.changedAt = some stamp

theorem BoxRow.Moves.refl (stamp : String) (x : BoxRow) : x.Moves stamp x := ⟨rfl, .inl ⟨rfl, rfl⟩⟩

/-- Every box is a box from before that moved, or a new one of a shift; and none is lost. -/
structure Moved (stamp : String) (db db' : Db) : Prop where
  kept : ∀ x ∈ db.boxes, ∃ y ∈ db'.boxes, x.Moves stamp y
  came : ∀ y ∈ db'.boxes, (y.IsNew ∧ ∃ s ∈ db.shifts, s.id = y.shiftId) ∨
    ∃ x ∈ db.boxes, x.Moves stamp y
  shifts : db'.shifts.map (·.id) = db.shifts.map (·.id)

theorem Moved.map {stamp : String} {g : BoxRow → BoxRow}
    (hboxes : db'.boxes = db.boxes.map g) (h : ∀ x ∈ db.boxes, x.Moves stamp (g x))
    (hshifts : db'.shifts.map (·.id) = db.shifts.map (·.id)) : Moved stamp db db' := by
  refine ⟨fun x hx => ⟨g x, ?_, h x hx⟩, fun y hy => ?_, hshifts⟩
  · rw [hboxes]
    exact List.mem_map_of_mem hx
  · rw [hboxes] at hy
    obtain ⟨x, hx, rfl⟩ := List.mem_map.1 hy
    exact .inr ⟨x, hx, h x hx⟩

theorem Moved.same {stamp : String} (hboxes : db'.boxes = db.boxes)
    (hshifts : db'.shifts.map (·.id) = db.shifts.map (·.id)) : Moved stamp db db' := by
  refine ⟨fun x hx => ⟨x, hboxes ▸ hx, .refl _ _⟩, fun y hy => ?_, hshifts⟩
  exact .inr ⟨y, hboxes ▸ hy, .refl _ _⟩

theorem Moved.update_touch {p : BoxRow → Bool} {g : BoxRow → BoxRow} {d : Db}
    (hstamp : d.stamp now = db.stamp now) (hd : d.boxes = db.boxes.map g)
    (hboxes : db'.boxes = (d.touch p now).boxes) (hshifts : db'.shifts = db.shifts)
    (htouched : ∀ x ∈ db.boxes, p (g x) = true → (g x).shiftId = x.shiftId ∧
      ∃ sscc, (g x).sscc = some sscc ∧ (x.sscc = some sscc ∨ digits 18 sscc = true))
    (hother : ∀ x ∈ db.boxes, p (g x) = false → x.Moves (db.stamp now) (g x)) :
    Moved (db.stamp now) db db' := by
  refine Moved.map
    (g := fun x => if p (g x) then { g x with changedAt := some (d.stamp now) } else g x)
    (by rw [hboxes, Db.touch, hd, Table.update, List.map_map]; rfl) (fun x hx => ?_) (by rw [hshifts])
  by_cases hp : p (g x) = true
  · obtain ⟨hshift, sscc, hs, hor⟩ := htouched x hx hp
    rw [if_pos hp, hstamp]
    exact ⟨hshift, .inr ⟨sscc, hs, hor, rfl⟩⟩
  · rw [if_neg hp]
    exact hother x hx (by simpa using hp)

theorem Moved.touch {p : BoxRow → Bool} {d : Db} (hp : ∀ x, p x = true → x.sscc ≠ none)
    (hd : d.boxes = db.boxes) (hboxes : db'.boxes = (d.touch p now).boxes)
    (hshifts : db'.shifts = db.shifts) : Moved (db.stamp now) db db' := by
  have hstamp : d.stamp now = db.stamp now := by
    rw [Db.stamp, Db.stamp, Db.newestChange, Db.newestChange, hd]
  refine Moved.update_touch (g := id) hstamp (by rw [hd, List.map_id]) hboxes hshifts ?_ ?_
  · intro x _ hpx
    obtain ⟨sscc, hs⟩ := Option.ne_none_iff_exists'.1 (hp x hpx)
    exact ⟨rfl, sscc, hs, .inl hs⟩
  · exact fun x _ _ => .refl _ _

theorem closed_of_pallet {palletId : String} (x : BoxRow)
    (h : decide (x.palletId = some palletId ∧ x.sscc.isSome) = true) : x.sscc ≠ none := by
  rw [decide_eq_true_eq] at h
  exact Option.isSome_iff_ne_none.1 h.2

theorem closed_of_sscc {sscc : String} (x : BoxRow) (h : decide (x.sscc = some sscc) = true) :
    x.sscc ≠ none := by
  rw [decide_eq_true_eq] at h
  simp [h]

theorem closed_of_stay {palletId : String} {stays : List StayRow} (x : BoxRow)
    (h : (stays.any fun w => w.palletId = palletId ∧ w.live ∧ x.sscc = some w.boxSscc) = true) :
    x.sscc ≠ none := by
  obtain ⟨w, -, hw⟩ := List.any_eq_true.1 h
  rw [decide_eq_true_eq] at hw
  simp [hw.2.2]

/-- **What a change does to the boxes.** -/
theorem Written.moved (h : Written k now db db') (hi : db.Standing) (hb : db.Unstamped) :
    Moved (db.stamp now) db db' := by
  have hsame {d : Db} (h1 : d.boxes = db.boxes) (h2 : d.shifts = db.shifts) :
      Moved (db.stamp now) db d := Moved.same h1 (by rw [h2])
  have hids {d : Db} (h1 : d.boxes = db.boxes) {p : ShiftRow → Bool} {f : ShiftRow → ShiftRow}
      (h2 : d.shifts = Table.update p f db.shifts) (hf : ∀ s, (f s).id = s.id) :
      Moved (db.stamp now) db d :=
    Moved.same h1 (by rw [h2, Table.map_update fun s _ => hf s])
  cases h with
  | openBox x hnew _ hworked =>
    refine ⟨fun y hy => ⟨y, List.mem_append_left _ hy, .refl _ _⟩, fun y hy => ?_, rfl⟩
    rcases List.mem_append.1 hy with hy | hy
    · exact .inr ⟨y, hy, .refl _ _⟩
    · rw [List.mem_singleton.1 hy]
      exact .inl ⟨hnew, hworked.shift⟩
  | closeBox ctx c digestMatches x _ hdigits hx _ _ hsscc =>
    refine Moved.update_touch (stamp_closeBox hi hb hx hsscc) rfl rfl rfl ?_ ?_
    · intro y _ hp
      by_cases hid : y.id = c.boxId
      · simp only [hid, decide_true, if_true]
        exact ⟨rfl, c.sscc, rfl, .inr hdigits⟩
      · simp [hid] at hp
    · intro y _ hp
      by_cases hid : y.id = c.boxId
      · simp [hid, BoxClosedFact.closeBox] at hp
      · simp only [hid, decide_false, Bool.false_eq_true, if_false]
        exact .refl _ _
  | labelBox l =>
    refine Moved.map rfl (fun y _ => ?_) rfl
    split
    · rw [BoxRow.label]
      split <;> exact ⟨rfl, .inl ⟨rfl, rfl⟩⟩
    · exact .refl _ _
  | disassembleBox boxId instant p hp =>
    have hrow (y : BoxRow) : (if p y = true then { y with disassembledAt := some instant } else y).shiftId
          = y.shiftId ∧
        (if p y = true then { y with disassembledAt := some instant } else y).sscc = y.sscc ∧
        (if p y = true then { y with disassembledAt := some instant } else y).changedAt =
          y.changedAt := by
      split <;> exact ⟨rfl, rfl, rfl⟩
    refine Moved.update_touch (stamp_update (by intros; rfl)) rfl rfl rfl ?_ ?_
    · intro y _ htouched
      have hs := Option.isSome_iff_exists.1 (of_decide_eq_true htouched).2
      obtain ⟨sscc, hs⟩ := hs
      exact ⟨(hrow y).1, sscc, hs, .inl ((hrow y).2.1 ▸ hs)⟩
    · intro y _ _
      exact ⟨(hrow y).1, .inl (hrow y).2⟩
  | closePallet ctx c =>
    have hd : (db.closePallet ctx c).boxes = db.boxes ∧ (db.closePallet ctx c).shifts = db.shifts := by
      rw [Db.closePallet]
      split <;> exact ⟨rfl, rfl⟩
    exact Moved.touch closed_of_pallet hd.1 rfl hd.2
  | disassemblePallet palletId instant p hp => exact Moved.touch closed_of_pallet rfl rfl rfl
  | addStay w x hlive => exact Moved.touch closed_of_sscc rfl rfl rfl
  | endStay palletId boxSscc instant => exact Moved.touch closed_of_sscc rfl rfl rfl
  | closeWarehousePallet ctx c => exact Moved.touch closed_of_stay rfl rfl rfl
  | disassembleWarehousePallet palletId instant p f => exact Moved.touch closed_of_stay rfl rfl rfl
  | createPallet x rev block pallet stays => exact Moved.touch closed_of_stay rfl rfl rfl
  | openShift s deviceId snapshot => exact hids rfl rfl fun _ => rfl
  | closeLast => exact hids rfl rfl fun _ => rfl
  | closeByOffice => exact hids rfl rfl fun _ => rfl
  | markShift p f hf =>
    refine hids rfl rfl fun s => ?_
    rw [hf s]
  | _ => exact hsame rfl rfl

theorem Change.moved (h : Change k now db db') (hi : db.Standing) (hb : db.Unstamped) :
    Moved (db.stamp now) db db' := by
  cases h with
  | scanned h => cases h <;> exact Moved.same rfl rfl
  | written h => exact h.moved hi hb
  | filed h => cases h <;> exact Moved.same rfl rfl

theorem Change.stamps (h : Change k now db db') (hi : db.Standing) (hb : db.Unstamped) :
    Stamps (db.stamp now) db db' := by
  cases h with
  | scanned h => cases h <;> exact Stamps.of_boxes fun x hx _ => ⟨hx, rfl⟩
  | written h => exact h.stamps hi hb
  | filed h => cases h <;> exact Stamps.of_boxes fun x hx _ => ⟨hx, rfl⟩

/-! ## The newest stamp -/

def BoxRow.closedStamp (x : BoxRow) : Option String := if x.sscc.isSome then x.changedAt else none

theorem newestChange_eq_some {t : String} : db.newestChange = some t ↔
    (∃ x ∈ db.boxes, x.closedStamp = some t) ∧
      ∀ x ∈ db.boxes, ∀ u, x.closedStamp = some u → u ≤ t := by
  unfold Db.newestChange
  rw [List.max?_eq_some_iff]
  simp only [List.mem_filterMap, forall_exists_index, and_imp, BoxRow.closedStamp]
  exact ⟨fun h => ⟨h.1, fun x hx u hu => h.2 u x hx hu⟩, fun h => ⟨h.1, fun u x hx hu => h.2 x hx u hu⟩⟩

theorem newestChange_eq_none : db.newestChange = none ↔ ∀ x ∈ db.boxes, x.closedStamp = none := by
  unfold Db.newestChange
  rw [List.max?_eq_none_iff, List.filterMap_eq_nil_iff]
  rfl

theorem registryUntil_cases (since : Option String) (db : Db) :
    db.registryUntil since = since.getD epoch ∨
      ∃ x ∈ db.boxes, x.closedStamp = some (db.registryUntil since) := by
  unfold Db.registryUntil
  cases h : db.newestChange with
  | none => exact .inl rfl
  | some newest =>
    rcases max_choice newest (since.getD epoch) with hmax | hmax
    · right
      simp only [hmax]
      exact (newestChange_eq_some.1 h).1
    · exact .inl hmax

theorem registryUntil_le {since : Option String} {t : String} : db.registryUntil since ≤ t ↔
    since.getD epoch ≤ t ∧ ∀ x ∈ db.boxes, ∀ u, x.closedStamp = some u → u ≤ t := by
  unfold Db.registryUntil
  cases h : db.newestChange with
  | none =>
    have hnone := newestChange_eq_none.1 h
    refine ⟨fun ht => ⟨ht, fun x hx u hu => ?_⟩, And.left⟩
    rw [hnone x hx] at hu
    cases hu
  | some newest =>
    obtain ⟨⟨y, hy, hyn⟩, hle⟩ := newestChange_eq_some.1 h
    rw [max_le_iff]
    exact ⟨fun ht => ⟨ht.2, fun x hx u hu => le_trans (hle x hx u hu) ht.1⟩,
      fun ht => ⟨ht.2 y hy newest hyn, ht.1⟩⟩

theorem stamp_cases (now : String) (db : Db) :
    db.stamp now = now ∨ ∃ x ∈ db.boxes, x.closedStamp = some (db.stamp now) := by
  unfold Db.stamp
  cases h : db.newestChange with
  | none => exact .inl rfl
  | some newest =>
    rcases max_choice newest now with hmax | hmax
    · right
      simp only [hmax]
      exact (newestChange_eq_some.1 h).1
    · exact .inl hmax

/-- The newest stamp, from the epoch on. -/
def Db.newest (db : Db) : String := db.registryUntil none

/-- **A change is stamped at or above every stamp before it.** -/
theorem newest_le_stamp (hnow : epoch ≤ now) : db.newest ≤ db.stamp now := by
  have hle : now ≤ db.stamp now ∧ ∀ t, db.newestChange = some t → t ≤ db.stamp now := by
    unfold Db.stamp
    cases h : db.newestChange with
    | none => exact ⟨le_rfl, by simp⟩
    | some newest => exact ⟨le_max_right _ _, by rintro _ ⟨⟩; exact le_max_left _ _⟩
  rw [Db.newest, registryUntil_le]
  refine ⟨le_trans hnow hle.1, fun x hx u hu => ?_⟩
  cases h : db.newestChange with
  | none =>
    rw [newestChange_eq_none.1 h x hx] at hu
    cases hu
  | some newest => exact le_trans ((newestChange_eq_some.1 h).2 x hx u hu) (hle.2 newest h)

/-! ## The invariant -/

structure Db.Registered (db : Db) : Prop where
  standing : db.Standing
  unstamped : db.Unstamped
  stamped : ∀ x ∈ db.boxes, ∀ sscc, x.sscc = some sscc →
    byteLen sscc = 18 ∧ ∃ t, x.changedAt = some t ∧ IsTimestamp t ∧ epoch ≤ t
  shift : ∀ x ∈ db.boxes, ∃ s ∈ db.shifts, s.id = x.shiftId

theorem Db.Registered.closedStamp (h : db.Registered) (hx : x ∈ db.boxes) {t : String}
    (ht : x.closedStamp = some t) : IsTimestamp t ∧ epoch ≤ t := by
  obtain ⟨hs, ht⟩ := Option.ite_none_right_eq_some.1 ht
  obtain ⟨sscc, hs⟩ := Option.isSome_iff_exists.1 hs
  obtain ⟨-, u, hu, hstamp⟩ := h.stamped x hx sscc hs
  rw [hu] at ht
  obtain rfl := Option.some.inj ht
  exact hstamp

theorem Db.Registered.stamp (h : db.Registered) (hnow : IsTimestamp now) (hepoch : epoch ≤ now) :
    IsTimestamp (db.stamp now) ∧ epoch ≤ db.stamp now := by
  rcases stamp_cases now db with hs | ⟨x, hx, hs⟩
  · rw [hs]
    exact ⟨hnow, hepoch⟩
  · exact h.closedStamp hx hs

theorem BoxRow.Moves.closedStamp {stamp : String} (h : x.Moves stamp y) :
    y.closedStamp = x.closedStamp ∨ y.closedStamp = some stamp := by
  rcases h.sscc with ⟨hs, hc⟩ | ⟨sscc, hs, -, hc⟩
  · left
    rw [BoxRow.closedStamp, BoxRow.closedStamp, hs, hc]
  · right
    rw [BoxRow.closedStamp, hs, hc]
    rfl

theorem Change.registered (h : Change k now db db') (hnow : IsTimestamp now) (hepoch : epoch ≤ now)
    (hi : db.Registered) : db'.Registered := by
  have hm := h.moved hi.standing hi.unstamped
  refine ⟨h.standing hi.standing, ?_, ?_, ?_⟩
  · intro y hy hs
    rcases hm.came y hy with ⟨hnew, -⟩ | ⟨x, hx, hmoves⟩
    · exact hnew.changedAt
    · rcases hmoves.sscc with ⟨hs', hc⟩ | ⟨sscc, hs', -⟩
      · rw [hc]
        exact hi.unstamped x hx (hs' ▸ hs)
      · rw [hs] at hs'
        cases hs'
  · intro y hy sscc hs
    rcases hm.came y hy with ⟨hnew, -⟩ | ⟨x, hx, hmoves⟩
    · rw [hnew.sscc] at hs
      cases hs
    · rcases hmoves.sscc with ⟨hs', hc⟩ | ⟨sscc', hs', hor, hc⟩
      · rw [hc]
        exact hi.stamped x hx sscc (hs' ▸ hs)
      · rw [hs] at hs'
        obtain rfl := Option.some.inj hs'
        refine ⟨?_, _, hc, hi.stamp hnow hepoch⟩
        rcases hor with hold | hdigits
        · exact (hi.stamped x hx sscc hold).1
        · simp only [digits, Bool.and_eq_true, decide_eq_true_eq] at hdigits
          exact hdigits.1
  · have hshift : ∀ id, (∃ s ∈ db.shifts, s.id = id) → ∃ s ∈ db'.shifts, s.id = id := by
      intro id hid
      rw [← List.mem_map] at hid ⊢
      rwa [hm.shifts]
    intro y hy
    rcases hm.came y hy with ⟨-, hs⟩ | ⟨x, hx, hmoves⟩
    · exact hshift _ hs
    · rw [hmoves.shiftId]
      exact hshift _ (hi.shift x hx)

theorem Change.newest_le (h : Change k now db db') (hepoch : epoch ≤ now) (hi : db.Registered) :
    db.newest ≤ db'.newest := by
  have hm := h.moved hi.standing hi.unstamped
  have hself : ∀ z ∈ db'.boxes, ∀ u, z.closedStamp = some u → u ≤ db'.newest :=
    (registryUntil_le.1 le_rfl).2
  rw [Db.newest, registryUntil_le]
  refine ⟨(registryUntil_le.1 (le_refl db'.newest)).1, fun x hx u hu => ?_⟩
  obtain ⟨y, hy, hmoves⟩ := hm.kept x hx
  rcases hmoves.closedStamp with hs | hs
  · exact hself y hy u (hs.trans hu)
  · have hle : u ≤ db.newest := (registryUntil_le.1 (le_refl db.newest)).2 x hx u hu
    exact le_trans (le_trans hle (newest_le_stamp hepoch)) (hself y hy _ hs)

/-! ## The registry over a request -/

theorem Db.Registered.item (h : db.Registered) (hx : x ∈ db.boxes) (hs : x.sscc ≠ none) :
    ∃ item ∈ db.items, db.itemOf x = some item := by
  obtain ⟨sscc, hs⟩ := Option.ne_none_iff_exists'.1 hs
  obtain ⟨-, t, ht, -⟩ := h.stamped x hx sscc hs
  obtain ⟨s, hmem, hid⟩ := h.shift x hx
  have hshift : ∃ p, (db.lookups x).shift = some p := by
    cases hfind : db.shifts.find? fun s => s.id = x.shiftId with
    | none =>
      have := List.find?_eq_none.1 hfind s hmem
      simp [hid] at this
    | some s' => exact ⟨s'.registered, by simp only [Db.lookups, hfind, Option.map_some]⟩
  obtain ⟨p, hp⟩ := hshift
  have hitem : ∃ item, db.itemOf x = some item := by
    rw [Db.itemOf_eq, BoxRow.itemWith, hs, ht, hp]
    exact ⟨_, rfl⟩
  obtain ⟨item, hitem⟩ := hitem
  exact ⟨item, List.mem_filterMap.2 ⟨x, hx, hitem⟩, hitem⟩

/-- **The registry has the item of every closed box, once.** -/
theorem Db.Registered.items_sscc (h : db.Registered) :
    db.items.map BoxRegistryItem.sscc = db.boxes.filterMap (·.sscc) := by
  rw [Db.items, List.map_filterMap]
  refine List.filterMap_congr fun x hx => ?_
  cases hs : x.sscc with
  | none =>
    rw [itemOf_open hs]
    rfl
  | some sscc =>
    obtain ⟨item, -, hitem⟩ := h.item hx (by rw [hs]; simp)
    rw [hitem, Option.map_some, ← hs, (itemOf_some hitem).1]

theorem Db.Registered.items_unique (h : db.Registered) :
    Table.Unique BoxRegistryItem.sscc db.items := by
  rw [Table.Unique, h.items_sscc]
  have := h.standing.ssccs_unique
  rwa [Table.UniqueSome, List.filterMap_map] at this

theorem Db.Registered.item_stamped (h : db.Registered) {a : BoxRegistryItem} (ha : a ∈ db.items) :
    byteLen a.sscc = 18 ∧ IsTimestamp a.updatedAt ∧ a.updatedAt ≤ db.newest := by
  obtain ⟨x, hx, hxa⟩ := List.mem_filterMap.1 ha
  obtain ⟨hs, hc, -⟩ := itemOf_some hxa
  obtain ⟨hlen, t, ht, htime, -⟩ := h.stamped x hx _ hs
  rw [hc] at ht
  obtain rfl := Option.some.inj ht
  refine ⟨hlen, htime, (registryUntil_le.1 (le_refl db.newest)).2 x hx _ ?_⟩
  rw [BoxRow.closedStamp, hs, hc]
  rfl

/-- What a request leaves of the registry. -/
structure Advances (db db' : Db) : Prop where
  registered : db'.Registered
  newest : db.newest ≤ db'.newest
  items : ∀ a ∈ db'.items, a ∈ db.items ∨ db.newest ≤ a.updatedAt

theorem Advances.refl (h : db.Registered) : Advances db db := ⟨h, le_rfl, fun _ ha => .inl ha⟩

theorem Advances.trans {d : Db} (h : Advances db d) (h' : Advances d db') : Advances db db' := by
  refine ⟨h'.registered, le_trans h.newest h'.newest, fun a ha => ?_⟩
  rcases h'.items a ha with ha | ha
  · exact h.items a ha
  · exact .inr (le_trans h.newest ha)

theorem Change.advances (h : Change k now db db') (hnow : IsTimestamp now) (hepoch : epoch ≤ now)
    (hi : db.Registered) : Advances db db' := by
  refine ⟨h.registered hnow hepoch hi, h.newest_le hepoch hi, fun a ha => ?_⟩
  obtain ⟨x, hx, hxa⟩ := List.mem_filterMap.1 ha
  rcases h.stamps hi.standing hi.unstamped x hx with hs | hs | ⟨y, hy, hs⟩
  · right
    rw [(itemOf_some hxa).2.1] at hs
    rw [Option.some.inj hs]
    exact newest_le_stamp hepoch
  · rw [hxa] at hs
    cases hs
  · exact .inl (List.mem_filterMap.2 ⟨y, hy, hs ▸ hxa⟩)

theorem Changes.advances (h : Changes k now db db') (hnow : IsTimestamp now) (hepoch : epoch ≤ now)
    (hi : db.Registered) : Advances db db' := by
  induction h with
  | refl => exact .refl hi
  | tail _ hc ih => exact ih.trans (hc.advances hnow hepoch ih.registered)

theorem Changes.join (h : Relation.ReflTransGen (Changes k now) db db') : Changes k now db db' := by
  induction h with
  | refl => exact .refl
  | tail _ hc ih => exact ih.trans hc

/-- All changes of a request have the moment it holds the write lock. -/
theorem step_changes (k : Crates) (db : Db) (c : Call) :
    Changes k (c.env.timestamp k) db (step k db c) := by
  unfold step serve
  cases h : handle k c.env c.request (Batch.begin db) with
  | done answer b =>
    show Changes k (c.env.timestamp k) (Batch.begin db).db b.db
    by_cases hfacts : ∀ deviceId records, c.request ≠ .facts deviceId records
    · exact (handle_files hfacts h).changes
    · simp only [not_forall, not_not] at hfacts
      obtain ⟨deviceId, records, hr⟩ := hfacts
      simp only [hr, handle, Txn.bind_done, Txn.pure_done] at h
      obtain ⟨_, _, h, -, rfl⟩ := h
      have hchain := receiveFacts_chain (R := Changes k (c.env.timestamp k)) (fun _ _ _ _ h => by
        obtain ⟨mid, hr, rfl | hf⟩ := receive_received h
        · exact hr.changes
        · exact hr.changes.tail (.filed hf)) h
      exact Changes.join hchain
  | refused => exact .refl
  | failed => exact .refl

/-- **A request stamps what it changes at or above every stamp before it.** -/
theorem step_delta {c : Call} (hepoch : epoch ≤ c.env.timestamp k) (hi : db.Registered) :
    Advances db (step k db c) := by
  refine (step_changes k db c).advances ?_ hepoch hi
  exact ⟨c.env.now, c.env.timestamp_eq k⟩

end Markiro
