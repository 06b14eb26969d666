import Markiro.Domain.Repacking

/-!
# The invariant of a box that is repacked

One inversion lemma says what an action does to the state (`reduce_cases`): it leaves it alone, or it
is one of seven changes. The invariant of the box and of its phase is kept by each.
-/

namespace Markiro.Repacking

open Utf16

/-! ## What an action does -/

structure Open (s : State) (box : BoxState) : Prop where
  phase : s.phase = .scanning
  box : s.box = some box

inductive Change (s : State) : State → Prop
  | selected (oldSscc boxId newSscc openedAt : Units) : s.phase = .awaitingOldBox →
      Change s { s with
        phase := .scanning
        oldSsccContext := some oldSscc
        box := some ⟨boxId, oldSscc, newSscc, s.activeProductionDate, openedAt, none, none, []⟩ }
  | dated {box : BoxState} (productionDate : Units) : Open s box → box.items = [] →
      Change s { s with
        activeProductionDate := productionDate
        box := some { box with productionDate } }
  | added {box : BoxState} (item : Membership) : Open s box →
      item.position = box.items.length + 1 → item.productionDate = box.productionDate →
      (∀ x ∈ box.items, x.codeHash ≠ item.codeHash) →
      Change s { s with
        phase := if item.position = s.capacity then .closedPendingPrint else .scanning
        box := some { box with
          items := box.items ++ [item]
          closedAt := if item.position = s.capacity then some item.observedAt else none } }
  | removed {box : BoxState} : Open s box →
      Change s { s with box := some { box with items := box.items.dropLast } }
  | cleared {box : BoxState} : Open s box →
      Change s { s with box := some { box with items := [] } }
  | closed {box : BoxState} (closedAt : Units) : Open s box → box.items ≠ [] →
      Change s { s with
        phase := .closedPendingPrint
        box := some { box with closedAt := some closedAt } }
  | invalidated {box : BoxState} (invalidatedAt : Units) : s.box = some box →
      s.phase ≠ .invalidated →
      Change s { s with
        phase := .invalidated
        box := some { box with invalidatedAt := some invalidatedAt } }

variable {s : State} {action : Action}

theorem requireOwnedOpenBox_none {deviceId : Units} (h : requireOwnedOpenBox s deviceId = none) :
    deviceId = s.ownerDeviceId ∧ s.phase = .scanning := by
  unfold requireOwnedOpenBox at h
  split at h
  · cases h
  split at h
  · cases h
  split at h
  · cases h
  split at h
  · cases h
  next howner _ _ hopen =>
    rw [not_or] at hopen
    exact ⟨not_not.1 howner, not_not.1 hopen.1⟩

theorem withOpenBox_cases (deviceId : Units) (act : BoxState → Result) :
    (∃ reason, withOpenBox s deviceId act = .fail s reason) ∨
      ∃ box, deviceId = s.ownerDeviceId ∧ Open s box ∧ withOpenBox s deviceId act = act box := by
  unfold withOpenBox
  split
  next reason _ => exact .inl ⟨reason, rfl⟩
  next hnone =>
    obtain ⟨howner, hphase⟩ := requireOwnedOpenBox_none hnone
    cases hbox : s.box with
    | none => exact .inl ⟨_, rfl⟩
    | some box => exact .inr ⟨box, howner, ⟨hphase, hbox⟩, rfl⟩

theorem observeItem_cases {box : BoxState} (hopen : Open s box) (observedAt : Units)
    (item : Observation) :
    (∃ effect, observeItem s box observedAt item = .ok s effect) ∨
      ∃ t effect, observeItem s box observedAt item = .ok t effect ∧ Change s t := by
  unfold observeItem
  split
  · exact .inl ⟨_, rfl⟩
  split
  · exact .inl ⟨_, rfl⟩
  next _ hdate =>
    split
    · exact .inl ⟨_, rfl⟩
    next hnew =>
      refine .inr ⟨_, _, rfl, Change.added ⟨item.eventId, item.codeHash, box.items.length + 1,
        observedAt, item.observedProductionDate, item.sourceParentSscc, _⟩ hopen rfl
        (not_not.1 hdate) ?_⟩
      intro x hx heq
      have := List.find?_eq_none.1 hnew x hx
      simp [heq] at this

/-- **An action fails and leaves the state, succeeds and leaves it, or changes it.** It changes it
only before the box is invalidated, and an action that has a device only as the owner's. -/
theorem reduce_cases (s : State) (action : Action) :
    (∃ reason, reduceInventoryRepacking s action = .fail s reason) ∨
    (∃ effect, reduceInventoryRepacking s action = .ok s effect) ∨
    ∃ t effect, reduceInventoryRepacking s action = .ok t effect ∧ Change s t ∧
      ∀ deviceId, action.deviceId = some deviceId → deviceId = s.ownerDeviceId := by
  cases action with
  | authoritativeConflict affectedBoxIds invalidatedAt =>
    simp only [reduceInventoryRepacking, authoritativeConflict]
    cases hbox : s.box with
    | none => exact .inr (.inl ⟨_, rfl⟩)
    | some box =>
      simp only
      split
      · exact .inr (.inl ⟨_, rfl⟩)
      split
      · exact .inr (.inl ⟨_, rfl⟩)
      next _ hphase =>
        exact .inr (.inr ⟨_, _, rfl, .invalidated invalidatedAt hbox hphase, by rintro _ ⟨⟩⟩)
  | selectOldBox deviceId oldSscc boxId newSscc openedAt =>
    simp only [reduceInventoryRepacking, selectOldBox]
    split
    · exact .inl ⟨_, rfl⟩
    split
    · exact .inl ⟨_, rfl⟩
    split
    · exact .inl ⟨_, rfl⟩
    split
    · exact .inl ⟨_, rfl⟩
    next howner _ _ hphase =>
      refine .inr (.inr ⟨_, _, rfl, .selected oldSscc boxId newSscc openedAt (not_not.1 hphase), ?_⟩)
      rintro _ ⟨⟩
      exact not_not.1 howner
  | changeActiveDate deviceId productionDate =>
    simp only [reduceInventoryRepacking]
    rcases withOpenBox_cases (s := s) deviceId _ with ⟨reason, h⟩ | ⟨box, howner, hopen, h⟩
    · exact .inl ⟨reason, h⟩
    · rw [h]
      split
      · exact .inl ⟨_, rfl⟩
      next hitems =>
        refine .inr (.inr ⟨_, _, rfl, .dated productionDate hopen ?_, by rintro _ ⟨⟩; exact howner⟩)
        exact List.length_eq_zero_iff.1 (by omega)
  | observeItem deviceId observedAt item =>
    simp only [reduceInventoryRepacking]
    rcases withOpenBox_cases (s := s) deviceId _ with ⟨reason, h⟩ | ⟨box, howner, hopen, h⟩
    · exact .inl ⟨reason, h⟩
    · rw [h]
      rcases observeItem_cases hopen observedAt item with ⟨effect, h⟩ | ⟨t, effect, h, hchange⟩
      · exact .inr (.inl ⟨effect, h⟩)
      · exact .inr (.inr ⟨t, effect, h, hchange, by rintro _ ⟨⟩; exact howner⟩)
  | removeLast deviceId removedAt =>
    simp only [reduceInventoryRepacking]
    rcases withOpenBox_cases (s := s) deviceId _ with ⟨reason, h⟩ | ⟨box, howner, hopen, h⟩
    · exact .inl ⟨reason, h⟩
    · rw [h]
      split
      · exact .inl ⟨_, rfl⟩
      · exact .inr (.inr ⟨_, _, rfl, .removed hopen, by rintro _ ⟨⟩; exact howner⟩)
  | clearOpenBox deviceId clearedAt =>
    simp only [reduceInventoryRepacking]
    rcases withOpenBox_cases (s := s) deviceId _ with ⟨reason, h⟩ | ⟨box, howner, hopen, h⟩
    · exact .inl ⟨reason, h⟩
    · exact .inr (.inr ⟨_, _, h, .cleared hopen, by rintro _ ⟨⟩; exact howner⟩)
  | closeIncomplete deviceId confirmed closedAt =>
    simp only [reduceInventoryRepacking]
    rcases withOpenBox_cases (s := s) deviceId _ with ⟨reason, h⟩ | ⟨box, howner, hopen, h⟩
    · exact .inl ⟨reason, h⟩
    · rw [h]
      split
      · exact .inl ⟨_, rfl⟩
      split
      · exact .inl ⟨_, rfl⟩
      next hitems =>
        refine .inr (.inr ⟨_, _, rfl, .closed closedAt hopen ?_, by rintro _ ⟨⟩; exact howner⟩)
        exact fun hnil => hitems (by rw [hnil]; rfl)

/-! ## The invariant -/

/-- The items of a box: at positions 1 to n, of distinct codes, within the capacity, and of one date,
the box's and the active one. -/
structure BoxInv (s : State) (box : BoxState) : Prop where
  positions : box.items.map Membership.position = List.range' 1 box.items.length
  hashes : (box.items.map Membership.codeHash).Nodup
  size : box.items.length ≤ s.capacity
  dates : ∀ x ∈ box.items, x.productionDate = box.productionDate
  active : box.productionDate = s.activeProductionDate

structure Inv (s : State) : Prop where
  capacity : 0 < s.capacity
  box : ∀ box, s.box = some box → BoxInv s box
  scanning : s.phase = .scanning →
    ∃ box, s.box = some box ∧ box.closedAt = none ∧ box.items.length < s.capacity
  pending : s.phase = .closedPendingPrint →
    ∃ box, s.box = some box ∧ box.closedAt ≠ none ∧ 1 ≤ box.items.length

section Preserved

variable {t : State} {box : BoxState}

theorem Inv.open_box (hi : Inv s) (h : Open s box) :
    BoxInv s box ∧ box.closedAt = none ∧ box.items.length < s.capacity := by
  obtain ⟨b, hb, hclosed, hlt⟩ := hi.scanning h.phase
  obtain rfl := Option.some.inj (hb.symm.trans h.box)
  exact ⟨hi.box _ hb, hclosed, hlt⟩

theorem BoxInv.nil {s : State} {box : BoxState} (hitems : box.items = [])
    (hactive : box.productionDate = s.activeProductionDate) : BoxInv s box := by
  refine ⟨?_, ?_, ?_, ?_, hactive⟩ <;> simp [hitems]

theorem BoxInv.dropLast (hb : BoxInv s box) :
    BoxInv s { box with items := box.items.dropLast } := by
  refine ⟨?_, ?_, ?_, fun x hx => hb.dates x ((List.dropLast_sublist _).subset hx), hb.active⟩
  · simp only [List.map_dropLast, hb.positions, List.length_dropLast]
    rw [List.dropLast_eq_take, List.length_range', List.take_range'_of_length_ge (Nat.sub_le _ _)]
  · rw [List.map_dropLast]
    exact hb.hashes.sublist (List.dropLast_sublist _)
  · have := hb.size
    simp only [List.length_dropLast]
    omega

theorem BoxInv.add {item : Membership} {closedAt : Option Units} (hb : BoxInv s box)
    (hposition : item.position = box.items.length + 1)
    (hdate : item.productionDate = box.productionDate)
    (hnew : ∀ x ∈ box.items, x.codeHash ≠ item.codeHash) (hlt : box.items.length < s.capacity) :
    BoxInv s { box with items := box.items ++ [item], closedAt } := by
  refine ⟨?_, ?_, ?_, ?_, hb.active⟩
  · simp only [List.map_append, hb.positions, List.length_append, List.length_singleton]
    rw [List.range'_concat]
    simp [hposition, Nat.add_comm]
  · simp only [List.map_append]
    rw [List.nodup_append]
    refine ⟨hb.hashes, List.nodup_singleton _, ?_⟩
    rintro a ha b hmem rfl
    obtain ⟨x, hx, rfl⟩ := List.mem_map.1 ha
    exact hnew x hx (List.mem_singleton.1 hmem)
  · simp only [List.length_append, List.length_singleton]
    exact hlt
  · intro x hx
    rcases List.mem_append.1 hx with hx | hx
    · exact hb.dates x hx
    · rw [List.mem_singleton.1 hx]
      exact hdate

theorem BoxInv.congr {box' : BoxState} (hb : BoxInv s box) (hitems : box'.items = box.items)
    (hdate : box'.productionDate = box.productionDate) (hcapacity : t.capacity = s.capacity)
    (hactive : t.activeProductionDate = s.activeProductionDate) : BoxInv t box' := by
  refine ⟨?_, ?_, ?_, ?_, ?_⟩
  · rw [hitems, hb.positions]
  · rw [hitems]
    exact hb.hashes
  · rw [hitems, hcapacity]
    exact hb.size
  · rw [hitems, hdate]
    exact hb.dates
  · rw [hdate, hactive, hb.active]

/-- **Every change keeps the invariant.** -/
theorem Change.inv (h : Change s t) (hi : Inv s) : Inv t := by
  cases h with
  | selected oldSscc boxId newSscc openedAt hphase =>
    refine ⟨hi.capacity, ?_, fun _ => ⟨_, rfl, rfl, hi.capacity⟩, by rintro ⟨⟩⟩
    rintro _ ⟨⟩
    exact BoxInv.nil rfl rfl
  | @dated box productionDate hopen hitems =>
    obtain ⟨hb, hclosed, hlt⟩ := hi.open_box hopen
    refine ⟨hi.capacity, ?_, fun _ => ⟨_, rfl, hclosed, hlt⟩, ?_⟩
    · rintro _ ⟨⟩
      exact BoxInv.nil hitems rfl
    · intro hphase
      exact absurd (hopen.phase.symm.trans hphase) (by decide)
  | @added box item hopen hposition hdate hnew =>
    obtain ⟨hb, hclosed, hlt⟩ := hi.open_box hopen
    refine ⟨hi.capacity, ?_, ?_, ?_⟩
    · rintro _ ⟨⟩
      exact (hb.add hposition hdate hnew hlt).congr rfl rfl rfl rfl
    · intro hphase
      by_cases hfull : item.position = s.capacity
      · simp [hfull] at hphase
      · refine ⟨_, rfl, by simp [hfull], ?_⟩
        simp only [List.length_append, List.length_singleton]
        omega
    · intro hphase
      by_cases hfull : item.position = s.capacity
      · exact ⟨_, rfl, by simp [hfull], by simp⟩
      · simp [hfull] at hphase
  | @removed box hopen =>
    obtain ⟨hb, hclosed, hlt⟩ := hi.open_box hopen
    refine ⟨hi.capacity, ?_, fun _ => ⟨_, rfl, hclosed, ?_⟩, ?_⟩
    · rintro _ ⟨⟩
      exact hb.dropLast.congr rfl rfl rfl rfl
    · simp only [List.length_dropLast]
      omega
    · intro hphase
      exact absurd (hopen.phase.symm.trans hphase) (by decide)
  | @cleared box hopen =>
    obtain ⟨hb, hclosed, hlt⟩ := hi.open_box hopen
    refine ⟨hi.capacity, ?_, fun _ => ⟨_, rfl, hclosed, hi.capacity⟩, ?_⟩
    · rintro _ ⟨⟩
      exact BoxInv.nil rfl hb.active
    · intro hphase
      exact absurd (hopen.phase.symm.trans hphase) (by decide)
  | @closed box closedAt hopen hitems =>
    obtain ⟨hb, hclosed, hlt⟩ := hi.open_box hopen
    refine ⟨hi.capacity, ?_, by rintro ⟨⟩, fun _ => ⟨_, rfl, by simp, ?_⟩⟩
    · rintro _ ⟨⟩
      exact hb.congr rfl rfl rfl rfl
    · exact List.length_pos_of_ne_nil hitems
  | @invalidated box invalidatedAt hbox hphase =>
    refine ⟨hi.capacity, ?_, by rintro ⟨⟩, by rintro ⟨⟩⟩
    rintro _ ⟨⟩
    exact (hi.box box hbox).congr rfl rfl rfl rfl

end Preserved

theorem Inv.reduce (hi : Inv s) (action : Action) :
    Inv (reduceInventoryRepacking s action).state := by
  rcases reduce_cases s action with ⟨_, h⟩ | ⟨_, h⟩ | ⟨t, _, h, hchange, -⟩
  · rw [h]
    exact hi
  · rw [h]
    exact hi
  · rw [h]
    exact hchange.inv hi

theorem Inv.runActions (hi : Inv s) (actions : List Action) : Inv (runActions s actions) := by
  induction actions generalizing s with
  | nil => exact hi
  | cons action actions ih => exact ih (hi.reduce action)

theorem create_inv {owner date : Units} {capacity : ℚ}
    (h : createInventoryRepackingState owner capacity date = some s) : Inv s := by
  unfold createInventoryRepackingState at h
  split at h
  · cases h
  next hok =>
    obtain rfl := Option.some.inj h
    rw [not_or, not_le] at hok
    have hnum : 0 < capacity.num := Rat.num_pos.2 hok.2
    exact ⟨by simp only; omega, by rintro _ ⟨⟩, by rintro ⟨⟩, by rintro ⟨⟩⟩

theorem Change.not_invalidated {t : State} (h : Change s t) : s.phase ≠ .invalidated := by
  cases h with
  | selected _ _ _ _ hphase => rw [hphase]; decide
  | invalidated _ _ hphase => exact hphase
  | dated _ hopen => rw [hopen.phase]; decide
  | added _ hopen => rw [hopen.phase]; decide
  | removed hopen => rw [hopen.phase]; decide
  | cleared hopen => rw [hopen.phase]; decide
  | closed _ hopen => rw [hopen.phase]; decide

/-- **The repacked box keeps its invariant.** In every state that actions reach from a new one, from
any devices and in any order: the box and its phase are as `Inv` says, a foreign device's action and
an action that fails leave the state as it was, and so does every action once it is invalidated. -/
theorem repacking_box_invariant {owner date : Units} {capacity : ℚ} {start : State}
    (h : createInventoryRepackingState owner capacity date = some start) (actions : List Action) :
    let s := runActions start actions
    Inv s ∧ ∀ action,
      (∀ deviceId, action.deviceId = some deviceId → deviceId ≠ s.ownerDeviceId →
        (reduceInventoryRepacking s action).state = s) ∧
      (∀ t reason, reduceInventoryRepacking s action = .fail t reason → t = s) ∧
      (s.phase = .invalidated → (reduceInventoryRepacking s action).state = s) := by
  intro s
  refine ⟨(create_inv h).runActions actions, fun action => ?_⟩
  rcases reduce_cases s action with ⟨reason, heq⟩ | ⟨effect, heq⟩ | ⟨t, effect, heq, hchange, howner⟩
  · rw [heq]
    refine ⟨fun _ _ _ => rfl, ?_, fun _ => rfl⟩
    rintro _ _ ⟨⟩
    rfl
  · rw [heq]
    exact ⟨fun _ _ _ => rfl, by rintro _ _ ⟨⟩, fun _ => rfl⟩
  · rw [heq]
    refine ⟨fun deviceId hdevice hne => absurd (howner deviceId hdevice) hne, by rintro _ _ ⟨⟩, ?_⟩
    exact fun hphase => absurd hphase hchange.not_invalidated

/-! ## A sample run -/

/-- A box of two that is opened and filled. -/
def Sample.actions : List Action :=
  let item (hash : String) : Observation := ⟨encode hash, encode hash, .eligible, encode "d", none⟩
  [.selectOldBox (encode "owner") (encode "old") (encode "box") (encode "new") (encode "t0"),
    .observeItem (encode "owner") (encode "t1") (item "a"),
    .observeItem (encode "other") (encode "t2") (item "b"),
    .observeItem (encode "owner") (encode "t3") (item "b")]

theorem repacking_box_invariant_sample :
    ∃ start, createInventoryRepackingState (encode "owner") 2 (encode "d") = some start ∧
      (runActions start Sample.actions).phase = .closedPendingPrint ∧
      Inv (runActions start Sample.actions) := by
  have h : createInventoryRepackingState (encode "owner") 2 (encode "d") =
      some ⟨.awaitingOldBox, encode "owner", 2, encode "d", none, none⟩ := by decide +kernel
  exact ⟨_, h, by decide +kernel, (repacking_box_invariant h Sample.actions).1⟩

end Markiro.Repacking
