import Markiro.InventoryJournal.Statements

/-!
# The journal without a failed event

Every statement is answered as if a failed event had never been there, but for the count of failed
events, whether the device has scanned at all, and the event itself.
-/

namespace Markiro.InventoryJournal

open Utf16 Processes Table

variable {inventory : Inventory}

/-! ## A journal without an event -/

namespace Journal

variable {j : Journal} {eventId : Uuid}

/-- The journal as if an event had never been reserved. -/
def forget (j : Journal) (eventId : Uuid) : Journal :=
  { j with events := delete (·.eventId = eventId) j.events }

structure Failed (j : Journal) (eventId : Uuid) : Prop where
  present : ∃ e ∈ j.events, e.eventId = eventId
  failed : ∀ e ∈ j.events, e.eventId = eventId → e.commitState = .failed

theorem Failed.not_live (h : j.Failed eventId) {e : EventRow} (he : e ∈ j.events)
    (hid : e.eventId = eventId) : e.isLive = false := by
  unfold EventRow.isLive
  rw [h.failed e he hid]
  rfl

theorem Failed.not_committed (h : j.Failed eventId) {e : EventRow} (he : e ∈ j.events)
    (hid : e.eventId = eventId) : e.isCommitted = false := by
  unfold EventRow.isCommitted
  rw [h.failed e he hid]
  rfl

theorem Failed.not_pending (h : j.Failed eventId) {e : EventRow} (he : e ∈ j.events)
    (hid : e.eventId = eventId) : e.isPending = false := by
  unfold EventRow.isPending
  rw [h.failed e he hid]
  rfl

theorem filter_forget {q : EventRow → Bool}
    (hq : ∀ e ∈ j.events, e.eventId = eventId → q e = false) :
    (j.forget eventId).events.filter q = j.events.filter q := by
  change (j.events.filter fun e => !decide (e.eventId = eventId)).filter q = _
  rw [List.filter_filter]
  apply List.filter_congr
  intro e he
  by_cases hid : e.eventId = eventId
  · rw [hq e he hid, Bool.false_and]
  · rw [decide_eq_false hid, Bool.not_false, Bool.and_true]

theorem any_forget {q : EventRow → Bool}
    (hq : ∀ e ∈ j.events, e.eventId = eventId → q e = false) :
    (j.forget eventId).events.any q = j.events.any q := by
  rw [Bool.eq_iff_iff, List.any_eq_true, List.any_eq_true]
  constructor
  · rintro ⟨e, he, htrue⟩
    exact ⟨e, List.mem_of_mem_filter he, htrue⟩
  · rintro ⟨e, he, htrue⟩
    refine ⟨e, mem_delete.2 ⟨he, decide_eq_false fun hid => ?_⟩, htrue⟩
    rw [hq e he hid] at htrue
    exact nomatch htrue

theorem existingEvent_forget {id : Uuid} (hne : id ≠ eventId) :
    (j.forget eventId).existingEvent id = j.existingEvent id :=
  find?_delete fun _ _ hid => decide_eq_false fun h => hne (h.symm.trans (of_decide_eq_true hid))

theorem ownedBy_forget {q : EventRow → Bool}
    (hq : ∀ e ∈ j.events, e.eventId = eventId → q e = false) (r : ResultRow) :
    (j.forget eventId).ownedBy q r = j.ownedBy q r :=
  any_forget fun e he hid => by rw [hq e he hid, Bool.and_false]

theorem change_forget {id : Uuid} {q : EventRow → Bool} {f : EventRow → EventRow}
    (hf : ∀ e, (f e).eventId = e.eventId) :
    (j.forget eventId).change id q f = (j.change id q f).forget eventId := by
  unfold change forget
  dsimp only
  unfold delete update
  rw [List.filter_map]
  congr 2
  apply List.filter_congr
  intro e _
  dsimp only [Function.comp_apply]
  split
  · rw [hf]
  · rfl

theorem acknowledge_forget (verdicts : List (Uuid × String)) :
    (j.forget eventId).acknowledge verdicts = (j.acknowledge verdicts).forget eventId := by
  unfold acknowledge
  split <;> split <;> first | rfl | contradiction

theorem acknowledge_events (verdicts : List (Uuid × String)) :
    (j.acknowledge verdicts).events = j.events := by
  unfold acknowledge
  split <;> rfl

/-! ## What is read -/

theorem claimRows_forget (h : j.Failed eventId) (scan : ScanInput) :
    (j.forget eventId).claimRows inventory scan = j.claimRows inventory scan := by
  have howned : ∀ r, (j.forget eventId).ownedBy (·.isLive) r = j.ownedBy (·.isLive) r :=
    ownedBy_forget fun _ => h.not_live
  cases scan with
  | km km =>
    unfold claimRows
    simp only [howned]
    rfl
  | sscc sscc =>
    unfold claimRows
    simp only [howned]
    rfl
  | gtin _ => rfl
  | unknown _ => rfl

theorem pendingEvents_forget (h : j.Failed eventId) (excluding : Option Uuid) :
    (j.forget eventId).pendingEvents excluding = j.pendingEvents excluding := by
  unfold pendingEvents
  rw [filter_forget fun e he hid => by rw [h.not_pending he hid, Bool.false_and]]

theorem firstUnknownObservation_forget (h : j.Failed eventId) (identity : NormalizedIdentity) :
    (j.forget eventId).firstUnknownObservation identity = j.firstUnknownObservation identity := by
  unfold firstUnknownObservation
  rw [filter_forget fun e he hid => by rw [h.not_live he hid, Bool.and_false, Bool.false_and]]

theorem winnerOf_forget (h : j.Failed eventId) (codeHash : String) :
    (j.forget eventId).winnerOf codeHash = j.winnerOf codeHash := by
  have howned : ∀ r, (j.forget eventId).ownedBy (·.isCommitted) r = j.ownedBy (·.isCommitted) r :=
    ownedBy_forget fun _ => h.not_committed
  unfold winnerOf
  simp only [howned]
  rfl

theorem firstProjectionWinner_forget (h : j.Failed eventId) (identity : ScanIdentity) :
    (j.forget eventId).firstProjectionWinner inventory identity =
      j.firstProjectionWinner inventory identity := by
  cases identity with
  | item codeHash raw => exact winnerOf_forget h codeHash
  | knownBox sscc children =>
    unfold firstProjectionWinner
    simp only [winnerOf_forget h]
  | oldBox sscc => rfl

theorem representative_forget (h : j.Failed eventId) {id : Uuid} (hne : id ≠ eventId) :
    (j.forget eventId).hasValidPriorRepresentative inventory id =
      j.hasValidPriorRepresentative inventory id := by
  have howned : ∀ (q : EventRow → Bool) r, (j.forget eventId).ownedBy (fun o => o.isCommitted && q o) r =
      j.ownedBy (fun o => o.isCommitted && q o) r := fun q =>
    ownedBy_forget fun e he hid => by rw [h.not_committed he hid, Bool.false_and]
  have hobserved : ∀ event verdict, (j.forget eventId).observedBefore event verdict =
      j.observedBefore event verdict := fun event verdict =>
    any_forget fun e he hid => by
      rw [h.not_committed he hid, Bool.and_false, Bool.false_and, Bool.false_and]
  have hchild : ∀ event child, (j.forget eventId).childSettled event child =
      j.childSettled event child := fun event child => by
    unfold childSettled
    simp only [Bool.and_assoc, howned]
    rfl
  have hcode : ∀ event codeHash, (j.forget eventId).codeSettled event codeHash =
      j.codeSettled event codeHash := fun event codeHash => by
    unfold codeSettled
    simp only [Bool.and_assoc, howned]
    rfl
  unfold hasValidPriorRepresentative
  rw [existingEvent_forget hne]
  cases j.existingEvent id with
  | none => rfl
  | some event =>
    dsimp only
    cases event.identity with
    | item codeHash =>
      dsimp only
      rw [hcode, hobserved]
    | knownBox sscc =>
      dsimp only
      simp only [funext (hchild event)]
    | oldBox sscc =>
      dsimp only
      rw [hobserved]

/-! ## What is written -/

theorem insertEvent_forget {row : EventRow} (hne : row.eventId ≠ eventId) :
    (j.forget eventId).insertEvent row = (j.insertEvent row).forget eventId := by
  have hany : (j.forget eventId).events.any (·.eventId = row.eventId) =
      j.events.any (·.eventId = row.eventId) :=
    any_forget fun _ _ hid => decide_eq_false fun h => hne (h.symm.trans hid)
  unfold insertEvent
  rw [hany]
  split
  · rfl
  · unfold forget delete
    dsimp only
    rw [List.filter_append, List.filter_singleton, decide_eq_false hne]
    rfl

theorem deleteProjection_forget (h : j.Failed eventId) (id : Uuid) :
    (j.forget eventId).deleteProjection id = (j.deleteProjection id).forget eventId := by
  have hany : (j.forget eventId).events.any (fun e => e.eventId = id && e.isPending) =
      j.events.any fun e => e.eventId = id && e.isPending :=
    any_forget fun e he hid => by rw [h.not_pending he hid, Bool.and_false]
  unfold deleteProjection
  rw [hany]
  have hqueued : (j.forget eventId).isQueued id = j.isQueued id := rfl
  rw [hqueued]
  split <;> rfl

theorem failEvent_forget (id : Uuid) :
    (j.forget eventId).failEvent id = (j.failEvent id).forget eventId := by
  have hqueued : (j.forget eventId).isQueued id = j.isQueued id := rfl
  unfold failEvent
  rw [hqueued]
  split
  · rfl
  · exact change_forget fun _ => rfl

theorem nextSequence_forget :
    (j.forget eventId).nextSequence = (j.nextSequence.1, j.nextSequence.2.forget eventId) := by
  have hterminal : (j.forget eventId).terminal = j.terminal := rfl
  unfold nextSequence
  rw [hterminal]
  cases j.terminal <;> rfl

theorem insertOutbox_forget (row : OutboxRow) :
    (j.forget eventId).insertOutbox row = (j.insertOutbox row).forget eventId := by
  have hqueued : (j.forget eventId).isQueued row.eventId = j.isQueued row.eventId := rfl
  unfold insertOutbox
  rw [hqueued]
  split <;> rfl

theorem Failed.with_events (h : j.Failed eventId) {j' : Journal} (heq : j'.events = j.events) :
    j'.Failed eventId := by
  obtain ⟨hpresent, hfailed⟩ := h
  exact ⟨heq ▸ hpresent, heq ▸ hfailed⟩

theorem Failed.change (h : j.Failed eventId) {id : Uuid} {q : EventRow → Bool}
    {f : EventRow → EventRow} (hf : ∀ e, (f e).eventId = e.eventId) :
    (j.change id q f).Failed eventId := by
  have hkept : ∀ {e}, e ∈ j.events → e.eventId = eventId →
      (e.eventId = id && e.isPending && q e) = false := fun he hid => by
    rw [h.not_pending he hid, Bool.and_false, Bool.false_and]
  constructor
  · obtain ⟨e, he, hid⟩ := h.present
    exact ⟨e, mem_update_of_not he (hkept he hid), hid⟩
  · intro e he hid
    obtain ⟨x, hx, rfl⟩ := mem_update.1 he
    have hxid : x.eventId = eventId := by
      split at hid
      · rw [← hid, hf]
      · exact hid
    rw [hkept hx hxid]
    exact h.failed x hx hxid

theorem Failed.insertEvent (h : j.Failed eventId) {row : EventRow} (hne : row.eventId ≠ eventId) :
    (j.insertEvent row).Failed eventId := by
  unfold Journal.insertEvent
  split
  · exact h
  · constructor
    · obtain ⟨e, he, hid⟩ := h.present
      exact ⟨e, List.mem_append_left _ he, hid⟩
    · intro e he hid
      rcases List.mem_append.1 he with he | he
      · exact h.failed e he hid
      · obtain rfl := List.mem_singleton.1 he
        exact absurd hid hne

end Journal

/-! ## Statements -/

/-- A statement that a failed event has no part in. -/
def Statement.Spares (eventId : Uuid) : Statement → Prop
  | .existingEvent id | .hasValidPriorRepresentative id => id ≠ eventId
  | .insertEvent row => row.eventId ≠ eventId
  | .unresolved | .hasDeviceScans => False
  | _ => True

open Journal

theorem execute_forget {j : Journal} {eventId : Uuid} (h : j.Failed eventId) {s : Statement}
    (hs : s.Spares eventId) : execute inventory (j.forget eventId) s =
      ((execute inventory j s).1, (execute inventory j s).2.forget eventId) := by
  cases s with
  | existingEvent id => exact Prod.ext (existingEvent_forget hs) rfl
  | claimRows scan => exact Prod.ext (claimRows_forget h scan) rfl
  | nextSequence => exact nextSequence_forget
  | insertEvent row => exact Prod.ext rfl (insertEvent_forget hs)
  | setDuplicateWinner id winner => exact Prod.ext rfl (change_forget fun _ => rfl)
  | firstUnknownObservation identity =>
    exact Prod.ext (firstUnknownObservation_forget h identity) rfl
  | firstProjectionWinner identity => exact Prod.ext (firstProjectionWinner_forget h identity) rfl
  | hasValidPriorRepresentative id => exact Prod.ext (representative_forget h hs) rfl
  | finalize id => exact Prod.ext rfl (change_forget fun _ => rfl)
  | deleteProjection id => exact Prod.ext rfl (deleteProjection_forget h id)
  | failEvent id => exact Prod.ext rfl (failEvent_forget id)
  | pendingEvents excluding => exact Prod.ext (pendingEvents_forget h excluding) rfl
  | setVerdict id verdict => exact Prod.ext rfl (change_forget fun _ => rfl)
  | insertOutbox row => exact Prod.ext rfl (insertOutbox_forget row)
  | unresolved => exact hs.elim
  | hasDeviceScans => exact hs.elim
  | pendingLeave | snapshotRows | activeDate | ensureTerminal | insertItem | insertBox
  | ownedProjectionSummary | outboxRow | setProductionDate => rfl

theorem execute_events (j : Journal) (s : Statement) :
    (execute inventory j s).2.events = j.events ∨
      (∃ row, s = .insertEvent row ∧ (execute inventory j s).2 = j.insertEvent row) ∨
      ∃ id q f, (execute inventory j s).2 = j.change id q f ∧
        ∀ e : EventRow, (f e).eventId = e.eventId := by
  cases s with
  | insertEvent row => exact .inr (.inl ⟨row, rfl, rfl⟩)
  | setDuplicateWinner _ _ | setVerdict _ _ | finalize _ =>
    exact .inr (.inr ⟨_, _, _, rfl, fun _ => rfl⟩)
  | failEvent id =>
    by_cases hq : j.isQueued id = true
    · exact .inl (congrArg Journal.events (if_pos hq))
    · exact .inr (.inr ⟨_, _, _, if_neg hq, fun _ => rfl⟩)
  | deleteProjection id =>
    left
    change (j.deleteProjection id).events = j.events
    unfold Journal.deleteProjection
    split <;> rfl
  | nextSequence =>
    left
    change j.nextSequence.2.events = j.events
    unfold Journal.nextSequence
    split <;> rfl
  | insertOutbox row =>
    left
    change (j.insertOutbox row).events = j.events
    unfold Journal.insertOutbox
    split <;> rfl
  | _ => exact .inl rfl

theorem execute_failed {j : Journal} {eventId : Uuid} (h : j.Failed eventId) {s : Statement}
    (hs : s.Spares eventId) : (execute inventory j s).2.Failed eventId := by
  rcases execute_events j s with heq | ⟨row, rfl, heq⟩ | ⟨id, q, f, heq, hf⟩
  · exact h.with_events heq
  · exact heq ▸ h.insertEvent hs
  · exact heq ▸ h.change hf

end Markiro.InventoryJournal
