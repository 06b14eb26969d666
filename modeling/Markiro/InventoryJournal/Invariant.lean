import Markiro.InventoryJournal.Calls

/-!
# What the tables of the journal keep to

`Journal.Whole` holds between any two statements, whatever was cut short: at most the last event is
pending, each result is the one its owner gave, and an event is queued with its stored fields before
it is committed and never failed after. Each statement keeps it where it is asked as it should be.
-/

namespace Markiro.InventoryJournal

open Utf16 Processes Table

/-! ## Events and results -/

def EventRow.claims (inventory : Inventory) (e : EventRow) : List SnapshotRow :=
  match e.identity with
  | .item codeHash => inventory.rows.filter (·.codeHash = codeHash)
  | .knownBox sscc => inventory.children sscc
  | .oldBox _ => []

structure ResultRow.OwnedBy (inventory : Inventory) (r : ResultRow) (e : EventRow) : Prop where
  event : r.firstAcceptedEventId = e.eventId
  scannedAt : r.winningScannedAt = e.scannedAt
  date : r.observedProductionDate = e.activeProductionDate
  row : ∃ row ∈ e.claims inventory, r.codeHash = row.codeHash ∧
    r.originClassification = row.origin ∧ r.classification = row.origin

/-- The parts of an event that never change. -/
structure EventRow.Same (a b : EventRow) : Prop where
  eventId : a.eventId = b.eventId
  deviceSequence : a.deviceSequence = b.deviceSequence
  scannedAt : a.scannedAt = b.scannedAt
  identity : a.identity = b.identity
  date : a.activeProductionDate = b.activeProductionDate

theorem EventRow.Same.claims {inventory : Inventory} {a b : EventRow} (h : a.Same b) :
    a.claims inventory = b.claims inventory := by
  rw [EventRow.claims, EventRow.claims, h.identity]

theorem ResultRow.OwnedBy.same {inventory : Inventory} {r : ResultRow} {a b : EventRow}
    (h : r.OwnedBy inventory a) (hab : a.Same b) : r.OwnedBy inventory b where
  event := h.event.trans hab.eventId
  scannedAt := h.scannedAt.trans hab.scannedAt
  date := h.date.trans hab.date
  row := @EventRow.Same.claims inventory _ _ hab ▸ h.row

namespace Journal

def Unqueued (j : Journal) (eventId : Uuid) : Prop := ∀ q ∈ j.queued, q.eventId ≠ eventId

def Unclaimed (j : Journal) (eventId : Uuid) : Prop :=
  ∀ r ∈ j.results, r.firstAcceptedEventId ≠ eventId

def Settled (j : Journal) : Prop := ∀ e ∈ j.events, e.isPending = false

def Covered (inventory : Inventory) (j : Journal) (e : EventRow) : Prop :=
  ∀ row ∈ e.claims inventory, ∃ r ∈ j.results, r.codeHash = row.codeHash ∧
    ∃ o ∈ j.events, o.eventId = r.firstAcceptedEventId ∧ o.deviceSequence ≤ e.deviceSequence

def Observed (j : Journal) (identity : NormalizedIdentity) : Prop :=
  ∃ o ∈ j.events, o.identity = identity ∧ o.isCommitted = true ∧ o.localVerdict = .unknown

/-- Another event stands for the codes of this one. -/
def Represented (inventory : Inventory) (j : Journal) (e : EventRow) : Prop :=
  j.Unclaimed e.eventId ∧
    match e.identity with
    | .item codeHash => (∃ r ∈ j.results, r.codeHash = codeHash) ∨ j.Observed e.identity
    | .knownBox sscc => inventory.children sscc ≠ [] ∧
        ∀ row ∈ inventory.children sscc, ∃ r ∈ j.results, r.codeHash = row.codeHash
    | .oldBox _ => j.Observed e.identity

def Justified (inventory : Inventory) (j : Journal) (e : EventRow) : Verdict → Prop
  | .origin o => ∃ r ∈ j.results, r.firstAcceptedEventId = e.eventId ∧ r.originClassification = o
  | .unknown => j.Unclaimed e.eventId
  | .duplicate => j.Represented inventory e

/-- **The invariant of the journal.** -/
structure Whole (inventory : Inventory) (j : Journal) : Prop where
  ids : Table.Unique (·.eventId) j.events
  order : (j.events.map (·.deviceSequence)).Pairwise (· < ·)
  next : ∀ e ∈ j.events, e.deviceSequence < j.terminalRow.nextDeviceSequence
  last : ∀ e ∈ j.events, e.isPending = true → ∀ o ∈ j.events, o.deviceSequence ≤ e.deviceSequence
  codes : Table.Unique (·.codeHash) j.results
  owned : ∀ r ∈ j.results, ∃ e ∈ j.events, e.isLive = true ∧ r.OwnedBy inventory e
  covered : ∀ e ∈ j.events, e.isCommitted = true → j.Covered inventory e
  logged : ∀ q ∈ j.queued, ∃ e ∈ j.events, e.isLive = true ∧ q = e.queueRow
  once : Table.Unique (·.eventId) j.queued
  committed : ∀ e ∈ j.events, e.isCommitted = true → e.queueRow ∈ j.queued
  outbox : ∀ q ∈ j.outbox, q ∈ j.queued
  delivered : ∀ q ∈ j.queued, q ∈ j.outbox ∨ (j.authoritativeVerdict q.eventId).isSome = true
  acknowledged : ∀ eventId, (j.authoritativeVerdict eventId).isSome = true →
    ∃ q ∈ j.queued, q.eventId = eventId
  complete : ∀ e ∈ j.events, e.isPending = true → e.queueRow ∈ j.queued →
    j.Covered inventory e ∧ j.Justified inventory e e.localVerdict

end Journal

/-! ## States of an event -/

theorem EventRow.live_iff {e : EventRow} :
    e.isLive = true ↔ e.isPending = true ∨ e.isCommitted = true := by
  unfold isLive isPending isCommitted
  cases e.commitState <;> simp

theorem EventRow.not_pending_of_committed {e : EventRow} (h : e.isCommitted = true) :
    e.isPending = false := by
  unfold isCommitted at h
  unfold isPending
  rw [of_decide_eq_true h]
  rfl

namespace Journal

variable {inventory : Inventory} {j : Journal}

namespace Whole

theorem eq_of_sequence (h : j.Whole inventory) {a b : EventRow} (ha : a ∈ j.events)
    (hb : b ∈ j.events) (hab : a.deviceSequence = b.deviceSequence) : a = b := by
  have hnodup : (j.events.map (·.deviceSequence)).Nodup :=
    h.order.imp fun hlt => Nat.ne_of_lt hlt
  exact Unique.eq (k := EventRow.deviceSequence) hnodup ha hb hab

theorem pending_eq (h : j.Whole inventory) {a b : EventRow} (ha : a ∈ j.events)
    (hb : b ∈ j.events) (hap : a.isPending = true) (hbp : b.isPending = true) : a = b :=
  h.eq_of_sequence ha hb (le_antisymm (h.last b hb hbp a ha) (h.last a ha hap b hb))

theorem before_pending (h : j.Whole inventory) {e o : EventRow} (he : e ∈ j.events)
    (hp : e.isPending = true) (ho : o ∈ j.events) (hne : o.eventId ≠ e.eventId) :
    o.deviceSequence < e.deviceSequence := by
  refine lt_of_le_of_ne (h.last e he hp o ho) fun heq => hne ?_
  rw [h.eq_of_sequence ho he heq]

theorem queued_eq (h : j.Whole inventory) {e : EventRow} (he : e ∈ j.events) {q : OutboxRow}
    (hq : q ∈ j.queued) (hid : q.eventId = e.eventId) : q = e.queueRow ∧ e.isLive = true := by
  obtain ⟨o, ho, hlive, rfl⟩ := h.logged q hq
  obtain rfl := h.ids.eq ho he hid
  exact ⟨rfl, hlive⟩

theorem owner_committed (h : j.Whole inventory) {e : EventRow} (he : e ∈ j.events)
    (hp : e.isPending = true) {r : ResultRow} (hr : r ∈ j.results)
    (hne : r.firstAcceptedEventId ≠ e.eventId) :
    ∃ o ∈ j.events, o.isCommitted = true ∧ r.OwnedBy inventory o ∧
      o.deviceSequence < e.deviceSequence := by
  obtain ⟨o, ho, hlive, hown⟩ := h.owned r hr
  have hoe : o.eventId ≠ e.eventId := fun heq => hne (hown.event.trans heq)
  rcases EventRow.live_iff.1 hlive with hpo | hco
  · exact absurd (congrArg EventRow.eventId (h.pending_eq ho he hpo hp)) hoe
  · exact ⟨o, ho, hco, hown, h.before_pending he hp ho hoe⟩

end Whole

/-! ## What the code reads of a pending event -/

theorem existingEvent_eq (h : j.Whole inventory) {e : EventRow} (he : e ∈ j.events) :
    j.existingEvent e.eventId = some e := h.ids.find? he

theorem existingEvent_none {eventId : Uuid} (h : j.existingEvent eventId = none) :
    ∀ e ∈ j.events, e.eventId ≠ eventId := by
  intro e he
  have := List.find?_eq_none.1 h e he
  simpa using this

theorem existingEvent_some {eventId : Uuid} {e : EventRow} (h : j.existingEvent eventId = some e) :
    e ∈ j.events ∧ e.eventId = eventId :=
  ⟨List.mem_of_find?_eq_some h, by simpa using List.find?_some h⟩

theorem ownedBy_of {r : ResultRow} {o : EventRow} (ho : o ∈ j.events) {q : EventRow → Bool}
    (hown : r.OwnedBy inventory o) (hq : q o = true) : j.ownedBy q r = true := by
  unfold ownedBy
  refine List.any_eq_true.2 ⟨o, ho, ?_⟩
  rw [hq, Bool.and_true, decide_eq_true_iff]
  exact hown.event.symm

theorem precedes_of_lt {a b : EventRow} (h : a.deviceSequence < b.deviceSequence) :
    a.precedes b = true := by
  rw [EventRow.precedes, decide_eq_true h, Bool.true_or]

theorem observedBefore_of (h : j.Whole inventory) {e : EventRow} (he : e ∈ j.events)
    (hp : e.isPending = true) (hobs : j.Observed e.identity) {verdict : Verdict → Bool}
    (hv : verdict .unknown = true) : j.observedBefore e verdict = true := by
  obtain ⟨o, ho, hid, hco, hunknown⟩ := hobs
  have hne : o.eventId ≠ e.eventId := by
    intro heq
    obtain rfl := h.ids.eq ho he heq
    rw [EventRow.not_pending_of_committed hco] at hp
    exact nomatch hp
  unfold observedBefore
  refine List.any_eq_true.2 ⟨o, ho, ?_⟩
  rw [decide_eq_true hid, hco, hunknown, hv, precedes_of_lt (h.before_pending he hp ho hne)]
  rfl

theorem Represented.valid (h : j.Whole inventory) {e : EventRow} (he : e ∈ j.events)
    (hp : e.isPending = true) (hr : j.Represented inventory e) :
    j.hasValidPriorRepresentative inventory e.eventId = true := by
  obtain ⟨hnone, hr⟩ := hr
  unfold hasValidPriorRepresentative
  rw [existingEvent_eq h he]
  dsimp only
  cases hid : e.identity with
  | item codeHash =>
    simp only [hid] at hr ⊢
    rcases hr with ⟨r, hmem, hcode⟩ | hobs
    · obtain ⟨o, ho, hco, hown, hlt⟩ := h.owner_committed he hp hmem (hnone r hmem)
      refine Bool.or_eq_true_iff.2 (.inl (List.any_eq_true.2 ⟨r, hmem, ?_⟩))
      rw [decide_eq_true hcode, Bool.true_and]
      refine ownedBy_of ho hown ?_
      rw [hco, decide_eq_true hown.scannedAt, precedes_of_lt hlt]
      rfl
    · exact Bool.or_eq_true_iff.2 (.inr (observedBefore_of h he hp (hid ▸ hobs) (by decide)))
  | knownBox sscc =>
    simp only [hid] at hr ⊢
    obtain ⟨hne, hall⟩ := hr
    rw [decide_eq_true hne, Bool.true_and]
    refine List.all_eq_true.2 fun child hchild => ?_
    obtain ⟨r, hmem, hcode⟩ := hall child hchild
    obtain ⟨o, ho, hco, hown, hlt⟩ := h.owner_committed he hp hmem (hnone r hmem)
    obtain ⟨row, hrow, hrcode, horigin, hclass⟩ := hown.row
    have hrowmem : row ∈ inventory.rows := by
      unfold EventRow.claims at hrow
      split at hrow
      · exact List.mem_of_mem_filter hrow
      · exact List.mem_of_mem_filter hrow
      · exact absurd hrow List.not_mem_nil
    obtain rfl : row = child :=
      Unique.eq inventory.unique hrowmem (List.mem_of_mem_filter hchild) (hrcode.symm.trans hcode)
    refine List.any_eq_true.2 ⟨r, hmem, ?_⟩
    have hownedBy : j.ownedBy (fun o => o.isCommitted && decide (r.winningScannedAt = o.scannedAt) &&
        decide (r.observedProductionDate = o.activeProductionDate) && o.precedes e) r = true := by
      refine ownedBy_of ho hown ?_
      rw [hco, decide_eq_true hown.scannedAt, decide_eq_true hown.date, precedes_of_lt hlt]
      rfl
    rw [decide_eq_true hcode, decide_eq_true (hclass.trans horigin.symm), decide_eq_true horigin,
      hownedBy]
    rfl
  | oldBox sscc =>
    simp only [hid] at hr ⊢
    exact observedBefore_of h he hp (hid ▸ hr) (by decide)

theorem countP_owned_pos {eventId : Uuid} {p : ResultRow → Bool} :
    0 < (j.results.filter (·.firstAcceptedEventId = eventId)).countP p ↔
      ∃ r ∈ j.results, r.firstAcceptedEventId = eventId ∧ p r = true := by
  rw [List.countP_pos_iff]
  constructor
  · rintro ⟨r, hr, hp⟩
    obtain ⟨hmem, hid⟩ := List.mem_filter.1 hr
    exact ⟨r, hmem, of_decide_eq_true hid, hp⟩
  · rintro ⟨r, hmem, hid, hp⟩
    exact ⟨r, List.mem_filter.2 ⟨hmem, decide_eq_true hid⟩, hp⟩

theorem total_eq_zero {eventId : Uuid} :
    (j.ownedProjectionSummary eventId).total = 0 ↔ j.Unclaimed eventId := by
  unfold ownedProjectionSummary Unclaimed
  dsimp only
  rw [List.length_eq_zero_iff, List.filter_eq_nil_iff]
  simp

theorem Justified.matches {e : EventRow} {verdict : Verdict} (h : j.Justified inventory e verdict) :
    projectionMatches verdict (j.ownedProjectionSummary e.eventId) = true := by
  cases verdict with
  | origin o =>
    obtain ⟨r, hr, hid, ho⟩ := h
    cases o
    all_goals
      refine decide_eq_true (countP_owned_pos.2 ⟨r, hr, hid, ?_⟩)
      exact decide_eq_true ho
  | unknown => exact decide_eq_true (total_eq_zero.2 h)
  | duplicate => exact decide_eq_true (total_eq_zero.2 h.1)

end Journal

end Markiro.InventoryJournal
