import Markiro.InventoryJournal.Statements

/-!
# Reconciliation leaves nothing pending

Under acknowledgements that come in time a reconciliation commits the pending event where its row is
queued, fails it where it is not, and never ends in an error of its own (`reconcile_ends`).
-/

namespace Markiro.InventoryJournal

open Processes

variable {inventory : Inventory} {α β : Type}

/-! ## Triples of the journal -/

/-- Where `A` holds, `p` ends as `B` says; after an error nothing is pending. -/
def Reaches (inventory : Inventory) (A : Journal → Prop) (p : Journaled α)
    (B : α → Journal → Prop) : Prop :=
  (station inventory).Ends (journalContract inventory) A p B Journal.Settled

theorem settled_steady : (journalContract inventory).Stable Journal.Settled :=
  steady fun _ _ _ h => h

namespace Reaches

variable {B : α → Journal → Prop} {A : Journal → Prop}

theorem bind {p : Journaled α} {f : α → Journaled β}
    {Q : β → Journal → Prop} (h : Reaches inventory A p B)
    (hf : ∀ a, Reaches inventory (B a) (f a) Q) : Reaches inventory A (p >>= f) Q :=
  System.Ends.bind (journalContract_sound inventory) settled_steady h hf

theorem ask {s : Statement} {B : s.Answer → Journal → Prop}
    (hA : (journalContract inventory).Stable A) (hB : ∀ a, (journalContract inventory).Stable (B a))
    (h : ∀ j, j.Whole inventory → A j → InTime j s → asked inventory j s ∧
      B (execute inventory j s).1 (execute inventory j s).2) :
    Reaches inventory A (ask s) B := by
  refine System.Ends.query (journalContract_sound inventory) hA hB fun j hj hAj hm => ?_
  obtain ⟨hasked, hafter⟩ := h j hj hAj hm
  refine ⟨hasked, fun f a j' hs => ?_⟩
  obtain ⟨rfl, rfl⟩ : (execute inventory j s).1 = a ∧ (execute inventory j s).2 = j' := by
    have heq : execute inventory j s = (a, j') := Option.some.inj hs
    rw [heq]
    exact ⟨rfl, rfl⟩
  exact hafter

theorem pure {a : α} (hB : (journalContract inventory).Stable (B a))
    (h : ∀ j, j.Whole inventory → A j → B a j) : Reaches inventory A (Pure.pure a) B :=
  System.Ends.pure hB h

theorem throw {e : JournalError}
    (h : ∀ j, j.Whole inventory → A j → j.Settled) : Reaches inventory A (throw e) B :=
  System.Ends.throw settled_steady h

theorem require {b : Bool} {e : JournalError} {B : Unit → Journal → Prop}
    (hB : (journalContract inventory).Stable (B ()))
    (h : ∀ j, j.Whole inventory → A j → b = true → B () j)
    (hfalse : ∀ j, j.Whole inventory → A j → b = false → j.Settled) :
    Reaches inventory A (require b e) B :=
  System.Ends.require hB settled_steady h hfalse

theorem imp {A P : Journal → Prop} {p : Journaled α}
    (h : Reaches inventory P p B) (hA : ∀ j, j.Whole inventory → A j → P j) :
    Reaches inventory A p B :=
  System.Ends.imp h hA

theorem absurd {p : Journaled α} (h : ∀ j, j.Whole inventory → ¬A j) : Reaches inventory A p B :=
  System.Holds.absurd h

end Reaches

/-! ## Commit and failure -/

namespace Journal

variable {j : Journal}

/-- The pending event, which the next change is about. -/
structure Holds (j : Journal) (e : EventRow) : Prop where
  mem : e ∈ j.events
  pending : e.isPending = true

theorem Holds.settled (h : j.Whole inventory) {e : EventRow} (he : j.Holds e)
    {f : EventRow → EventRow} (hf : (f e).isPending = false) :
    (j.change e.eventId (fun _ => true) f).Settled := by
  intro x hx
  rcases (mem_change h he.mem he.pending rfl).1 hx with rfl | ⟨hx, hid⟩
  · exact hf
  · rw [Bool.eq_false_iff]
    exact fun hp => hid (congrArg EventRow.eventId (h.pending_eq hx he.mem hp he.pending))

theorem Holds.deleteProjection (h : j.Whole inventory) {e : EventRow} (he : j.Holds e)
    (hu : j.Unqueued e.eventId) : (j.deleteProjection e.eventId).Holds e ∧
      (j.deleteProjection e.eventId).Unqueued e.eventId ∧
      (j.deleteProjection e.eventId).Unclaimed e.eventId := by
  have hguard : (j.events.any (fun x => x.eventId = e.eventId && x.isPending) &&
      !j.isQueued e.eventId) = true := by
    rw [not_isQueued h hu, Bool.not_false, Bool.and_true]
    refine List.any_eq_true.2 ⟨e, he.mem, ?_⟩
    rw [he.pending, Bool.and_true]
    exact decide_eq_true rfl
  unfold Journal.deleteProjection
  rw [if_pos hguard]
  exact ⟨⟨he.mem, he.pending⟩, hu, fun r hr => of_decide_eq_true (List.mem_filter.1 hr).2⟩

theorem Holds.outboxRow (h : j.Whole inventory) {e : EventRow} (he : j.Holds e)
    (hm : InTime j (.outboxRow e.eventId)) :
    (j.outboxRow e.eventId = some e.queueRow ∧ e.queueRow ∈ j.queued) ∨
      (j.outboxRow e.eventId = none ∧ j.Unqueued e.eventId) := by
  have hnone : j.authoritativeVerdict e.eventId = none := hm e he.mem rfl he.pending
  cases hrow : j.outboxRow e.eventId with
  | some row =>
    have hmem := h.outbox row (List.mem_of_find?_eq_some hrow)
    have hid : row.eventId = e.eventId := by simpa using List.find?_some hrow
    obtain ⟨rfl, -⟩ := h.queued_eq he.mem hmem hid
    exact .inl ⟨rfl, hmem⟩
  | none =>
    right
    refine ⟨rfl, fun q hq hid => ?_⟩
    rcases h.delivered q hq with hout | hsome
    · have := List.find?_eq_none.1 hrow q hout
      exact this (decide_eq_true hid)
    · rw [hid, hnone] at hsome
      exact nomatch hsome

end Journal

open Journal

theorem finalize_ends (e : EventRow) :
    Reaches inventory (fun j => j.Holds e ∧ e.queueRow ∈ j.queued)
      (finalizePendingEvent e.eventId) fun _ => Journal.Settled := by
  refine Reaches.bind (B := fun _ => Journal.Settled)
    (Reaches.ask (steady fun _ _ _ h => ⟨⟨h.1.mem, h.1.pending⟩, h.2⟩) (fun _ => settled_steady)
      fun j hj hA _ => ⟨fun x hx hid hp => ?_, hA.1.settled hj rfl⟩) fun _ => ?_
  · obtain rfl := hj.pending_eq hx hA.1.mem hp hA.1.pending
    exact hA.2
  · refine Reaches.bind (B := fun _ => Journal.Settled)
      (Reaches.ask settled_steady (fun _ => settled_steady) fun _ _ h _ => ⟨trivial, h⟩) fun _ => ?_
    exact Reaches.require settled_steady (fun _ _ h _ => h) fun _ _ h _ => h

def Journal.Read (j : Journal) (e : EventRow) (bears : Prop) : Option OutboxRow → Prop
  | some row => row = e.queueRow ∧ e.queueRow ∈ j.queued ∧ bears
  | none => j.Unqueued e.eventId

theorem reconcileOne_ends (retries : ℕ) (e : EventRow) :
    Reaches inventory (fun j => j.Holds e) (reconcileOnePendingEvent (retries + 1) e)
      fun _ => Journal.Settled := by
  have hsteady : (journalContract inventory).Stable fun j => j.Holds e :=
    steady fun _ _ _ h => ⟨h.mem, h.pending⟩
  rw [reconcileOnePendingEvent]
  refine Reaches.bind (B := fun queued j => j.Holds e ∧ j.Read e True queued)
    (Reaches.ask hsteady (fun queued => ?_) fun j hj hA hm => ⟨trivial, hA, ?_⟩) fun queued => ?_
  · cases queued <;> exact steady fun _ _ _ h => ⟨⟨h.1.mem, h.1.pending⟩, h.2⟩
  · change j.Read e True (j.outboxRow e.eventId)
    rcases hA.outboxRow hj hm with ⟨hrow, hq⟩ | ⟨hrow, hu⟩
    · rw [hrow]
      exact ⟨rfl, hq, trivial⟩
    · rw [hrow]
      exact hu
  refine Reaches.bind (B := fun (summary : ProjectionSummary) j => j.Holds e ∧
      j.Read e (projectionMatches e.localVerdict summary = true) queued)
    (Reaches.ask ?_ (fun summary => ?_) fun j hj hA _ => ⟨trivial, hA.1, ?_⟩) fun summary => ?_
  · cases queued <;> exact steady fun _ _ _ h => ⟨⟨h.1.mem, h.1.pending⟩, h.2⟩
  · cases queued <;> exact steady fun _ _ _ h => ⟨⟨h.1.mem, h.1.pending⟩, h.2⟩
  · cases queued with
    | none => exact hA.2
    | some row =>
      obtain ⟨rfl, hq, -⟩ := hA.2
      exact ⟨rfl, hq, (hj.complete e hA.1.mem hA.1.pending hq).2.matches⟩
  cases queued with
  | some row =>
    have hvalid : Reaches inventory (fun j => j.Holds e ∧ row = e.queueRow ∧ e.queueRow ∈ j.queued ∧
        projectionMatches e.localVerdict summary = true) (representativeValid e)
        fun valid j => (j.Holds e ∧ row = e.queueRow ∧ e.queueRow ∈ j.queued ∧
          projectionMatches e.localVerdict summary = true) ∧ valid = true := by
      unfold representativeValid
      by_cases hdup : e.localVerdict = .duplicate
      · rw [if_pos hdup]
        refine Reaches.ask (steady fun _ _ _ h => ⟨⟨h.1.mem, h.1.pending⟩, h.2⟩)
          (fun _ => steady fun _ _ _ h => ⟨⟨⟨h.1.1.mem, h.1.1.pending⟩, h.1.2⟩, h.2⟩)
          fun j hj hA _ => ⟨trivial, hA, ?_⟩
        have hjust := (hj.complete e hA.1.mem hA.1.pending hA.2.2.1).2
        rw [hdup] at hjust
        exact Represented.valid hj hA.1.mem hA.1.pending hjust
      · rw [if_neg hdup]
        exact Reaches.pure (steady fun _ _ _ h => ⟨⟨⟨h.1.1.mem, h.1.1.pending⟩, h.1.2⟩, h.2⟩)
          fun _ _ h => ⟨h, rfl⟩
    refine Reaches.bind hvalid fun valid => ?_
    refine Reaches.bind (B := fun _ j => j.Holds e ∧ e.queueRow ∈ j.queued)
      (Reaches.require (steady fun _ _ _ h => ⟨⟨h.1.mem, h.1.pending⟩, h.2⟩)
        (fun _ _ h _ => ⟨h.1.1, h.1.2.2.1⟩) fun j _ h hfalse => ?_) fun _ => ?_
    · obtain ⟨⟨-, rfl, -, hs⟩, rfl⟩ := h
      have hrow : rowMatches e e.localVerdict e.queueRow = true := by
        unfold rowMatches EventRow.queueRow
        rw [decide_eq_true rfl, decide_eq_true rfl]
        rfl
      rw [hrow, hs] at hfalse
      exact nomatch hfalse
    · exact Reaches.bind (finalize_ends e) fun _ => Reaches.pure settled_steady fun _ _ h => h
  | none =>
    refine Reaches.bind (B := fun _ j => j.Holds e ∧ j.Unqueued e.eventId ∧ j.Unclaimed e.eventId)
      (Reaches.ask (steady fun _ _ _ h => ⟨⟨h.1.mem, h.1.pending⟩, h.2⟩)
        (fun _ => steady fun _ _ _ h => ⟨⟨h.1.mem, h.1.pending⟩, h.2⟩)
        fun j hj hA _ => ⟨hA.2, hA.1.deleteProjection hj hA.2⟩) fun _ => ?_
    refine Reaches.bind (B := fun _ j => j.Settled ∧ ∃ row ∈ j.events, row.eventId = e.eventId ∧
        row.commitState = .failed)
      (Reaches.ask (steady fun _ _ _ h => ⟨⟨h.1.mem, h.1.pending⟩, h.2⟩)
        (fun _ => steady fun _ _ _ h => h) fun j hj hA _ => ⟨hA.2, ?_⟩) fun _ => ?_
    · have hnot : ¬j.isQueued e.eventId = true := by
        rw [not_isQueued hj hA.2.1]
        exact Bool.false_ne_true
      change (j.failEvent e.eventId).Settled ∧ ∃ row ∈ (j.failEvent e.eventId).events,
        row.eventId = e.eventId ∧ row.commitState = .failed
      unfold Journal.failEvent
      rw [if_neg hnot]
      exact ⟨hA.1.settled hj rfl, { e with commitState := .failed },
        (mem_change hj hA.1.mem hA.1.pending rfl).2 (.inl rfl), rfl, rfl⟩
    refine Reaches.bind (B := fun (reconciled : Option EventRow) j => j.Settled ∧
        ∀ row ∈ reconciled, row.commitState = .failed)
      (Reaches.ask (steady fun _ _ _ h => h) (fun _ => steady fun _ _ _ h => h)
        fun j hj hA _ => ⟨trivial, hA.1, fun row hrow => ?_⟩) fun reconciled => ?_
    · obtain ⟨-, x, hx, hid, hfailed⟩ := hA
      obtain ⟨hmem, hrowid⟩ := existingEvent_some hrow
      obtain rfl := hj.ids.eq hmem hx (hrowid.trans hid.symm)
      exact hfailed
    cases reconciled with
    | none => exact Reaches.throw fun _ _ h => h.1
    | some row =>
      dsimp only
      cases hstate : row.commitState with
      | pending =>
        refine Reaches.absurd fun j _ h => ?_
        have := h.2 row rfl
        rw [hstate] at this
        exact nomatch this
      | failed => exact Reaches.pure settled_steady fun _ _ h => h.1
      | committed => exact Reaches.throw fun _ _ h => h.1

/-! ## All pending events -/

theorem pendingEvents_eq {j : Journal} (h : j.Whole inventory) (excluding : Option Uuid) :
    (j.pendingEvents excluding = [] ∧ (excluding = none → j.Settled)) ∨
      ∃ e, j.Holds e ∧ j.pendingEvents excluding = [e] := by
  unfold Journal.pendingEvents
  have hperm := List.perm_insertionSort (fun a b : EventRow => ¬b.precedes a)
    (j.events.filter fun e => e.isPending && decide (excluding ≠ some e.eventId))
  cases hlist : j.events.filter fun e => e.isPending && decide (excluding ≠ some e.eventId) with
  | nil =>
    refine .inl ⟨rfl, fun hnone e he => ?_⟩
    have hnot := List.filter_eq_nil_iff.1 hlist e he
    rw [hnone] at hnot
    simpa using hnot
  | cons e rest =>
    have hin : ∀ x ∈ e :: rest, x ∈ j.events ∧ x.isPending = true := by
      intro x hx
      rw [← hlist] at hx
      obtain ⟨hmem, hcond⟩ := List.mem_filter.1 hx
      exact ⟨hmem, (Bool.and_eq_true_iff.1 hcond).1⟩
    have hnodup : (e :: rest).Nodup := by
      rw [← hlist]
      exact (List.Nodup.of_map _ h.ids).filter _
    have hrest : rest = [] := by
      refine List.eq_nil_iff_forall_not_mem.2 fun x hx => ?_
      obtain ⟨hxm, hxp⟩ := hin x (List.mem_cons_of_mem _ hx)
      obtain ⟨hem, hep⟩ := hin e List.mem_cons_self
      obtain rfl := h.pending_eq hxm hem hxp hep
      exact (List.nodup_cons.1 hnodup).1 hx
    subst hrest
    obtain ⟨hem, hep⟩ := hin e List.mem_cons_self
    exact .inr ⟨e, ⟨hem, hep⟩, rfl⟩

/-- **A reconciliation leaves nothing pending.** -/
theorem reconcile_ends (retries : ℕ) :
    Reaches inventory (fun _ => True) (reconcilePendingInventoryEvents retries none)
      fun _ => Journal.Settled := by
  have hloop : ∀ rest : List EventRow, (journalContract inventory).Stable fun j =>
      (rest = [] ∧ j.Settled) ∨ ∃ e, j.Holds e ∧ rest = [e] := fun rest =>
    steady fun _ _ _ h => h.imp_right fun ⟨e, he, heq⟩ => ⟨e, ⟨he.mem, he.pending⟩, heq⟩
  unfold reconcilePendingInventoryEvents
  refine Reaches.bind (B := fun (pending : List EventRow) j => (pending = [] ∧ j.Settled) ∨
      ∃ e, j.Holds e ∧ pending = [e])
    (Reaches.ask (steady fun _ _ _ h => h) hloop fun j hj _ _ => ⟨trivial, ?_⟩) fun pending => ?_
  · exact (pendingEvents_eq hj none).imp_left fun h => ⟨h.1, h.2 rfl⟩
  refine Reaches.bind (B := fun _ => Journal.Settled) ?_ fun _ => ?_
  · refine System.Ends.post (System.Ends.foldl (journalContract_sound inventory)
      (fun rest (_ : ℕ) j => (rest = [] ∧ j.Settled) ∨ ∃ e, j.Holds e ∧ rest = [e]) settled_steady
      (fun _ => hloop []) (fun e rest count => ?_) pending 0) ?_ fun _ h => h
    · refine Reaches.imp (P := fun j => j.Holds e ∧ rest = []) ?_ ?_
      · refine Reaches.bind (B := fun _ j => j.Settled ∧ rest = []) ?_ fun committed => ?_
        · by_cases hrest : rest = []
          · exact System.Ends.post ((reconcileOne_ends retries e).imp fun _ _ h => h.1)
              (fun _ _ h => ⟨h, hrest⟩) fun _ h => h
          · exact Reaches.absurd fun _ _ h => hrest h.2
        · exact Reaches.pure (hloop rest) fun _ _ h => .inl ⟨h.2, h.1⟩
      · rintro j - (⟨hnil, -⟩ | ⟨x, hx, heq⟩)
        · exact nomatch hnil
        · obtain ⟨rfl, rfl⟩ := List.cons.inj heq
          exact ⟨hx, rfl⟩
    · rintro _ j (⟨-, h⟩ | ⟨e, -, heq⟩)
      · exact h
      · exact nomatch heq
  · refine Reaches.bind (B := fun _ => Journal.Settled)
      (Reaches.ask settled_steady (fun _ => settled_steady) fun _ _ h _ => ⟨trivial, h⟩) fun _ => ?_
    exact Reaches.pure settled_steady fun _ _ h => h

/-- Where nothing is pending, a reconciliation changes nothing. -/
theorem reconcile_idle (retries : ℕ) (excluding : Option Uuid) {P : Journal → Prop}
    (hP : (journalContract inventory).Stable P) :
    Reaches inventory (fun j => j.Settled ∧ P j) (reconcilePendingInventoryEvents retries excluding)
      fun _ j => j.Settled ∧ P j := by
  have hsteady := settled_steady.and hP
  unfold reconcilePendingInventoryEvents
  refine Reaches.bind (B := fun (pending : List EventRow) j => (j.Settled ∧ P j) ∧ pending = [])
    (Reaches.ask hsteady (fun _ => hsteady.and (Contract.Stable.const _))
      fun j hj hA _ => ⟨trivial, hA, ?_⟩) fun pending => ?_
  · rcases pendingEvents_eq hj excluding with ⟨hnil, -⟩ | ⟨e, he, -⟩
    · exact hnil
    · have hp := he.pending
      rw [hA.1 e he.mem] at hp
      exact nomatch hp
  cases pending with
  | cons e rest => exact Reaches.absurd fun _ _ h => nomatch h.2
  | nil =>
    refine Reaches.bind (B := fun _ j => j.Settled ∧ P j) (Reaches.pure hsteady fun _ _ h => h.1)
      fun _ => ?_
    refine Reaches.bind (B := fun _ j => j.Settled ∧ P j)
      (Reaches.ask hsteady (fun _ => hsteady) fun _ _ h _ => ⟨trivial, h⟩) fun _ => ?_
    exact Reaches.pure hsteady fun _ _ h => h

end Markiro.InventoryJournal
