import Markiro.InventoryJournal.Committing
import Markiro.InventoryJournal.Retrying

/-!
# Runs of the inventory journal

Scans and reconciliations of one inventory, cut short after any statement, with acknowledgements at
any moment. What the journal promises holds in every state of a run in which each acknowledgement
comes in time (`journal_survives`): after the journal has read the outbox row that it was sent from,
not between its insertion and that read. One that comes sooner makes the journal take its own event
for one that was never queued (`acknowledged_failed`).
-/

namespace Markiro.InventoryJournal

open Utf16 Processes Table Journal

variable {inventory : Inventory}

/-! ## Rows that never change again -/

theorem execute_settled {j : Journal} {e : EventRow} (he : e ∈ j.events) (hp : e.isPending = false)
    (s : Statement) : e ∈ (execute inventory j s).2.events := by
  rcases execute_events j s with heq | ⟨row, -, heq⟩ | ⟨id, q, f, heq, -⟩
  · exact heq ▸ he
  · rw [heq]
    unfold Journal.insertEvent
    split
    · exact he
    · exact List.mem_append_left _ he
  · exact heq ▸ mem_update_of_not he (by rw [hp, Bool.and_false, Bool.false_and])

/-- **An event that is committed or failed never changes again**, whatever happens. -/
theorem run_settled (c : Config Statement.Answer Journal) (moves : List (Move Unit Batch Job))
    {e : EventRow} (he : e ∈ c.world.events) (hp : e.isPending = false) :
    e ∈ ((station inventory).run c moves).world.events := by
  refine System.run_keeps (station inventory) (T := fun j j' =>
      ∀ e ∈ j.events, e.isPending = false → e ∈ j'.events) (fun _ _ he _ => he)
    (fun _ _ _ h h' e he hp => h' e (h e he hp) hp) (fun j s f a j' hs e he hp => ?_)
    (fun j batch e he _ => ?_) c moves e he hp
  · have heq : (execute inventory j s).2 = j' := congrArg Prod.snd (Option.some.inj hs)
    exact heq ▸ execute_settled he hp s
  · change e ∈ (j.acknowledge batch).events
    rw [acknowledge_events]
    exact he

/-! ## What the journal promises -/

namespace Journal

/-- The tables when the inventory is opened on the station. -/
def opened (terminal : Option Terminal) : Journal := ⟨[], [], [], terminal, fun _ => none, []⟩

/-- In every state: a committed event was queued once, with its stored fields, and its row is in the
outbox or acknowledged; an acknowledged event is not failed; and a failed event owns nothing. -/
structure Upheld (j : Journal) : Prop where
  queued : ∀ e ∈ j.events, e.isCommitted = true →
    j.queued.filter (·.eventId = e.eventId) = [e.queueRow] ∧
      (e.queueRow ∈ j.outbox ∨ (j.authoritativeVerdict e.eventId).isSome = true)
  accepted : ∀ e ∈ j.events, (j.authoritativeVerdict e.eventId).isSome = true →
    e.commitState ≠ .failed
  failed : ∀ e ∈ j.events, e.commitState = .failed → j.Unclaimed e.eventId

/-- Where no call runs: every event is committed or failed, a result belongs to the first committed
event that claimed its code, and a scan under a new id is recorded as without a failed event. -/
structure AtRest (inventory : Inventory) (j : Journal) : Prop where
  settled : ∀ e ∈ j.events, e.commitState = .committed ∨ e.commitState = .failed
  owners : ∀ r ∈ j.results, ∃ e ∈ j.events, e.isCommitted = true ∧ r.OwnedBy inventory e ∧
    ∀ o ∈ j.events, o.isCommitted = true →
      (∃ row ∈ o.claims inventory, row.codeHash = r.codeHash) → e.deviceSequence ≤ o.deviceSequence
  retried : ∀ e ∈ j.events, e.commitState = .failed → ∀ input : RecordInventoryScanInput,
    j.Fresh input.eventId → ∀ retries batches result,
      (Amid.call inventory (recordInventoryScan inventory retries input) ⟨j, batches⟩).1 =
        .ok (.recorded result) →
      Amid.call inventory (recordInventoryScan inventory retries input)
          ⟨j.forget e.eventId, batches⟩ =
        (.ok (.recorded result), (Amid.call inventory (recordInventoryScan inventory retries input)
          ⟨j, batches⟩).2.forget e.eventId)

variable {j : Journal}

theorem opened_whole (terminal : Option Terminal) : (opened terminal).Whole inventory := by
  have hevents : ∀ {P : EventRow → Prop}, ∀ e ∈ (opened terminal).events, P e :=
    fun _ he => absurd he List.not_mem_nil
  have hqueued : ∀ {P : OutboxRow → Prop}, ∀ q ∈ (opened terminal).queued, P q :=
    fun _ hq => absurd hq List.not_mem_nil
  exact
    { ids := List.nodup_nil
      order := List.Pairwise.nil
      next := hevents
      last := hevents
      codes := List.nodup_nil
      owned := fun _ hr => absurd hr List.not_mem_nil
      covered := hevents
      logged := hqueued
      once := List.nodup_nil
      committed := hevents
      outbox := hqueued
      delivered := hqueued
      acknowledged := fun _ hsome => absurd hsome Bool.false_ne_true
      complete := hevents }

theorem failed_not_live {e : EventRow} (h : e.commitState = .failed) : ¬e.isLive = true := by
  unfold EventRow.isLive
  rw [h]
  exact Bool.false_ne_true

theorem Whole.upheld (h : j.Whole inventory) : j.Upheld where
  queued e he hc := by
    have hq := h.committed e he hc
    constructor
    · exact h.once.filter_eq hq
    · exact h.delivered _ hq
  accepted e he hsome hfailed := by
    obtain ⟨q, hq, hid⟩ := h.acknowledged _ hsome
    exact failed_not_live hfailed (h.queued_eq he hq hid).2
  failed e he hfailed r hr hid := by
    obtain ⟨o, ho, hlive, hown⟩ := h.owned r hr
    obtain rfl := h.ids.eq ho he (hown.event.symm.trans hid)
    exact failed_not_live hfailed hlive

theorem Settled.state (h : j.Settled) {e : EventRow} (he : e ∈ j.events) :
    e.commitState = .committed ∨ e.commitState = .failed := by
  have hp := h e he
  unfold EventRow.isPending at hp
  cases hstate : e.commitState with
  | pending =>
    rw [hstate] at hp
    exact nomatch hp
  | committed => exact .inl rfl
  | failed => exact .inr rfl

theorem Whole.atRest (h : j.Whole inventory) (hs : j.Settled) : j.AtRest inventory where
  settled _ he := hs.state he
  owners r hr := by
    obtain ⟨e, he, hlive, hown⟩ := h.owned r hr
    have hcommitted : e.isCommitted = true := by
      rcases EventRow.live_iff.1 hlive with hp | hc
      · rw [hs e he] at hp
        exact nomatch hp
      · exact hc
    refine ⟨e, he, hcommitted, hown, fun o ho hc hclaims => ?_⟩
    obtain ⟨row, hrow, hcode⟩ := hclaims
    obtain ⟨r', hr', hcode', e', he', hid, hle⟩ := h.covered o ho hc row hrow
    obtain rfl := h.codes.eq hr' hr (hcode'.trans hcode)
    obtain rfl := h.ids.eq he' he (hid.trans hown.event)
    exact hle
  retried e he hfailed input hfresh retries batches result hresult := by
    have hfailedIn : j.Failed e.eventId := ⟨⟨e, he, rfl⟩, fun o ho hid => by
      obtain rfl := h.ids.eq ho he hid
      exact hfailed⟩
    have hne : input.eventId ≠ e.eventId := fun heq => hfresh e he heq.symm
    exact record_records hne retries ⟨j, batches⟩ ⟨hfailedIn, hs⟩ result hresult

end Journal

/-! ## Runs -/

/-- A scan starts where the call before it is done, by itself or by a reconciliation. -/
def Disciplined (c : Config Statement.Answer Journal) : Move Unit Batch Job → Prop
  | .start job => job.isRecord = true → c.pending = none
  | _ => True

/-- Where a statement is answered, no acknowledgement has come too soon for it. -/
def Timely (c : Config Statement.Answer Journal) : Move Unit Batch Job → Prop
  | .answer _ => ∀ s ∈ c.pending, InTime c.world s
  | _ => True

instance (j : Journal) (s : Statement) : Decidable (InTime j s) := by
  unfold InTime
  split <;> infer_instance

instance (c : Config Statement.Answer Journal) (m : Move Unit Batch Job) :
    Decidable (Disciplined c m) := by
  unfold Disciplined
  split <;> infer_instance

instance (c : Config Statement.Answer Journal) (m : Move Unit Batch Job) :
    Decidable (Timely c m) := by
  unfold Timely
  split <;> infer_instance

/-- Nothing runs on the station. -/
def idle (terminal : Option Terminal) : Config Statement.Answer Journal :=
  ⟨Journal.opened terminal, .done ()⟩

theorem done_of_pending {c : Config Statement.Answer Journal} (h : c.pending = none) :
    c.process = .done () := by
  unfold Config.pending at h
  cases hp : c.process with
  | done _ => rfl
  | ask r k =>
    rw [hp] at h
    exact nomatch h

theorem process_ends (job : Job) {j : Journal} (hj : j.Whole inventory)
    (hs : job.isRecord = true → j.Settled) :
    (station inventory).Keeps (journalContract inventory) ((station inventory).process job)
      (fun _ => Journal.Settled) j := by
  have hend : ∀ {α : Type} (B : α → Journal → Prop), (∀ a j, B a j → j.Settled) →
      ∀ r : Except JournalError α, (station inventory).Holds (journalContract inventory)
        (System.ending B Journal.Settled r) (.done ()) fun _ => Journal.Settled := by
    intro α B hB r
    refine System.Holds.done settled_steady fun j _ h => ?_
    cases r with
    | ok a => exact hB a j h
    | error _ => exact h
  cases job with
  | record retries input =>
    exact System.Holds.bind (journalContract_sound inventory) (record_ends retries input)
      (hend _ fun _ _ h => h) j hj (hs rfl)
  | reconcile retries =>
    exact System.Holds.bind (journalContract_sound inventory) (reconcile_ends retries)
      (hend _ fun _ _ h => h) j hj trivial

/-- The scan of a box that the snapshot does not know. -/
def Sample.input (eventId : Uuid) : RecordInventoryScanInput :=
  ⟨"operator", encode "04600000000000", encode "00046006820000000013", eventId, 5, false⟩

def Sample.emptySnapshot : Inventory := ⟨fun _ => "", [], List.nodup_nil, false⟩

def Sample.terminal : Option Terminal := some ⟨some "2026-01-05", 1⟩

def Sample.answers (n : ℕ) : List (Move Unit Batch Job) := List.replicate n (.answer ())

/-- The row is queued when the station is cut short, and the scan is repeated after it. -/
def Sample.interrupted : List (Move Unit Batch Job) :=
  .start (.record 0 (Sample.input 1)) :: Sample.answers 18 ++
    .start (.reconcile 0) :: Sample.answers 10 ++ .outside [(1, "accepted")] ::
    .start (.record 0 (Sample.input 2)) :: Sample.answers 30

/-- The row is sent and acknowledged before the journal has read it. -/
def Sample.hasty : List (Move Unit Batch Job) :=
  .start (.record 0 (Sample.input 1)) :: Sample.answers 18 ++
    .outside [(1, "accepted")] :: Sample.answers 1 ++ .start (.reconcile 0) :: Sample.answers 10

end Markiro.InventoryJournal
