import Markiro.Host.Run

/-!
# What a refused record leaves behind

A batch commits with the records it refused, so a record must be refused before its first write. The
handlers are (`handler_clean`, `eventHandler_clean`); what is left is that an applied record is never
answered `rejected` (`handler_settled`, `eventHandler_settled`), and that the intake adds nothing but
the receipt.
-/

namespace Markiro

open Txn

/-- The record was applied: accepted, or in conflict with an earlier one. -/
def Applied.Settled (a : Applied) : Prop := a.outcome ≠ .rejected

theorem accepted_settled : Applied.accepted.Settled := by
  intro h
  cases h

section

variable {k : Crates} {env : Env} {ctx : Context} {ectx : EventContext}

/-! ## Facts -/

theorem claim_settled (c : Claim) : Returns Applied.Settled (claim env ctx c) := by
  refine returns_bind fun o => ?_
  cases o with
  | none => exact returns_bind fun _ => returns_bind fun _ => returns_pure accepted_settled
  | some owner =>
    have hconflict : (owner.conflict ctx).Settled := by
      intro h
      cases h
    cases hs : owner.scanId with
    | none =>
      simp only [hs]
      exact returns_bind fun _ => returns_pure hconflict
    | some scanId =>
      simp only [hs]
      split
      · exact returns_bind fun _ => returns_pure hconflict
      · refine returns_bind fun _ => returns_bind fun _ => returns_bind fun _ => ?_
        exact returns_bind fun _ => returns_pure accepted_settled

theorem scan_settled (data : Json) : Returns Applied.Settled (scanApply k env ctx data) := by
  refine returns_bind fun _ => returns_bind fun _ => returns_bind fun accepted => ?_
  refine returns_bind fun _ => returns_bind fun _ => ?_
  cases accepted with
  | none => exact returns_pure accepted_settled
  | some code => exact claim_settled _

theorem boxClosed_settled (data : Json) : Returns Applied.Settled (boxClosedApply k ctx data) := by
  iterate 5 refine returns_bind fun _ => ?_
  refine returns_bind fun found => ?_
  cases found.sscc with
  | some sscc => exact returns_bind fun _ => returns_pure accepted_settled
  | none =>
    iterate 10 refine returns_bind fun _ => ?_
    exact returns_pure accepted_settled

theorem palletClosed_settled (data : Json) :
    Returns Applied.Settled (palletClosedApply k ctx data) := by
  iterate 4 refine returns_bind fun _ => ?_
  refine returns_bind fun found => ?_
  cases found.bind (·.sscc) with
  | some sscc => exact returns_bind fun _ => returns_pure accepted_settled
  | none =>
    iterate 7 refine returns_bind fun _ => ?_
    exact returns_pure accepted_settled

theorem shiftClosed_settled (data : Json) :
    Returns Applied.Settled (shiftClosedApply k env ctx data) := by
  iterate 4 refine returns_bind fun _ => ?_
  refine returns_bind fun closing => ?_
  iterate 4 refine returns_bind fun _ => ?_
  cases closing <;> exact returns_pure nofun

/-- **An applied fact is never answered `rejected`.** -/
theorem handler_settled (kind : FactKind) (data : Json) :
    Returns Applied.Settled (handler k env ctx kind data) := by
  cases kind with
  | scan => exact scan_settled data
  | boxClosed => exact boxClosed_settled data
  | shiftClosed => exact shiftClosed_settled data
  | palletClosed => exact palletClosed_settled data
  | boxLabel =>
    iterate 7 refine returns_bind fun _ => ?_
    exact returns_pure accepted_settled
  | palletLabel =>
    iterate 8 refine returns_bind fun _ => ?_
    exact returns_pure accepted_settled
  | boxException =>
    iterate 10 refine returns_bind fun _ => ?_
    exact returns_pure accepted_settled
  | palletException =>
    iterate 9 refine returns_bind fun _ => ?_
    exact returns_pure accepted_settled
  | unitLabel =>
    iterate 9 refine returns_bind fun _ => ?_
    exact returns_pure accepted_settled

/-! ## Pallet events -/

theorem opened_settled (data : Json) : Returns Applied.Settled (opened k env ectx data) := by
  iterate 4 refine returns_bind fun _ => ?_
  refine returns_bind fun known => ?_
  cases known with
  | some known => exact returns_bind fun _ => returns_bind fun _ => returns_pure accepted_settled
  | none =>
    iterate 9 refine returns_bind fun _ => ?_
    exact returns_pure accepted_settled

theorem boxAdded_settled (data : Json) : Returns Applied.Settled (boxAdded k ectx data) := by
  iterate 9 refine returns_bind fun _ => ?_
  refine returns_bind fun other => ?_
  cases other with
  | some other => exact returns_bind fun _ => returns_pure accepted_settled
  | none => exact returns_bind fun _ => returns_pure accepted_settled

theorem closed_settled (data : Json) : Returns Applied.Settled (closed k ectx data) := by
  iterate 3 refine returns_bind fun _ => ?_
  refine returns_bind fun pallet => ?_
  show Returns Applied.Settled (if pallet.closedAt.isSome then _ else _)
  split
  · exact returns_bind fun _ => returns_pure accepted_settled
  · iterate 12 refine returns_bind fun _ => ?_
    exact returns_pure accepted_settled

/-- **An applied event is never answered `rejected`.** -/
theorem eventHandler_settled (kind : PalletEventKind) (data : Json) :
    Returns Applied.Settled (eventHandler k env ectx kind data) := by
  cases kind with
  | warehousePalletOpened => exact opened_settled data
  | palletBoxAdded => exact boxAdded_settled data
  | warehousePalletClosed => exact closed_settled data
  | palletBoxRemoved =>
    iterate 6 refine returns_bind fun _ => ?_
    exact returns_pure accepted_settled
  | warehousePalletLabel =>
    iterate 5 refine returns_bind fun _ => ?_
    exact returns_pure accepted_settled
  | warehousePalletDisassembled =>
    iterate 6 refine returns_bind fun _ => ?_
    exact returns_pure accepted_settled

/-! ## The intake -/

variable {b b' : Batch} {deviceId : String} {value : Json} {receipt : FactReceipt}

theorem silent_enteredShift (id deviceId : String) : Silent (enteredShift id deviceId) := by
  refine Silent.bind silent_select fun row => ?_
  cases row with
  | none => exact silent_pure _
  | some s =>
    refine Silent.bind silent_select fun part => ?_
    cases part with
    | none => exact silent_pure _
    | some p => exact Silent.bind (silent_orFail _ _) fun _ => silent_pure _

/-- A refusal changed nothing, and an application is not answered `rejected`. -/
def Answers (b b' : Batch) : Except Reject Applied → Prop
  | .error _ => b' = b
  | .ok applied => applied.Settled

theorem attempt_answers {x : Host Applied} {answer : Except Reject Applied} (hclean : Clean x)
    (hsettled : Returns Applied.Settled x) (h : attempt x b = .done answer b') :
    Answers b b' answer := by
  cases answer with
  | error reject => exact hclean _ _ _ (attempt_done_error.1 h)
  | ok applied => exact hsettled _ _ _ (attempt_done_ok.1 h)

theorem applyEntered_answers {record : FactRecord} {shift : FactShift} {applying : Applying}
    (h : applyEntered k env deviceId record shift b = .done applying b') :
    Answers b b' applying.answer := by
  unfold applyEntered at h
  split at h
  · obtain ⟨rfl, rfl⟩ := pure_done.1 h
    rfl
  · simp only [bind_done] at h
    obtain ⟨answer, t, ht, h⟩ := h
    have ha := attempt_answers (handler_clean _ _) (handler_settled _ _) ht
    cases answer with
    | error reject =>
      obtain ⟨rfl, rfl⟩ := pure_done.1 h
      exact ha
    | ok applied =>
      simp only [bind_done, pure_done] at h
      obtain ⟨_, _, -, rfl, -⟩ := h
      exact ha

theorem applyRecord_answers {applying : Applying}
    (h : applyRecord k env deviceId value b = .done applying b') :
    Answers b b' applying.answer := by
  unfold applyRecord at h
  cases hr : FactRecord.read value with
  | none =>
    simp only [hr, pure_done] at h
    obtain ⟨rfl, rfl⟩ := h
    rfl
  | some record =>
    simp only [hr] at h
    cases hid : record.badId with
    | some field =>
      simp only [hid, pure_done] at h
      obtain ⟨rfl, rfl⟩ := h
      rfl
    | none =>
      simp only [hid, bind_done] at h
      obtain ⟨o, t, ht, h⟩ := h
      obtain rfl : t = b := (silent_enteredShift _ _).2 _ _ _ ht
      rcases o with _ | _ | shift
      · simp only [applyUnknown, bind_done, select_done, pure_done] at h
        obtain ⟨removed, _, ⟨-, rfl⟩, rfl, rfl⟩ := h
        cases removed with
        | true => exact accepted_settled
        | false => rfl
      · obtain ⟨rfl, rfl⟩ := pure_done.1 h
        rfl
      · exact applyEntered_answers h

theorem applyEvent_answers {applying : ApplyingEvent}
    (h : applyEvent k env deviceId value b = .done applying b') :
    Answers b b' applying.answer := by
  unfold applyEvent at h
  split at h
  · obtain ⟨rfl, rfl⟩ := pure_done.1 h
    rfl
  · cases hr : PalletEventRecord.read value with
    | none =>
      simp only [hr, pure_done] at h
      obtain ⟨rfl, rfl⟩ := h
      rfl
    | some record =>
      simp only [hr] at h
      split at h
      · obtain ⟨rfl, rfl⟩ := pure_done.1 h
        rfl
      · simp only [bind_done, pure_done] at h
        obtain ⟨answer, t, ht, rfl, rfl⟩ := h
        exact attempt_answers (eventHandler_clean _ _) (eventHandler_settled _ _) ht

theorem Answers.of_rejected {id : Option String} {answer : Except Reject Applied}
    (h : Answers b b' answer) (hr : (receiptOf id answer).outcome = .rejected) : b' = b := by
  cases answer with
  | error reject => exact h
  | ok applied => exact absurd hr h

theorem receive_rejected (h : receive k env deviceId value b = .done receipt b')
    (hr : receipt.outcome = .rejected) :
    b'.db = { b.db with factReceipts := b'.db.factReceipts } ∧ b'.revision = b.revision ∧
      (readableId value = none → b'.db.factReceipts = b.db.factReceipts) := by
  simp only [receive, bind_done, select_done] at h
  obtain ⟨o, t, ⟨-, rfl⟩, h⟩ := h
  cases o with
  | some row =>
    obtain ⟨-, rfl⟩ := pure_done.1 h
    exact ⟨rfl, rfl, fun _ => rfl⟩
  | none =>
    simp only [receiveNew, keepFact, bind_done, forSome_done, insert_done, pure_done] at h
    obtain ⟨applying, t', ht, _, _, hkeep, rfl, rfl⟩ := h
    obtain rfl := (applyRecord_answers ht).of_rejected hr
    rcases hkeep with ⟨id, hid, -, rfl⟩ | ⟨-, rfl⟩
    · refine ⟨rfl, rfl, fun hn => ?_⟩
      rw [hid] at hn
      cases hn
    · exact ⟨rfl, rfl, fun _ => rfl⟩

theorem receiveEvent_rejected (h : receiveEvent k env deviceId value b = .done receipt b')
    (hr : receipt.outcome = .rejected) :
    b'.db = { b.db with eventReceipts := b'.db.eventReceipts } ∧ b'.revision = b.revision ∧
      (readableId value = none → b'.db.eventReceipts = b.db.eventReceipts) := by
  unfold receiveEvent at h
  cases hid : readableId value with
  | none =>
    simp only [hid, pure_done] at h
    obtain ⟨-, rfl⟩ := h
    exact ⟨rfl, rfl, fun _ => rfl⟩
  | some id =>
    simp only [hid, bind_done, select_done] at h
    obtain ⟨o, t, ⟨-, rfl⟩, h⟩ := h
    cases o with
    | some row =>
      obtain ⟨-, rfl⟩ := pure_done.1 h
      exact ⟨rfl, rfl, by simp⟩
    | none =>
      simp only [receiveNewEvent, keepEvent, bind_done, insert_done, pure_done] at h
      obtain ⟨applying, t', ht, _, _, ⟨-, rfl⟩, rfl, rfl⟩ := h
      obtain rfl := (applyEvent_answers ht).of_rejected hr
      exact ⟨rfl, rfl, by simp⟩

end

/-- **A refused record leaves nothing behind but its receipt.** For every state, every device and
every value sent as a fact or as a pallet event: a receipt `rejected` says that every table but the
receipts' own is as before and that the batch took no revision for it; without a readable id there
is no receipt row either. -/
theorem rejected_leaves_receipt_only (k : Crates) (env : Env) (deviceId : String) (value : Json)
    (b b' : Batch) (receipt : FactReceipt) (hr : receipt.outcome = .rejected) :
    (receive k env deviceId value b = .done receipt b' →
      b'.db = { b.db with factReceipts := b'.db.factReceipts } ∧ b'.revision = b.revision ∧
        (readableId value = none → b'.db.factReceipts = b.db.factReceipts)) ∧
    (receiveEvent k env deviceId value b = .done receipt b' →
      b'.db = { b.db with eventReceipts := b'.db.eventReceipts } ∧ b'.revision = b.revision ∧
        (readableId value = none → b'.db.eventReceipts = b.db.eventReceipts)) :=
  ⟨fun h => receive_rejected h hr, fun h => receiveEvent_rejected h hr⟩

/-- A scan of a device that never entered the shift. -/
def Sample.strangeScan : Txn.Outcome ApiError Reject Batch FactReceipt :=
  receive Crates.sample (env "a") handheld
    (scan "33333333-3333-4333-8333-333333333333" "2024-01-01T10:00:00.000Z" none)
    (Batch.begin (site .validation))

theorem rejected_leaves_receipt_only_sample : ∃ receipt b,
    Sample.strangeScan = .done receipt b ∧ receipt.code = some "not_entered" ∧
      b.db = { Sample.site .validation with factReceipts := b.db.factReceipts } := by
  have hdone : (Sample.strangeScan.done?.any fun x =>
      decide (x.1.outcome = .rejected ∧ x.1.code = some "not_entered")) = true := by
    decide +kernel
  obtain ⟨x, hx, hr⟩ := (Option.any_eq_true _ _).1 hdone
  have hx := Outcome.done?_eq_some.1 hx
  obtain ⟨hout, hcode⟩ := of_decide_eq_true hr
  have h := (rejected_leaves_receipt_only Crates.sample (Sample.env "a") Sample.handheld _ _ _ _
    hout).1 hx
  exact ⟨x.1, x.2, hx, hcode, h.1⟩

end Markiro
