import Markiro.InventoryJournal.Invariant

/-!
# Each statement keeps the journal whole

What is asked of a statement before it is executed (`asked`), and that it then keeps the invariant.
Acknowledgements, which nothing is asked of, keep it too.
-/

namespace Markiro.InventoryJournal

open Utf16 Processes Table

namespace Journal

variable {inventory : Inventory} {j : Journal}

/-! ## Tables that only grow -/

theorem Covered.mono {j' : Journal} {e e' : EventRow} (h : j.Covered inventory e)
    (hsame : e'.Same e) (hresults : ∀ r ∈ j.results, r ∈ j'.results)
    (hevents : ∀ o ∈ j.events, ∃ o' ∈ j'.events, o'.Same o) : j'.Covered inventory e' := by
  intro row hrow
  rw [hsame.claims] at hrow
  obtain ⟨r, hr, hcode, o, ho, hown, hle⟩ := h row hrow
  obtain ⟨o', ho', hoo⟩ := hevents o ho
  refine ⟨r, hresults r hr, hcode, o', ho', hoo.eventId.trans hown, ?_⟩
  rw [hoo.deviceSequence, hsame.deviceSequence]
  exact hle

theorem same_refl (e : EventRow) : e.Same e := ⟨rfl, rfl, rfl, rfl, rfl⟩

variable {e : EventRow}

theorem not_queued_of (h : j.Unqueued e.eventId) : e.queueRow ∉ j.queued :=
  fun hmem => h _ hmem rfl

/-! ## Beside the journal -/

theorem acknowledge_eq (j : Journal) (verdicts : List (Uuid × String)) :
    ∃ outbox verdict, j.acknowledge verdicts =
      { j with outbox := outbox, authoritativeVerdict := verdict } := by
  unfold acknowledge
  split
  · exact ⟨_, _, rfl⟩
  · exact ⟨_, _, rfl⟩

theorem Whole.with_outbox (h : j.Whole inventory) {outbox : List OutboxRow}
    {verdict : Uuid → Option String} (hq : ∀ q ∈ outbox, q ∈ j.queued)
    (hd : ∀ q ∈ j.queued, q ∈ outbox ∨ (verdict q.eventId).isSome = true)
    (ha : ∀ eventId, (verdict eventId).isSome = true → ∃ q ∈ j.queued, q.eventId = eventId) :
    Whole inventory { j with outbox := outbox, authoritativeVerdict := verdict } :=
  { h with
    outbox := hq
    delivered := hd
    acknowledged := ha }

theorem Whole.acknowledge (h : j.Whole inventory) (verdicts : List (Uuid × String)) :
    (j.acknowledge verdicts).Whole inventory := by
  unfold Journal.acknowledge
  split
  · next hall =>
    have hverdict : ∀ v ∈ verdicts, ∃ q ∈ j.queued, q.eventId = v.1 := by
      intro v hv
      obtain ⟨q, hq, hid⟩ := List.any_eq_true.1 (List.all_eq_true.1 hall v hv)
      exact ⟨q, h.outbox q hq, of_decide_eq_true hid⟩
    refine h.with_outbox (fun q hq => h.outbox q (List.mem_of_mem_filter hq)) (fun q hq => ?_)
      fun eventId hsome => ?_
    · cases hfind : verdicts.find? (·.1 = q.eventId) with
      | some v =>
        exact .inr rfl
      | none =>
        rcases h.delivered q hq with hout | hsome
        · left
          refine List.mem_filter.2 ⟨hout, ?_⟩
          rw [Bool.not_eq_true']
          refine List.any_eq_false.2 fun v hv => ?_
          exact List.find?_eq_none.1 hfind v hv
        · exact .inr hsome
    · cases hfind : verdicts.find? (·.1 = eventId) with
      | some v =>
        obtain ⟨q, hq, hid⟩ := hverdict v (List.mem_of_find?_eq_some hfind)
        have hv : v.1 = eventId := by simpa using List.find?_some hfind
        exact ⟨q, hq, hid.trans hv⟩
      | none =>
        simp only [hfind] at hsome
        exact h.acknowledged eventId hsome
  · exact h

/-! ## The terminal -/

theorem Whole.with_terminal (h : j.Whole inventory) {t : Terminal}
    (ht : j.terminalRow.nextDeviceSequence ≤ t.nextDeviceSequence) :
    Whole inventory { j with terminal := some t } :=
  { h with next e he := (h.next e he).trans_le ht }

theorem Whole.nextSequence (h : j.Whole inventory) : j.nextSequence.2.Whole inventory := by
  unfold Journal.nextSequence
  cases ht : j.terminal with
  | none => exact h
  | some t =>
    refine h.with_terminal ?_
    rw [terminalRow, ht]
    exact Nat.le_succ _

/-! ## A new event -/

theorem Whole.insertEvent (h : j.Whole inventory) (hs : j.Settled) {row : EventRow}
    (hp : row.isPending = true) (hid : ∀ e ∈ j.events, e.eventId ≠ row.eventId)
    (hseq : ∀ e ∈ j.events, e.deviceSequence < row.deviceSequence)
    (hnext : row.deviceSequence < j.terminalRow.nextDeviceSequence) :
    (j.insertEvent row).Whole inventory := by
  have hnew : j.events.any (·.eventId = row.eventId) = false :=
    List.any_eq_false.2 fun e he => by simpa using hid e he
  have hsub : ∀ o ∈ j.events, ∃ o' ∈ j.events ++ [row], o'.Same o :=
    fun o ho => ⟨o, List.mem_append_left _ ho, same_refl o⟩
  have hold : ∀ e ∈ j.events ++ [row], e ∈ j.events ∨ e = row := fun e he => by simpa using he
  have hrow : row.isCommitted = false := by
    cases hc : row.isCommitted with
    | false => rfl
    | true =>
      rw [EventRow.not_pending_of_committed hc] at hp
      exact nomatch hp
  unfold Journal.insertEvent
  rw [if_neg (by rw [hnew]; exact Bool.false_ne_true)]
  refine
    { h with
      ids := h.ids.append fun e he => hid e he
      order := ?_
      next := fun e he => ?_
      last := fun e he hpe o ho => ?_
      owned := fun r hr => ?_
      covered := fun e he hc => ?_
      logged := fun q hq => ?_
      committed := fun e he hc => ?_
      complete := fun e he hpe hq => ?_ }
  · rw [List.map_append, List.pairwise_append]
    refine ⟨h.order, List.pairwise_singleton _ _, fun a ha b hb => ?_⟩
    obtain ⟨e, he, rfl⟩ := List.mem_map.1 ha
    obtain rfl := List.mem_singleton.1 hb
    exact hseq e he
  · rcases hold e he with he | rfl
    · exact h.next e he
    · exact hnext
  · rcases hold e he with he | rfl
    · rw [hs e he] at hpe
      exact nomatch hpe
    · rcases hold o ho with ho | rfl
      · exact (hseq o ho).le
      · exact le_refl _
  · obtain ⟨e, he, hlive, hown⟩ := h.owned r hr
    exact ⟨e, List.mem_append_left _ he, hlive, hown⟩
  · rcases hold e he with he | rfl
    · exact (h.covered e he hc).mono (same_refl e) (fun _ hr => hr) hsub
    · rw [hrow] at hc
      exact nomatch hc
  · obtain ⟨e, he, hlive, rfl⟩ := h.logged q hq
    exact ⟨e, List.mem_append_left _ he, hlive, rfl⟩
  · rcases hold e he with he | rfl
    · exact h.committed e he hc
    · rw [hrow] at hc
      exact nomatch hc
  · rcases hold e he with he | rfl
    · rw [hs e he] at hpe
      exact nomatch hpe
    · obtain ⟨o, ho, -, heq⟩ := h.logged _ hq
      exact absurd (congrArg OutboxRow.eventId heq).symm (hid o ho)

/-! ## New results -/

theorem Whole.insertResults (h : j.Whole inventory) (he : e ∈ j.events)
    (hp : e.isPending = true) (hu : j.Unqueued e.eventId) {rows : List ResultRow}
    (hrows : ∀ row ∈ rows, row.OwnedBy inventory e) (hcodes : Table.Unique (·.codeHash) rows) :
    (j.insertResults rows).Whole inventory :=
  { h with
    codes := by
      unfold Journal.insertResults Table.Unique
      dsimp only
      rw [List.map_append, List.nodup_append']
      refine ⟨h.codes, (hcodes.sublist (List.filter_sublist.map _)), fun c hc hc' => ?_⟩
      obtain ⟨r, hr, rfl⟩ := List.mem_map.1 hc
      obtain ⟨row, hrow, heq⟩ := List.mem_map.1 hc'
      have hnew := (List.mem_filter.1 hrow).2
      rw [Bool.not_eq_true'] at hnew
      have hne := List.any_eq_false.1 hnew r hr
      exact hne (decide_eq_true heq.symm)
    owned r hr := by
      rcases List.mem_append.1 hr with hr | hr
      · exact h.owned r hr
      · exact ⟨e, he, EventRow.live_iff.2 (.inl hp), hrows r (List.mem_of_mem_filter hr)⟩
    covered x hx hc := (h.covered x hx hc).mono (same_refl x)
      (fun _ hr => List.mem_append_left _ hr) fun o ho => ⟨o, ho, same_refl o⟩
    complete x hx hpx hq := by
      obtain rfl := h.pending_eq hx he hpx hp
      exact absurd hq (not_queued_of hu) }

variable {eventId : Uuid}

theorem Whole.deleteProjection (h : j.Whole inventory)
    (hu : j.Unqueued eventId) : (j.deleteProjection eventId).Whole inventory := by
  unfold Journal.deleteProjection
  split
  · next hcond =>
    obtain ⟨e, he, hcond⟩ := List.any_eq_true.1 (Bool.and_eq_true_iff.1 hcond).1
    obtain ⟨hid, hp⟩ := Bool.and_eq_true_iff.1 hcond
    obtain rfl : e.eventId = eventId := of_decide_eq_true hid
    refine
      { h with
        codes := List.Nodup.sublist (List.filter_sublist.map _) h.codes
        owned := fun r hr => h.owned r (List.mem_of_mem_filter hr)
        covered := fun x hx hc row hrow => ?_
        complete := fun x hx hpx hq => ?_ }
    · obtain ⟨r, hr, hcode, o, ho, hown, hle⟩ := h.covered x hx hc row hrow
      refine ⟨r, List.mem_filter.2 ⟨hr, decide_eq_true fun heq => ?_⟩, hcode, o, ho, hown, hle⟩
      -- the pending event is after every committed one
      obtain rfl := h.ids.eq ho he (hown.trans heq)
      have hne : x.eventId ≠ o.eventId := by
        intro hxo
        obtain rfl := h.ids.eq hx ho hxo
        rw [EventRow.not_pending_of_committed hc] at hp
        exact nomatch hp
      exact absurd hle (not_le.2 (h.before_pending ho hp hx hne))
    · obtain rfl := h.pending_eq hx he hpx hp
      exact absurd hq (not_queued_of hu)
  · exact h

/-! ## A change of the pending event -/

variable {f : EventRow → EventRow} {q : EventRow → Bool}

theorem mem_change (h : j.Whole inventory) (he : e ∈ j.events)
    (hp : e.isPending = true) (hq : q e = true)
    {x : EventRow} : x ∈ (j.change e.eventId q f).events ↔
      x = f e ∨ x ∈ j.events ∧ x.eventId ≠ e.eventId := by
  unfold change
  rw [mem_update]
  constructor
  · rintro ⟨y, hy, rfl⟩
    by_cases hid : y.eventId = e.eventId
    · obtain rfl := h.ids.eq hy he hid
      left
      rw [decide_eq_true rfl, hp, hq]
      rfl
    · right
      rw [decide_eq_false hid]
      exact ⟨hy, hid⟩
  · rintro (rfl | ⟨hx, hid⟩)
    · refine ⟨e, he, ?_⟩
      rw [decide_eq_true rfl, hp, hq]
      rfl
    · refine ⟨x, hx, ?_⟩
      rw [decide_eq_false hid]
      rfl

theorem change_none
    (h : ∀ e ∈ j.events, e.eventId = eventId → e.isPending = false) : j.change eventId q f = j := by
  have hnone : update (fun e => e.eventId = eventId && e.isPending && q e) f j.events = j.events := by
    refine update_of_none fun e he => ?_
    by_cases hid : e.eventId = eventId
    · rw [h e he hid, Bool.and_false, Bool.false_and]
    · rw [decide_eq_false hid, Bool.false_and, Bool.false_and]
  unfold change
  rw [hnone]

theorem Whole.change (h : j.Whole inventory) (he : e ∈ j.events)
    (hp : e.isPending = true) (hq : q e = true)
    (hsame : ∀ x, (f x).Same x)
    (hlive : (f e).isLive = true ∨ j.Unclaimed e.eventId)
    (hqueue : ((f e).queueRow = e.queueRow ∧ (f e).isLive = true) ∨ j.Unqueued e.eventId)
    (hcommit : (f e).isCommitted = true → j.Covered inventory e ∧ (f e).queueRow ∈ j.queued)
    (hpend : (f e).isPending = true → j.Unqueued e.eventId) :
    (j.change e.eventId q f).Whole inventory := by
  have hmem : ∀ {x : EventRow}, x ∈ (j.change e.eventId q f).events ↔
      x = f e ∨ x ∈ j.events ∧ x.eventId ≠ e.eventId := mem_change h he hp hq
  have hafter : ∀ o ∈ j.events, ∃ o' ∈ (j.change e.eventId q f).events, o'.Same o := by
    intro o ho
    by_cases hid : o.eventId = e.eventId
    · obtain rfl := h.ids.eq ho he hid
      exact ⟨f o, hmem.2 (.inl rfl), hsame o⟩
    · exact ⟨o, hmem.2 (.inr ⟨ho, hid⟩), same_refl o⟩
  have hids : (j.change e.eventId q f).events.map (·.eventId) = j.events.map (·.eventId) :=
    map_update fun x _ => (hsame x).eventId
  have hseqs : (j.change e.eventId q f).events.map (·.deviceSequence) =
      j.events.map (·.deviceSequence) := map_update fun x _ => (hsame x).deviceSequence
  -- the event before a row, which has the same number
  have hbefore : ∀ x ∈ (j.change e.eventId q f).events, ∃ y ∈ j.events,
      x.deviceSequence = y.deviceSequence := by
    intro x hx
    rcases hmem.1 hx with rfl | ⟨hx, -⟩
    · exact ⟨e, he, (hsame e).deviceSequence⟩
    · exact ⟨x, hx, rfl⟩
  refine
    { h with
      ids := ?_
      order := ?_
      next := fun x hx => ?_
      last := fun x hx hpx o ho => ?_
      owned := fun r hr => ?_
      covered := fun x hx hc => ?_
      logged := fun row hrow => ?_
      committed := fun x hx hc => ?_
      complete := fun x hx hpx hrow => ?_ }
  · rw [Table.Unique, hids]
    exact h.ids
  · rw [hseqs]
    exact h.order
  · obtain ⟨y, hy, heq⟩ := hbefore x hx
    rw [heq]
    exact h.next y hy
  · have hxe : x.deviceSequence = e.deviceSequence := by
      rcases hmem.1 hx with rfl | ⟨hx, hid⟩
      · exact (hsame e).deviceSequence
      · exact absurd (congrArg EventRow.eventId (h.pending_eq hx he hpx hp)) hid
    obtain ⟨y, hy, heq⟩ := hbefore o ho
    rw [heq, hxe]
    exact h.last e he hp y hy
  · obtain ⟨o, ho, hlo, hown⟩ := h.owned r hr
    by_cases hid : o.eventId = e.eventId
    · obtain rfl := h.ids.eq ho he hid
      rcases hlive with hlive | hnone
      · have hback : o.Same (f o) :=
          ⟨(hsame o).eventId.symm, (hsame o).deviceSequence.symm, (hsame o).scannedAt.symm,
            (hsame o).identity.symm, (hsame o).date.symm⟩
        exact ⟨f o, hmem.2 (.inl rfl), hlive, hown.same hback⟩
      · exact absurd hown.event (hnone r hr)
    · exact ⟨o, hmem.2 (.inr ⟨ho, hid⟩), hlo, hown⟩
  · rcases hmem.1 hx with rfl | ⟨hx, -⟩
    · exact (hcommit hc).1.mono (hsame e) (fun _ hr => hr) hafter
    · exact (h.covered x hx hc).mono (same_refl x) (fun _ hr => hr) hafter
  · obtain ⟨o, ho, hlo, rfl⟩ := h.logged row hrow
    by_cases hid : o.eventId = e.eventId
    · obtain rfl := h.ids.eq ho he hid
      rcases hqueue with ⟨heq, hlive⟩ | hnone
      · exact ⟨f o, hmem.2 (.inl rfl), hlive, heq.symm⟩
      · exact absurd hrow (not_queued_of hnone)
    · exact ⟨o, hmem.2 (.inr ⟨ho, hid⟩), hlo, rfl⟩
  · rcases hmem.1 hx with rfl | ⟨hx, -⟩
    · exact (hcommit hc).2
    · exact h.committed x hx hc
  · rcases hmem.1 hx with rfl | ⟨hx, hid⟩
    · exact absurd (hsame e).eventId (hpend hpx _ hrow)
    · exact absurd (congrArg EventRow.eventId (h.pending_eq hx he hpx hp)) hid

theorem Whole.change_pending (h : j.Whole inventory) (hu : j.Unqueued eventId)
    (hsame : ∀ x, (f x).Same x)
    (hstate : ∀ x, (f x).commitState = x.commitState) : (j.change eventId q f).Whole inventory := by
  by_cases hex : ∃ e ∈ j.events, e.eventId = eventId ∧ e.isPending = true ∧ q e = true
  · obtain ⟨e, he, rfl, hp, hq⟩ := hex
    have hpf : (f e).isPending = true := by
      rw [EventRow.isPending, hstate]
      exact hp
    refine h.change he hp hq hsame (.inl (EventRow.live_iff.2 (.inl hpf))) (.inr hu)
      (fun hc => ?_) fun _ => hu
    rw [EventRow.not_pending_of_committed hc] at hpf
    exact nomatch hpf
  · have hnone : update (fun e => e.eventId = eventId && e.isPending && q e) f j.events =
        j.events := by
      refine update_of_none fun e he => ?_
      rw [Bool.eq_false_iff]
      intro htrue
      simp only [Bool.and_eq_true, decide_eq_true_eq] at htrue
      exact hex ⟨e, he, htrue.1.1, htrue.1.2, htrue.2⟩
    unfold Journal.change
    rw [hnone]
    exact h

theorem Whole.finalize (h : j.Whole inventory)
    (hq : ∀ e ∈ j.events, e.eventId = eventId → e.isPending = true → e.queueRow ∈ j.queued) :
    (j.finalize eventId).Whole inventory := by
  unfold Journal.finalize
  by_cases hex : ∃ e ∈ j.events, e.eventId = eventId ∧ e.isPending = true
  · obtain ⟨e, he, rfl, hp⟩ := hex
    have hrow := hq e he rfl hp
    exact h.change he hp rfl (fun _ => ⟨rfl, rfl, rfl, rfl, rfl⟩) (.inl rfl) (.inl ⟨rfl, rfl⟩)
      (fun _ => ⟨(h.complete e he hp hrow).1, hrow⟩) nofun
  · rw [change_none fun e he hid => ?_]
    · exact h
    · rw [Bool.eq_false_iff]
      exact fun hp => hex ⟨e, he, hid, hp⟩

theorem Whole.failEvent (h : j.Whole inventory) (hu : j.Unqueued eventId)
    (hc : j.Unclaimed eventId) : (j.failEvent eventId).Whole inventory := by
  unfold Journal.failEvent
  split
  · exact h
  · by_cases hex : ∃ e ∈ j.events, e.eventId = eventId ∧ e.isPending = true
    · obtain ⟨e, he, rfl, hp⟩ := hex
      exact h.change he hp rfl (fun _ => ⟨rfl, rfl, rfl, rfl, rfl⟩) (.inr hc) (.inr hu) nofun nofun
    · rw [change_none fun e he hid => ?_]
      · exact h
      · rw [Bool.eq_false_iff]
        exact fun hp => hex ⟨e, he, hid, hp⟩

/-! ## The outbox -/

theorem not_isQueued (h : j.Whole inventory) (hu : j.Unqueued eventId) :
    j.isQueued eventId = false :=
  List.any_eq_false.2 fun q hq => by simpa using hu q (h.outbox q hq)

theorem Whole.insertOutbox (h : j.Whole inventory) (he : e ∈ j.events)
    (hp : e.isPending = true) (hu : j.Unqueued e.eventId) (hc : j.Covered inventory e)
    (hv : j.Justified inventory e e.localVerdict) : (j.insertOutbox e.queueRow).Whole inventory := by
  have hnot : ¬j.isQueued e.queueRow.eventId = true := fun hq => by
    have hfalse : j.isQueued e.queueRow.eventId = false := not_isQueued h hu
    rw [hfalse] at hq
    exact nomatch hq
  unfold Journal.insertOutbox
  rw [if_neg hnot]
  exact
    { h with
      logged := fun q hq => by
        rcases List.mem_append.1 hq with hq | hq
        · exact h.logged q hq
        · exact ⟨e, he, EventRow.live_iff.2 (.inl hp), List.mem_singleton.1 hq⟩
      once := h.once.append hu
      committed := fun x hx hcx => List.mem_append_left _ (h.committed x hx hcx)
      outbox := fun q hq => by
        rcases List.mem_append.1 hq with hq | hq
        · exact List.mem_append_left _ (h.outbox q hq)
        · exact List.mem_append_right _ hq
      delivered := fun q hq => by
        rcases List.mem_append.1 hq with hq | hq
        · exact (h.delivered q hq).imp_left (List.mem_append_left _)
        · exact .inl (List.mem_append_right _ hq)
      acknowledged := fun id hsome => by
        obtain ⟨q, hq, hid⟩ := h.acknowledged id hsome
        exact ⟨q, List.mem_append_left _ hq, hid⟩
      complete := fun x hx hpx _ => by
        obtain rfl := h.pending_eq hx he hpx hp
        exact ⟨hc, hv⟩ }

end Journal

/-! ## The contract -/

def asked (inventory : Inventory) (j : Journal) : Statement → Prop
  | .insertEvent row => j.Settled ∧ row.isPending = true ∧
      (∀ e ∈ j.events, e.eventId ≠ row.eventId) ∧
      (∀ e ∈ j.events, e.deviceSequence < row.deviceSequence) ∧
      row.deviceSequence < j.terminalRow.nextDeviceSequence
  | .setDuplicateWinner eventId _ | .setVerdict eventId _ | .deleteProjection eventId =>
    j.Unqueued eventId
  | .insertItem row => ∃ e ∈ j.events, e.isPending = true ∧ j.Unqueued e.eventId ∧
      row.OwnedBy inventory e
  | .insertBox sscc eventId scannedAt date => ∃ e ∈ j.events, e.isPending = true ∧
      j.Unqueued e.eventId ∧ e.identity = .knownBox sscc ∧ e.eventId = eventId ∧
      e.scannedAt = scannedAt ∧ e.activeProductionDate = date
  | .failEvent eventId => j.Unqueued eventId ∧ j.Unclaimed eventId
  | .finalize eventId => ∀ e ∈ j.events, e.eventId = eventId → e.isPending = true →
      e.queueRow ∈ j.queued
  | .insertOutbox row => ∃ e ∈ j.events, e.isPending = true ∧ j.Unqueued e.eventId ∧
      row = e.queueRow ∧ j.Covered inventory e ∧ j.Justified inventory e e.localVerdict
  | _ => True

/-- When the journal reads the outbox row of a pending event, no acknowledgement of that event has
arrived yet. -/
def InTime (j : Journal) : Statement → Prop
  | .outboxRow eventId => ∀ e ∈ j.events, e.eventId = eventId → e.isPending = true →
      j.authoritativeVerdict eventId = none
  | _ => True

def journalContract (inventory : Inventory) : Contract Statement Journal where
  inv := Journal.Whole inventory
  rely j j' := ∃ verdicts, j' = j.acknowledge verdicts
  meets := InTime
  pre := asked inventory

theorem boxRows_owned {inventory : Inventory} {e : EventRow} {sscc : Units}
    (hid : e.identity = .knownBox sscc) : ∀ row ∈ boxRows inventory sscc e.eventId e.scannedAt
      e.activeProductionDate, row.OwnedBy inventory e := by
  intro row hrow
  obtain ⟨child, hchild, rfl⟩ := List.mem_map.1 hrow
  refine ⟨rfl, rfl, rfl, child, ?_, rfl, rfl, rfl⟩
  rw [EventRow.claims, hid]
  exact hchild

theorem boxRows_codes (inventory : Inventory) (sscc : Units) (eventId : Uuid) (scannedAt : Instant)
    (date : String) : Table.Unique (·.codeHash)
    (boxRows inventory sscc eventId scannedAt date) := by
  have hmap : (boxRows inventory sscc eventId scannedAt date).map (·.codeHash) =
      (inventory.children sscc).map (·.codeHash) := List.map_map
  rw [Table.Unique, hmap]
  exact inventory.unique.sublist (List.filter_sublist.map _)

/-- **Every statement keeps the journal whole** where it is asked as it should be. -/
theorem execute_whole {inventory : Inventory} {j : Journal} (h : j.Whole inventory) (s : Statement)
    (hasked : asked inventory j s) : (execute inventory j s).2.Whole inventory := by
  cases s with
  | insertEvent row =>
    obtain ⟨hs, hp, hid, hseq, hnext⟩ := hasked
    exact h.insertEvent hs hp hid hseq hnext
  | setDuplicateWinner eventId winner =>
    exact h.change_pending hasked (fun _ => ⟨rfl, rfl, rfl, rfl, rfl⟩) fun _ => rfl
  | setVerdict eventId verdict =>
    exact h.change_pending hasked (fun _ => ⟨rfl, rfl, rfl, rfl, rfl⟩) fun _ => rfl
  | insertItem row =>
    obtain ⟨e, he, hp, hu, hown⟩ := hasked
    refine h.insertResults he hp hu (fun r hr => ?_) (List.nodup_singleton _)
    obtain rfl := List.mem_singleton.1 hr
    exact hown
  | insertBox sscc eventId scannedAt date =>
    obtain ⟨e, he, hp, hu, hid, rfl, rfl, rfl⟩ := hasked
    exact h.insertResults he hp hu (boxRows_owned hid) (boxRows_codes _ _ _ _ _)
  | deleteProjection eventId => exact h.deleteProjection hasked
  | failEvent eventId => exact h.failEvent hasked.1 hasked.2
  | finalize eventId => exact h.finalize hasked
  | insertOutbox row =>
    obtain ⟨e, he, hp, hu, rfl, hc, hv⟩ := hasked
    exact h.insertOutbox he hp hu hc hv
  | ensureTerminal => exact h.with_terminal (le_refl _)
  | setProductionDate date => exact h.with_terminal (le_refl _)
  | nextSequence => exact h.nextSequence
  | existingEvent | pendingLeave | snapshotRows | claimRows | activeDate | ownedProjectionSummary
  | firstUnknownObservation | firstProjectionWinner | outboxRow | hasValidPriorRepresentative
  | pendingEvents | unresolved | hasDeviceScans => exact h

theorem journalContract_sound (inventory : Inventory) :
    (journalContract inventory).Sound (station inventory) where
  outside j verdicts h := ⟨h.acknowledge verdicts, verdicts, rfl⟩
  serve j s f a j' h _ hasked hs := by
    have heq : (execute inventory j s).2 = j' := congrArg Prod.snd (Option.some.inj hs)
    exact heq ▸ execute_whole h s hasked

theorem steady {inventory : Inventory} {A : Journal → Prop}
    (h : ∀ j outbox verdict, A j → A { j with outbox := outbox, authoritativeVerdict := verdict }) :
    (journalContract inventory).Stable A := by
  rintro j _ - ⟨verdicts, rfl⟩ hA
  obtain ⟨outbox, verdict, heq⟩ := Journal.acknowledge_eq j verdicts
  rw [heq]
  exact h j outbox verdict hA

end Markiro.InventoryJournal
