import Markiro.InventoryJournal.Forgetting

/-!
# A scan after a failed event

A call is followed from its start to its end with any acknowledgements between its statements. Where
nothing is pending, a scan under a new id is recorded as it would be if a failed event had never been
reserved (`record_without`), and leaves the journal it would then leave.
-/

namespace Markiro.InventoryJournal

open Utf16 Processes Table Journal

variable {inventory : Inventory} {eventId : Uuid} {α β : Type}

/-! ## Calls amid acknowledgements -/

abbrev Batch := List (Uuid × String)

/-- A journal, and the batches that are acknowledged before each of the next statements. -/
structure Amid where
  journal : Journal
  batches : List (List Batch)

def Amid.serve (inventory : Inventory) (w : Amid) (s : Statement) : s.Answer × Amid :=
  let served := execute inventory ((w.batches.headD []).foldl Journal.acknowledge w.journal) s
  (served.1, ⟨served.2, w.batches.tail⟩)

def Amid.call (inventory : Inventory) (p : Journaled α) (w : Amid) : Except JournalError α × Amid :=
  Process.evaluate (Amid.serve inventory) p w

def Amid.forget (w : Amid) (eventId : Uuid) : Amid := ⟨w.journal.forget eventId, w.batches⟩

theorem call_bind (p : Journaled α) (f : α → Journaled β) (w : Amid) :
    Amid.call inventory (p >>= f) w =
      Amid.call inventory (Fallible.andThen f (Amid.call inventory p w).1)
        (Amid.call inventory p w).2 :=
  Process.evaluate_bind (Amid.serve inventory) p (Fallible.andThen f) w

/-! ## Calls that a failed event has no part in -/

/-- Something that acknowledgements leave, of a journal with the failed event. -/
structure Spared (eventId : Uuid) (I : Journal → Prop) : Prop where
  failed : ∀ j, I j → j.Failed eventId
  events : ∀ j j', j'.events = j.events → I j → I j'

theorem spared_failed (eventId : Uuid) : Spared eventId fun j => j.Failed eventId :=
  ⟨fun _ h => h, fun _ _ heq h => h.with_events heq⟩

theorem spared_settled (eventId : Uuid) :
    Spared eventId fun j => j.Failed eventId ∧ j.Settled := by
  refine ⟨fun _ h => h.1, fun j j' heq h => ⟨h.1.with_events heq, fun e he => h.2 e ?_⟩⟩
  rw [← heq]
  exact he

/-- Where `I` holds, a call ends as if the failed event had never been there, and `I` holds. -/
def Spares (inventory : Inventory) (eventId : Uuid) (I : Journal → Prop) (p : Journaled α) : Prop :=
  ∀ w : Amid, I w.journal → I (Amid.call inventory p w).2.journal ∧
    Amid.call inventory p (w.forget eventId) =
      ((Amid.call inventory p w).1, (Amid.call inventory p w).2.forget eventId)

/-- The same of a call that records a scan; nothing is said where it does not. -/
def Records (inventory : Inventory) (eventId : Uuid) (I : Journal → Prop)
    (p : Journaled RecordInventoryScanOutcome) : Prop :=
  ∀ w : Amid, I w.journal → ∀ result, (Amid.call inventory p w).1 = .ok (.recorded result) →
    Amid.call inventory p (w.forget eventId) =
      (.ok (.recorded result), (Amid.call inventory p w).2.forget eventId)

variable {I : Journal → Prop}

theorem receive_spared (hI : Spared eventId I) {j : Journal} (hj : I j) (batches : List Batch) :
    I (batches.foldl Journal.acknowledge j) ∧
      batches.foldl Journal.acknowledge (j.forget eventId) =
        (batches.foldl Journal.acknowledge j).forget eventId := by
  induction batches generalizing j with
  | nil => exact ⟨hj, rfl⟩
  | cons batch rest ih =>
    have hnext : I (j.acknowledge batch) := hI.events j _ (acknowledge_events batch) hj
    rw [List.foldl_cons, List.foldl_cons, acknowledge_forget]
    exact ih hnext

namespace Spares

theorem pure (a : α) : Spares inventory eventId I (Pure.pure a) := fun _ hw => ⟨hw, rfl⟩

theorem throw (e : JournalError) : Spares inventory eventId I (throw e : Journaled α) :=
  fun _ hw => ⟨hw, rfl⟩

theorem require (b : Bool) (e : JournalError) : Spares inventory eventId I (require b e) := by
  cases b with
  | true => exact pure ()
  | false => exact throw e

theorem bind {p : Journaled α} {f : α → Journaled β} (hp : Spares inventory eventId I p)
    (hf : ∀ a, Spares inventory eventId I (f a)) : Spares inventory eventId I (p >>= f) := by
  intro w hw
  obtain ⟨hkept, heq⟩ := hp w hw
  rw [call_bind, call_bind, heq]
  dsimp only
  cases (Amid.call inventory p w).1 with
  | ok a => exact hf a _ hkept
  | error e => exact ⟨hkept, rfl⟩

theorem ask (hI : Spared eventId I) {s : Statement} (hs : s.Spares eventId)
    (hkept : ∀ j, I j → I (execute inventory j s).2) :
    Spares inventory eventId I (ask s) := by
  intro w hw
  obtain ⟨hreceived, heq⟩ := receive_spared hI hw (w.batches.headD [])
  refine ⟨hkept _ hreceived, ?_⟩
  change ((Except.ok (Amid.serve inventory (w.forget eventId) s).1 : Except JournalError s.Answer),
    (Amid.serve inventory (w.forget eventId) s).2) = _
  unfold Amid.serve Amid.forget
  dsimp only
  rw [heq, execute_forget (hI.failed _ hreceived) hs]
  rfl

theorem statement {s : Statement} (hs : s.Spares eventId) :
    Spares inventory eventId (fun j => j.Failed eventId) (InventoryJournal.ask s) :=
  ask (spared_failed eventId) hs fun _ h => execute_failed h hs

end Spares

/-! ## From the facts to the commit -/

theorem facts_spares (hI : Spared eventId I) (input : RecordInventoryScanInput) :
    Spares inventory eventId I (loadClassifierFacts input) := by
  unfold loadClassifierFacts
  split
  · refine Spares.bind (Spares.ask hI trivial fun _ h => h) fun rows => ?_
    exact Spares.bind (Spares.ask hI trivial fun _ h => h) fun claims => Spares.pure _
  · exact Spares.pure _

theorem activeDate_spares :
    Spares inventory eventId (fun j => j.Failed eventId) activeDate := by
  unfold activeDate
  refine Spares.bind (Spares.statement trivial) fun value => ?_
  exact Spares.bind (Spares.require _ _) fun _ => Spares.pure _

theorem reserve_spares {input : RecordInventoryScanInput} (hne : input.eventId ≠ eventId)
    (scan : ValidScan) :
    Spares inventory eventId (fun j => j.Failed eventId) (reserveEvent input scan) := by
  have hsequence : Spares inventory eventId (fun j => j.Failed eventId) allocateSequence := by
    unfold allocateSequence
    refine Spares.bind (Spares.statement trivial) fun _ => ?_
    refine Spares.bind (Spares.statement trivial) fun sequence => ?_
    exact Spares.bind (Spares.require _ _) fun _ => Spares.pure _
  unfold reserveEvent
  refine Spares.bind activeDate_spares fun date => ?_
  refine Spares.bind hsequence fun sequence => ?_
  refine Spares.bind (Spares.statement hne) fun _ => ?_
  refine Spares.bind (Spares.statement hne) fun reserved => ?_
  cases reserved with
  | none => exact Spares.throw _
  | some row => exact Spares.bind (Spares.require _ _) fun _ => Spares.pure _

theorem project_spares (input : RecordInventoryScanInput) (scan : ValidScan) (date : String) :
    Spares inventory eventId (fun j => j.Failed eventId) (insertProjections input scan date) := by
  unfold insertProjections
  split
  · exact Spares.statement trivial
  · exact Spares.statement trivial
  · exact Spares.pure _

theorem decide_spares (scan : ValidScan) (event : EventRow) (summary : ProjectionSummary) :
    Spares inventory eventId (fun j => j.Failed eventId) (decideVerdict scan event summary) := by
  unfold decideVerdict
  split
  · exact Spares.bind (Spares.statement trivial) fun first => Spares.pure _
  · exact Spares.bind (Spares.statement trivial) fun winner => Spares.pure _
  · exact Spares.pure _

theorem store_spares {id : Uuid} (hne : id ≠ eventId) (verdict : Verdict)
    (first : Option LocalClaim) :
    Spares inventory eventId (fun j => j.Failed eventId) (storeVerdict id verdict first) := by
  have hkeep : Spares inventory eventId (fun j => j.Failed eventId)
      (keepWinner id verdict first) := by
    unfold keepWinner
    split
    · cases first with
      | none => exact Spares.throw _
      | some winner =>
        refine Spares.bind (Spares.statement trivial) fun _ => ?_
        exact Spares.bind (Spares.statement hne) fun event => Spares.require _ _
    · exact Spares.pure _
  unfold storeVerdict
  refine Spares.bind hkeep fun _ => ?_
  refine Spares.bind (Spares.statement trivial) fun _ => ?_
  refine Spares.bind (Spares.statement hne) fun event => ?_
  cases event with
  | none => exact Spares.throw _
  | some event => exact Spares.bind (Spares.require _ _) fun _ => Spares.pure _

theorem commit_spares {input : RecordInventoryScanInput} (hne : input.eventId ≠ eventId)
    (scan : ValidScan) (event : EventRow) :
    Spares inventory eventId (fun j => j.Failed eventId) (commitScan input scan event) := by
  unfold commitScan
  refine Spares.bind (Spares.require _ _) fun _ => ?_
  refine Spares.bind (Spares.require _ _) fun _ => ?_
  refine Spares.bind (Spares.require _ _) fun _ => ?_
  refine Spares.bind (project_spares input scan _) fun _ => ?_
  refine Spares.bind (Spares.statement trivial) fun summary => ?_
  refine Spares.bind (decide_spares scan event summary) fun v => ?_
  refine Spares.bind (store_spares hne v.1 v.2) fun stored => ?_
  refine Spares.bind ?_ fun _ => ?_
  · unfold queueEvent
    refine Spares.bind (Spares.statement trivial) fun _ => ?_
    exact Spares.bind (Spares.statement trivial) fun queued => Spares.require _ _
  refine Spares.bind ?_ fun _ => Spares.pure _
  unfold finalizePendingEvent
  refine Spares.bind (Spares.statement trivial) fun _ => ?_
  exact Spares.bind (Spares.statement hne) fun committed => Spares.require _ _

/-! ## The whole call -/

namespace Records

theorem of_spares {p : Journaled RecordInventoryScanOutcome} (hp : Spares inventory eventId I p) :
    Records inventory eventId I p := by
  intro w hw result hresult
  rw [(hp w hw).2, hresult]

theorem bind {p : Journaled α} {f : α → Journaled RecordInventoryScanOutcome}
    (hp : Spares inventory eventId I p) (hf : ∀ a, Records inventory eventId I (f a)) :
    Records inventory eventId I (p >>= f) := by
  intro w hw result hresult
  obtain ⟨hkept, heq⟩ := hp w hw
  rw [call_bind] at hresult
  rw [call_bind, call_bind p f w, heq]
  dsimp only
  cases hp' : (Amid.call inventory p w).1 with
  | ok a =>
    rw [hp'] at hresult
    exact hf a _ hkept result hresult
  | error e =>
    rw [hp'] at hresult
    exact absurd hresult nofun

end Records

/-- Whether a date stops the scan: where it does not, the failed event has no part in it. -/
def Admits (inventory : Inventory) (eventId : Uuid)
    (p : Journaled (Option RecordInventoryScanOutcome)) : Prop :=
  ∀ w : Amid, w.journal.Failed eventId →
    (∃ active date mixed,
      (Amid.call inventory p w).1 = .ok (some (.dateMismatch active date mixed))) ∨
    ((Amid.call inventory p w).2.journal.Failed eventId ∧
      Amid.call inventory p (w.forget eventId) =
        ((Amid.call inventory p w).1, (Amid.call inventory p w).2.forget eventId))

namespace Admits

theorem of_spares {p : Journaled (Option RecordInventoryScanOutcome)}
    (hp : Spares inventory eventId (fun j => j.Failed eventId) p) : Admits inventory eventId p :=
  fun w hw => .inr (hp w hw)

theorem bind {p : Journaled α} {f : α → Journaled (Option RecordInventoryScanOutcome)}
    (hp : Spares inventory eventId (fun j => j.Failed eventId) p)
    (hf : ∀ a, Admits inventory eventId (f a)) : Admits inventory eventId (p >>= f) := by
  intro w hw
  obtain ⟨hkept, heq⟩ := hp w hw
  rw [call_bind, call_bind, heq]
  dsimp only
  cases (Amid.call inventory p w).1 with
  | ok a => exact hf a _ hkept
  | error e => exact .inr ⟨hkept, rfl⟩

theorem scans (active date : String) (k : Journaled (Option RecordInventoryScanOutcome)) :
    Admits inventory eventId (do
      let scans : Bool ← ask .hasDeviceScans
      if scans then return some (.dateMismatch active (some date) false) else k) := by
  intro w hw
  left
  obtain ⟨hreceived, -⟩ := receive_spared (spared_failed eventId) hw (w.batches.headD [])
  have hscans : (Amid.serve inventory w .hasDeviceScans).1 = true := by
    obtain ⟨e, he, -⟩ := hreceived.present
    change (!((w.batches.headD []).foldl Journal.acknowledge w.journal).events.isEmpty) = true
    rw [Bool.not_eq_true', List.isEmpty_eq_false_iff]
    exact List.ne_nil_of_mem he
  refine ⟨active, some date, false, ?_⟩
  rw [call_bind]
  change (Amid.call inventory (if (Amid.serve inventory w .hasDeviceScans).1 = true then _ else _)
    _).1 = _
  rw [if_pos hscans]
  rfl

end Admits

theorem guard_admits (input : RecordInventoryScanInput) (scan : ValidScan)
    (facts : ClassifierFacts) :
    Admits inventory eventId (guardSourceProductionDate input scan facts) := by
  unfold guardSourceProductionDate
  split
  · exact Admits.of_spares (Spares.pure _)
  · split
    · exact Admits.of_spares (Spares.pure _)
    · exact Admits.of_spares (Spares.bind activeDate_spares fun _ => Spares.pure _)
    · refine Admits.bind activeDate_spares fun active => ?_
      split
      · exact Admits.of_spares (Spares.pure _)
      · exact Admits.scans active _ _

theorem reconciled_records {input : RecordInventoryScanInput} (hne : input.eventId ≠ eventId)
    (event : Option EventRow) :
    Records inventory eventId (fun j => j.Failed eventId)
      (recordReconciled inventory input event) := by
  unfold recordReconciled
  refine Records.bind (facts_spares (spared_failed eventId) input) fun facts => ?_
  cases classifyFromFacts inventory input facts with
  | invalid reason => exact Records.of_spares (Spares.pure _)
  | valid scan =>
    cases event with
    | some event => exact Records.of_spares (commit_spares hne scan event)
    | none =>
      intro w hw result hresult
      have hrest : Spares inventory eventId (fun j => j.Failed eventId)
          (reserveEvent input scan >>= commitScan input scan) :=
        Spares.bind (reserve_spares hne scan) fun event => commit_spares hne scan event
      dsimp only at hresult ⊢
      rw [call_bind] at hresult
      rw [call_bind, call_bind (guardSourceProductionDate input scan facts)]
      rcases guard_admits input scan facts w hw with ⟨active, date, mixed, hguard⟩ | ⟨hkept, heq⟩
      · rw [hguard] at hresult
        exact absurd hresult nofun
      · rw [heq]
        dsimp only
        cases hguard : (Amid.call inventory (guardSourceProductionDate input scan facts) w).1 with
        | error e =>
          rw [hguard] at hresult
          exact absurd hresult nofun
        | ok mismatch =>
          rw [hguard] at hresult
          cases mismatch with
          | none => exact Records.of_spares hrest _ hkept result hresult
          | some outcome => exact Prod.ext hresult rfl

theorem reconcile_call {w : Amid} (hw : w.journal.Failed eventId ∧ w.journal.Settled) (retries : ℕ)
    (excluding : Option Uuid) : ∃ w' : Amid, ∃ answer answer' : InventoryJournalReconciliation,
      w'.journal.Failed eventId ∧
      Amid.call inventory (reconcilePendingInventoryEvents retries excluding) w =
        (.ok answer, w') ∧
      Amid.call inventory (reconcilePendingInventoryEvents retries excluding) (w.forget eventId) =
        (.ok answer', w'.forget eventId) := by
  have hpending : ∀ j : Journal, j.Settled → j.pendingEvents excluding = [] := by
    intro j hj
    have hnone : (j.events.filter fun e => e.isPending && decide (excluding ≠ some e.eventId)) = [] :=
      List.filter_eq_nil_iff.2 fun e he => by rw [hj e he, Bool.false_and]; exact Bool.false_ne_true
    unfold Journal.pendingEvents
    rw [hnone]
    rfl
  have hcall : ∀ v : Amid, (Amid.serve inventory v (.pendingEvents excluding)).1 = [] →
      ∃ answer, Amid.call inventory (reconcilePendingInventoryEvents retries excluding) v =
        (.ok answer, (Amid.serve inventory
          (Amid.serve inventory v (.pendingEvents excluding)).2 .unresolved).2) := by
    intro v hv
    unfold reconcilePendingInventoryEvents
    rw [call_bind]
    change ∃ answer, Amid.call inventory (Process.bind (Fallible.foldl _ 0
      (Amid.serve inventory v (.pendingEvents excluding)).1) _) _ = _
    rw [hv]
    exact ⟨_, rfl⟩
  have hI := spared_settled eventId
  obtain ⟨hfirst, hforget⟩ := receive_spared hI hw (w.batches.headD [])
  obtain ⟨hlast, hforget'⟩ := receive_spared hI hfirst (w.batches.tail.headD [])
  obtain ⟨answer, hanswer⟩ := hcall w (hpending _ hfirst.2)
  have hforgotten : (Amid.serve inventory (w.forget eventId) (.pendingEvents excluding)).1 = [] := by
    change Journal.pendingEvents ((w.batches.headD []).foldl Journal.acknowledge
      (w.journal.forget eventId)) excluding = []
    rw [hforget, pendingEvents_forget hfirst.1]
    exact hpending _ hfirst.2
  obtain ⟨answer', hanswer'⟩ := hcall (w.forget eventId) hforgotten
  refine ⟨_, answer, answer', hlast.1, hanswer, hanswer'.trans ?_⟩
  refine Prod.ext rfl ?_
  unfold Amid.serve Amid.forget
  dsimp only
  have hboth : (w.batches.tail.headD []).foldl Journal.acknowledge
      ((w.batches.headD []).foldl Journal.acknowledge (w.journal.forget eventId)) =
      ((w.batches.tail.headD []).foldl Journal.acknowledge
        ((w.batches.headD []).foldl Journal.acknowledge w.journal)).forget eventId := by
    rw [hforget]
    exact hforget'
  exact congrArg₂ Amid.mk hboth rfl

theorem record_records {input : RecordInventoryScanInput} (hne : input.eventId ≠ eventId)
    (retries : ℕ) : Records inventory eventId (fun j => j.Failed eventId ∧ j.Settled)
      (recordInventoryScan inventory retries input) := by
  have hI := spared_settled eventId
  have hreconcile : ∀ event, Records inventory eventId (fun j => j.Failed eventId ∧ j.Settled) (do
      let _ ← reconcilePendingInventoryEvents retries (some input.eventId)
      recordReconciled inventory input event) := by
    intro event w hw result hresult
    obtain ⟨w', answer, answer', hkept, hcall, hcall'⟩ :=
      @reconcile_call inventory eventId w hw retries (some input.eventId)
    rw [call_bind, hcall] at hresult
    rw [call_bind, call_bind (reconcilePendingInventoryEvents retries (some input.eventId)) _ w, hcall,
      hcall']
    exact reconciled_records hne event w' hkept result hresult
  have hleaving : ∀ event, Spares inventory eventId (fun j => j.Failed eventId ∧ j.Settled)
      (checkLeaving event) := by
    intro event
    unfold checkLeaving
    split
    · exact Spares.bind (Spares.ask hI trivial fun _ h => h) fun leaving => Spares.require _ _
    · exact Spares.pure _
  unfold recordInventoryScan
  refine Records.bind (Spares.ask hI hne fun _ h => h) fun event => ?_
  refine Records.bind (hleaving event) fun _ => ?_
  refine Records.bind (facts_spares hI input) fun facts => ?_
  cases classifyFromFacts inventory input facts with
  | invalid reason => exact Records.of_spares (Spares.pure _)
  | valid scan =>
    cases event with
    | none => exact hreconcile none
    | some event =>
      refine Records.bind (Spares.require _ _) fun _ => ?_
      cases event.commitState with
      | failed => exact Records.of_spares (Spares.throw _)
      | committed =>
        exact Records.of_spares (Spares.bind (Spares.ask hI trivial fun _ h => h) fun _ => Spares.pure _)
      | pending => exact hreconcile (some event)

end Markiro.InventoryJournal
