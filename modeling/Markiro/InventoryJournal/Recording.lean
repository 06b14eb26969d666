import Markiro.InventoryJournal.Reconciling

/-!
# A scan that is recorded

From a journal in which nothing is pending a scan ends so too (`record_ends`): what it reserved has
been committed with a verdict that the results bear out, and no error comes after the reservation
under acknowledgements that come in time.
-/

namespace Markiro.InventoryJournal

open Utf16 Processes Table Journal

variable {inventory : Inventory}

/-! ## The facts of a scan -/

def Journal.resultOf (j : Journal) (codeHash : String) : Option LocalClaim :=
  (j.results.find? (·.codeHash = codeHash)).map (·.claim)

def factsOf (inventory : Inventory) (j : Journal) (scan : ScanInput) : ClassifierFacts :=
  ⟨Journal.snapshotRows inventory scan, j.claimRows inventory scan⟩

theorem find_claim {p : ResultRow → Bool} {l : List ResultRow} {codeHash : String}
    (hp : ∀ r ∈ l, r.codeHash = codeHash → p r = true) :
    ((l.filter p).map (·.claim)).find? (·.code = .item codeHash) =
      (l.find? (·.codeHash = codeHash)).map (·.claim) := by
  induction l with
  | nil => rfl
  | cons r l ih =>
    have hrest := ih fun x hx => hp x (List.mem_cons_of_mem _ hx)
    by_cases hcode : r.codeHash = codeHash
    · have hclaim : decide (r.claim.code = .item codeHash) = true :=
        decide_eq_true (congrArg NormalizedIdentity.item hcode)
      rw [List.filter_cons_of_pos (hp r List.mem_cons_self hcode), List.map_cons, List.find?_cons,
        List.find?_cons, hclaim, decide_eq_true hcode]
      rfl
    · have hclaim : decide (r.claim.code = .item codeHash) = false :=
        decide_eq_false fun h => hcode (NormalizedIdentity.item.inj h)
      rw [List.filter_cons, List.find?_cons, decide_eq_false hcode]
      dsimp only
      rw [← hrest]
      split
      · rw [List.map_cons, List.find?_cons, hclaim]
      · rfl

theorem ownedBy_live {j : Journal} (h : j.Whole inventory) {r : ResultRow} (hr : r ∈ j.results) :
    j.ownedBy (·.isLive) r = true := by
  obtain ⟨e, he, hlive, hown⟩ := h.owned r hr
  exact ownedBy_of he hown hlive

theorem findLocalClaim_item {j : Journal} (h : j.Whole inventory) (km : ParsedKm) :
    (factsOf inventory j (.km km)).findLocalClaim (inventory.kmHash km) =
      j.resultOf (inventory.kmHash km) :=
  find_claim fun r hr hcode => by rw [ownedBy_live h hr, decide_eq_true hcode]; rfl

theorem findLocalClaim_child {j : Journal} (h : j.Whole inventory) {sscc : Units}
    {row : SnapshotRow} (hrow : row ∈ inventory.children sscc) :
    (factsOf inventory j (.sscc sscc)).findLocalClaim row.codeHash = j.resultOf row.codeHash := by
  refine find_claim fun r hr hcode => ?_
  rw [ownedBy_live h hr, Bool.true_and]
  exact List.any_eq_true.2 ⟨row, hrow, decide_eq_true hcode.symm⟩

theorem firstClaim_eq_none {claims : List LocalClaim} : firstClaim claims = none ↔ claims = [] := by
  cases claims with
  | nil => exact ⟨fun _ => rfl, fun _ => rfl⟩
  | cons claim rest =>
    refine ⟨fun h => ?_, nofun⟩
    unfold firstClaim at h
    split at h
    · exact nomatch h
    · split at h <;> exact nomatch h

def Journal.winnerIn (inventory : Inventory) (j : Journal) : ScanIdentity → Option LocalClaim
  | .item codeHash _ => j.resultOf codeHash
  | .knownBox sscc _ => firstClaim ((inventory.children sscc).filterMap (j.resultOf ·.codeHash))
  | .oldBox _ => none

/-- What the classification of a scan says of the snapshot and of the results. -/
def ScanSpec (inventory : Inventory) (j : Journal) (scan : ValidScan) : Prop :=
  (∀ claim, scan.kind.duplicateWinner = some claim →
    j.winnerIn inventory scan.identity = some claim) ∧
  match scan.identity with
  | .item codeHash _ =>
    match scan.kind with
    | .origin o => ∃ row ∈ inventory.rows, row.codeHash = codeHash ∧ row.origin = o
    | .unknown => ∀ row ∈ inventory.rows, row.codeHash ≠ codeHash
    | .duplicate _ => True
  | .knownBox sscc _ => inventory.children sscc ≠ [] ∧ (scan.kind.verdict = .duplicate →
      ∀ row ∈ inventory.children sscc, (j.resultOf row.codeHash).isSome = true)
  | .oldBox _ => scan.kind.verdict = .unknown

theorem classifyItem_spec {j : Journal} (h : j.Whole inventory) {gtin14 : Units} {km : ParsedKm}
    {scan : ValidScan}
    (hscan : classifyItem inventory.kmHash gtin14 (factsOf inventory j (.km km)) km =
      .valid scan) : ScanSpec inventory j scan := by
  unfold classifyItem at hscan
  split at hscan
  · exact nomatch hscan
  · obtain rfl := ScanClassification.valid.inj hscan
    rw [findLocalClaim_item h]
    cases hclaim : j.resultOf (inventory.kmHash km) with
    | some claim =>
      refine ⟨fun c hc => ?_, trivial⟩
      obtain rfl := Option.some.inj hc
      exact hclaim
    | none =>
      dsimp only
      cases hrow : (factsOf inventory j (.km km)).findSnapshotCode (inventory.kmHash km) with
      | none =>
        refine ⟨nofun, fun row hmem hcode => ?_⟩
        have hin : row ∈ Journal.snapshotRows inventory (.km km) :=
          List.mem_filter.2 ⟨hmem, decide_eq_true hcode⟩
        exact List.find?_eq_none.1 hrow row hin (decide_eq_true hcode)
      | some row =>
        have hin := List.mem_of_mem_filter (List.mem_of_find?_eq_some hrow)
        have hcode : row.codeHash = inventory.kmHash km := by simpa using List.find?_some hrow
        exact ⟨nofun, row, hin, hcode, rfl⟩

theorem classifyBox_spec {j : Journal} (h : j.Whole inventory) (sscc : Units) :
    ScanSpec inventory j (classifyBox (factsOf inventory j (.sscc sscc)) sscc) := by
  have hchildren : (factsOf inventory j (.sscc sscc)).findSnapshotChildren sscc =
      inventory.children sscc := by
    unfold ClassifierFacts.findSnapshotChildren factsOf Journal.snapshotRows Inventory.children
    dsimp only
    rw [List.filter_filter]
    simp
  unfold classifyBox
  rw [hchildren]
  split
  · exact ⟨nofun, rfl⟩
  · next hne =>
    have hwinning : ((inventory.children sscc).map (boxChild (factsOf inventory j (.sscc sscc)))).filterMap
        (·.firstWinning) = (inventory.children sscc).filterMap (j.resultOf ·.codeHash) := by
      rw [List.filterMap_map]
      refine List.filterMap_congr fun row hrow => ?_
      exact findLocalClaim_child h hrow
    change ScanSpec inventory j ⟨boxKind ((inventory.children sscc).map
      (boxChild (factsOf inventory j (.sscc sscc)))), .knownBox sscc _⟩
    unfold boxKind
    rw [hwinning]
    by_cases hun : unclaimed ((inventory.children sscc).map
        (boxChild (factsOf inventory j (.sscc sscc)))) = []
    · have hall : ∀ row ∈ inventory.children sscc, (j.resultOf row.codeHash).isSome = true := by
        intro row hrow
        have hnot := List.filter_eq_nil_iff.1 hun _ (List.mem_map_of_mem hrow)
        have hne : (boxChild (factsOf inventory j (.sscc sscc)) row).firstWinning ≠ none :=
          fun heq => hnot (decide_eq_true heq)
        have hclaim : (boxChild (factsOf inventory j (.sscc sscc)) row).firstWinning =
            j.resultOf row.codeHash := findLocalClaim_child h hrow
        rw [hclaim] at hne
        exact Option.isSome_iff_ne_none.2 hne
      rw [if_pos hun]
      cases hfirst : firstClaim ((inventory.children sscc).filterMap (j.resultOf ·.codeHash)) with
      | some claim =>
        refine ⟨fun c hc => ?_, hne, fun _ => hall⟩
        obtain rfl := Option.some.inj hc
        exact hfirst
      | none =>
        obtain ⟨row, rest, hcons⟩ := List.exists_cons_of_ne_nil hne
        have hrow : row ∈ inventory.children sscc := by
          rw [hcons]
          exact List.mem_cons_self
        obtain ⟨claim, hclaim⟩ := Option.isSome_iff_exists.1 (hall row hrow)
        have hmem : claim ∈ (inventory.children sscc).filterMap (j.resultOf ·.codeHash) :=
          List.mem_filterMap.2 ⟨row, hrow, hclaim⟩
        rw [firstClaim_eq_none.1 hfirst] at hmem
        exact absurd hmem List.not_mem_nil
    · rw [if_neg hun]
      exact ⟨nofun, hne, nofun⟩

theorem classify_spec {j : Journal} (h : j.Whole inventory) {input : RecordInventoryScanInput}
    {scan : ValidScan} (hscan : classifyFromFacts inventory input
      (factsOf inventory j (classifyScan input.raw)) = .valid scan) : ScanSpec inventory j scan := by
  unfold classifyFromFacts classifyInventoryScan at hscan
  cases hinput : classifyScan input.raw with
  | km km =>
    simp only [hinput] at hscan
    exact classifyItem_spec h hscan
  | sscc sscc =>
    simp only [hinput] at hscan
    obtain rfl := ScanClassification.valid.inj hscan
    exact classifyBox_spec h sscc
  | gtin gtin14 =>
    simp only [hinput] at hscan
    exact nomatch hscan
  | unknown raw =>
    simp only [hinput] at hscan
    exact nomatch hscan

theorem facts_ends {P : Journal → Prop} (hP : (journalContract inventory).Stable P)
    (input : RecordInventoryScanInput) :
    Reaches inventory P (loadClassifierFacts input) fun facts j =>
      P j ∧ facts = factsOf inventory j (classifyScan input.raw) := by
  have hsame : ∀ facts scan, (journalContract inventory).Stable fun j =>
      facts = factsOf inventory j scan := fun _ _ => steady fun _ _ _ h => h
  unfold loadClassifierFacts
  split
  · refine Reaches.bind (B := fun rows j =>
        P j ∧ rows = Journal.snapshotRows inventory (classifyScan input.raw))
      (Reaches.ask hP (fun _ => hP.and (Contract.Stable.const _)) fun _ _ h _ => ⟨trivial, h, rfl⟩)
      fun rows => ?_
    refine Reaches.bind (B := fun claims j =>
        P j ∧ (⟨rows, claims⟩ : ClassifierFacts) = factsOf inventory j (classifyScan input.raw))
      (Reaches.ask (hP.and (Contract.Stable.const _)) (fun _ => hP.and (hsame _ _))
        fun j _ h _ => ⟨trivial, h.1, by rw [h.2]; rfl⟩) fun claims => ?_
    exact Reaches.pure (hP.and (hsame _ _)) fun _ _ h => h
  · next hread =>
    refine Reaches.pure (hP.and (hsame _ _)) fun j _ h => ⟨h, ?_⟩
    unfold factsOf
    cases hscan : classifyScan input.raw with
    | gtin _ => rfl
    | unknown _ => rfl
    | km _ => exact absurd (hscan ▸ rfl) hread
    | sscc _ => exact absurd (hscan ▸ rfl) hread

/-! ## Reservation -/

def Journal.Fresh (j : Journal) (eventId : Uuid) : Prop := ∀ e ∈ j.events, e.eventId ≠ eventId

/-- Before the reservation of a scan. -/
structure Journal.Ready (inventory : Inventory) (j : Journal) (eventId : Uuid) (scan : ValidScan) :
    Prop where
  settled : j.Settled
  fresh : j.Fresh eventId
  spec : ScanSpec inventory j scan

/-- After it. -/
structure Journal.Reserved (inventory : Inventory) (j : Journal) (scan : ValidScan) (e : EventRow) :
    Prop where
  holds : j.Holds e
  unqueued : j.Unqueued e.eventId
  unclaimed : j.Unclaimed e.eventId
  spec : ScanSpec inventory j scan

theorem ready_steady (eventId : Uuid) (scan : ValidScan) :
    (journalContract inventory).Stable fun j => j.Ready inventory eventId scan :=
  steady fun _ _ _ h => ⟨h.settled, h.fresh, h.spec⟩

theorem holds_steady (e : EventRow) : (journalContract inventory).Stable fun j => j.Holds e :=
  steady fun _ _ _ h => ⟨h.mem, h.pending⟩

theorem reserved_steady (scan : ValidScan) (e : EventRow) :
    (journalContract inventory).Stable fun j => j.Reserved inventory scan e :=
  steady fun _ _ _ h => ⟨⟨h.holds.mem, h.holds.pending⟩, h.unqueued, h.unclaimed, h.spec⟩

theorem activeDate_ends {P : Journal → Prop} (hP : (journalContract inventory).Stable P)
    (hsettled : ∀ j, P j → j.Settled) :
    Reaches inventory P activeDate fun date j => P j ∧ date ≠ "" := by
  unfold activeDate
  refine Reaches.bind (B := fun _ => P) (Reaches.ask hP (fun _ => hP) fun _ _ h _ => ⟨trivial, h⟩)
    fun value => ?_
  refine Reaches.bind (B := fun _ j => P j ∧ value.getD "" ≠ "")
    (Reaches.require (hP.and (Contract.Stable.const _)) (fun _ _ h hb => ⟨h, of_decide_eq_true hb⟩)
      fun j _ h _ => hsettled j h) fun _ => ?_
  exact Reaches.pure (hP.and (Contract.Stable.const _)) fun _ _ h => h

theorem guard_ends (input : RecordInventoryScanInput) (scan : ValidScan) (facts : ClassifierFacts) :
    Reaches inventory (fun j => j.Ready inventory input.eventId scan)
      (guardSourceProductionDate input scan facts)
      fun _ j => j.Ready inventory input.eventId scan := by
  have hready := @ready_steady inventory input.eventId scan
  have hdone : ∀ outcome : Option RecordInventoryScanOutcome, Reaches inventory
      (fun j => j.Ready inventory input.eventId scan) (pure outcome)
      fun _ j => j.Ready inventory input.eventId scan :=
    fun _ => Reaches.pure hready fun _ _ h => h
  unfold guardSourceProductionDate
  split
  · exact hdone none
  · split
    · exact hdone none
    · exact Reaches.bind (activeDate_ends hready fun _ h => h.settled) fun _ =>
        (hdone _).imp fun _ _ h => h.1
    · next date _ =>
      refine Reaches.bind (activeDate_ends hready fun _ h => h.settled) fun active => ?_
      refine Reaches.imp (P := fun j => j.Ready inventory input.eventId scan) ?_ fun _ _ h => h.1
      split
      · exact hdone none
      · refine Reaches.bind (B := fun _ j => j.Ready inventory input.eventId scan)
          (Reaches.ask hready (fun _ => hready) fun _ _ h _ => ⟨trivial, h⟩) fun scans => ?_
        split
        · exact hdone _
        · refine Reaches.bind (B := fun _ j => j.Ready inventory input.eventId scan)
            (Reaches.require hready (fun _ _ h _ => h) fun _ _ h _ => h.settled) fun _ => ?_
          refine Reaches.bind (B := fun _ j => j.Ready inventory input.eventId scan)
            (Reaches.ask hready (fun _ => hready) fun j _ h _ =>
              ⟨trivial, ⟨h.settled, h.fresh, h.spec⟩⟩) fun _ => hdone none

theorem allocate_ends (eventId : Uuid) (scan : ValidScan) :
    Reaches inventory (fun j => j.Ready inventory eventId scan) allocateSequence fun sequence j =>
      j.Ready inventory eventId scan ∧ (∀ e ∈ j.events, e.deviceSequence < sequence) ∧
        sequence < j.terminalRow.nextDeviceSequence := by
  have hready := @ready_steady inventory eventId scan
  have hsteady : ∀ sequence : ℕ, (journalContract inventory).Stable fun j =>
      j.Ready inventory eventId scan ∧ (∀ e ∈ j.events, e.deviceSequence < sequence) ∧
        sequence < j.terminalRow.nextDeviceSequence := fun sequence =>
    hready.and (steady fun _ _ _ h => h)
  unfold allocateSequence
  refine Reaches.bind (B := fun _ j => j.Ready inventory eventId scan ∧ j.terminal.isSome = true)
    (Reaches.ask hready (fun _ => hready.and (steady fun _ _ _ h => h)) fun j _ h _ =>
      ⟨trivial, ⟨h.settled, h.fresh, h.spec⟩, rfl⟩) fun _ => ?_
  refine Reaches.bind (B := fun (sequence : Option ℕ) j => j.Ready inventory eventId scan ∧
      (∀ e ∈ j.events, e.deviceSequence < sequence.getD 0) ∧
        sequence.getD 0 < j.terminalRow.nextDeviceSequence)
    (Reaches.ask (hready.and (steady fun _ _ _ h => h)) (fun _ => hsteady _)
      fun j hj h _ => ⟨trivial, ?_⟩) fun sequence => ?_
  · obtain ⟨t, ht⟩ := Option.isSome_iff_exists.1 h.2
    have hrow : j.terminalRow = t := by rw [terminalRow, ht]; rfl
    change Journal.Ready inventory j.nextSequence.2 eventId scan ∧
      (∀ e ∈ j.nextSequence.2.events, e.deviceSequence < j.nextSequence.1.getD 0) ∧
        j.nextSequence.1.getD 0 < j.nextSequence.2.terminalRow.nextDeviceSequence
    unfold Journal.nextSequence
    rw [ht]
    refine ⟨⟨h.1.settled, h.1.fresh, h.1.spec⟩, fun e he => ?_, Nat.lt_succ_self _⟩
    have hlt := hj.next e he
    rw [hrow] at hlt
    exact hlt
  · refine Reaches.bind (B := fun _ j => j.Ready inventory eventId scan ∧
        (∀ e ∈ j.events, e.deviceSequence < sequence.getD 0) ∧
          sequence.getD 0 < j.terminalRow.nextDeviceSequence)
      (Reaches.require (hsteady _) (fun _ _ h _ => h) fun _ _ h _ => h.1.settled) fun _ => ?_
    exact Reaches.pure (hsteady _) fun _ _ h => h

def IsReservation (input : RecordInventoryScanInput) (scan : ValidScan) (e : EventRow) : Prop :=
  ∃ date sequence, date ≠ "" ∧ e = reservation input scan date sequence

theorem IsReservation.exact {input : RecordInventoryScanInput} {scan : ValidScan} {e : EventRow}
    (h : IsReservation input scan e) : exactReservation e input scan = true := by
  obtain ⟨date, sequence, -, rfl⟩ := h
  simp [exactReservation, reservation]

theorem reserve_ends (input : RecordInventoryScanInput) (scan : ValidScan) :
    Reaches inventory (fun j => j.Ready inventory input.eventId scan) (reserveEvent input scan)
      fun e j => IsReservation input scan e ∧ j.Reserved inventory scan e := by
  have hready := @ready_steady inventory input.eventId scan
  unfold reserveEvent
  refine Reaches.bind (activeDate_ends hready fun _ h => h.settled) fun date => ?_
  by_cases hdate : date = ""
  · exact Reaches.absurd fun _ _ h => h.2 hdate
  refine Reaches.bind ((allocate_ends input.eventId scan).imp fun _ _ h => h.1) fun sequence => ?_
  set row := reservation input scan date sequence with hrow
  refine Reaches.bind (B := fun _ j => j.Reserved inventory scan row)
    (Reaches.ask (hready.and (steady fun _ _ _ h => h)) (fun _ => reserved_steady scan row)
      fun j hj h _ => ?_) fun _ => ?_
  · obtain ⟨hr, hseq, hnext⟩ := h
    refine ⟨⟨hr.settled, rfl, hr.fresh, hseq, hnext⟩, ?_⟩
    have hnew : j.events.any (·.eventId = row.eventId) = false :=
      List.any_eq_false.2 fun e he heq => hr.fresh e he (of_decide_eq_true heq)
    change Journal.Reserved inventory (j.insertEvent row) scan row
    unfold Journal.insertEvent
    rw [if_neg (by rw [hnew]; exact Bool.false_ne_true)]
    refine ⟨⟨List.mem_append_right _ List.mem_cons_self, rfl⟩, fun q hq hid => ?_,
      fun r hres hid => ?_, hr.spec⟩
    · obtain ⟨e, he, -, rfl⟩ := hj.logged q hq
      exact hr.fresh e he hid
    · obtain ⟨e, he, -, hown⟩ := hj.owned r hres
      exact hr.fresh e he (hown.event.symm.trans hid)
  refine Reaches.bind (B := fun reserved j => j.Reserved inventory scan row ∧ reserved = some row)
    (Reaches.ask (reserved_steady scan row)
      (fun _ => (reserved_steady scan row).and (Contract.Stable.const _))
      fun j hj h _ => ⟨trivial, h, existingEvent_eq hj h.holds.mem⟩) fun reserved => ?_
  have hres : IsReservation input scan row := ⟨date, sequence, hdate, hrow⟩
  cases reserved with
  | none => exact Reaches.absurd fun _ _ h => nomatch h.2
  | some found =>
    by_cases hfound : found = row
    · rw [hfound]
      refine Reaches.bind (B := fun _ j => j.Reserved inventory scan row)
        (Reaches.require (reserved_steady scan row) (fun _ _ h _ => h.1) fun j _ h hfalse => ?_)
        fun _ => Reaches.pure ((Contract.Stable.const _).and (reserved_steady scan row))
          fun _ _ h => ⟨hres, h⟩
      have hdup : row.duplicateWinner = scan.kind.duplicateWinner := by rw [hrow]; rfl
      rw [hres.exact, decide_eq_true hdup] at hfalse
      exact nomatch hfalse
    · exact Reaches.absurd fun _ _ h => hfound (Option.some.inj h.2)

end Markiro.InventoryJournal
