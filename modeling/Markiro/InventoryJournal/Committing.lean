import Markiro.InventoryJournal.Recording

/-!
# From the reservation to the commit

The results of a reserved event, its verdict, its outbox row and its commit. Nothing between the
reservation and the commit ends in an error, so a finished call leaves nothing pending
(`record_ends`).
-/

namespace Markiro.InventoryJournal

open Utf16 Processes Table Journal

variable {inventory : Inventory} {j : Journal}

/-! ## Results of a code -/

namespace Journal

theorem resultOf_isSome {codeHash : String} :
    (j.resultOf codeHash).isSome = true ↔ ∃ r ∈ j.results, r.codeHash = codeHash := by
  rw [resultOf, Option.isSome_map, List.find?_isSome]
  simp

theorem resultOf_insert {codeHash : String} {claim : LocalClaim} (rows : List ResultRow)
    (h : j.resultOf codeHash = some claim) :
    (j.insertResults rows).resultOf codeHash = some claim := by
  obtain ⟨r, hr, hclaim⟩ := Option.map_eq_some_iff.1 h
  unfold resultOf insertResults
  dsimp only
  rw [List.find?_append, hr]
  exact congrArg some hclaim

theorem resultOf_inserted {rows : List ResultRow} (row : ResultRow) (h : row ∈ rows) :
    ((j.insertResults rows).resultOf row.codeHash).isSome = true := by
  rw [resultOf_isSome]
  by_cases hold : j.results.any (·.codeHash = row.codeHash) = true
  · obtain ⟨r, hr, hcode⟩ := List.any_eq_true.1 hold
    exact ⟨r, List.mem_append_left _ hr, of_decide_eq_true hcode⟩
  · rw [Bool.not_eq_true] at hold
    exact ⟨row, List.mem_append_right _ (List.mem_filter.2 ⟨h, by rw [hold]; rfl⟩), rfl⟩

theorem winnerOf_eq (h : j.Whole inventory) {e : EventRow} (he : j.Holds e)
    (hu : j.Unclaimed e.eventId) (codeHash : String) :
    j.winnerOf codeHash = j.resultOf codeHash := by
  unfold winnerOf resultOf
  congr 1
  apply List.find?_congr
  intro r hr
  obtain ⟨o, ho, hc, hown, -⟩ := h.owner_committed he.mem he.pending hr (hu r hr)
  rw [ownedBy_of ho hown hc, Bool.and_true]

theorem firstProjectionWinner_eq (h : j.Whole inventory) {e : EventRow} (he : j.Holds e)
    (hu : j.Unclaimed e.eventId) (identity : ScanIdentity) :
    j.firstProjectionWinner inventory identity = j.winnerIn inventory identity := by
  cases identity with
  | item codeHash raw => exact winnerOf_eq h he hu codeHash
  | knownBox sscc children =>
    unfold firstProjectionWinner winnerIn
    dsimp only
    rw [List.filterMap_congr fun row _ => winnerOf_eq h he hu row.codeHash]
  | oldBox sscc => rfl

theorem Holds.covered (h : j.Whole inventory) {e : EventRow} (he : j.Holds e)
    (hall : ∀ row ∈ e.claims inventory, (j.resultOf row.codeHash).isSome = true) :
    j.Covered inventory e := by
  intro row hrow
  obtain ⟨r, hr, hcode⟩ := resultOf_isSome.1 (hall row hrow)
  obtain ⟨o, ho, -, hown⟩ := h.owned r hr
  exact ⟨r, hr, hcode, o, ho, hown.event.symm, h.last e he.mem he.pending o ho⟩

end Journal

/-! ## The projection of a scan -/

/-- After the results of a reserved event were inserted. -/
structure Journal.Projected (inventory : Inventory) (j : Journal) (scan : ValidScan) (e : EventRow) :
    Prop where
  holds : j.Holds e
  unqueued : j.Unqueued e.eventId
  winner : ∀ claim, scan.kind.duplicateWinner = some claim →
    j.winnerIn inventory scan.identity = some claim
  found : match scan.identity with
    | .item codeHash _ =>
      (scan.kind.verdict = .unknown ∧ ∀ row ∈ inventory.rows, row.codeHash ≠ codeHash) ∨
        (scan.kind.verdict ≠ .unknown ∧ (j.resultOf codeHash).isSome = true)
    | .knownBox sscc _ => inventory.children sscc ≠ [] ∧
        ∀ row ∈ inventory.children sscc, (j.resultOf row.codeHash).isSome = true
    | .oldBox _ => scan.kind.verdict = .unknown

theorem projected_steady (scan : ValidScan) (e : EventRow) :
    (journalContract inventory).Stable fun j => j.Projected inventory scan e :=
  steady fun _ _ _ h => ⟨⟨h.holds.mem, h.holds.pending⟩, h.unqueued, h.winner, h.found⟩

variable {e : EventRow} {scan : ValidScan}

theorem project_ends {input : RecordInventoryScanInput} (hres : IsReservation input scan e) :
    Reaches inventory (fun j => j.Reserved inventory scan e)
      (insertProjections input scan e.activeProductionDate)
      fun _ j => j.Projected inventory scan e := by
  obtain ⟨date, sequence, -, rfl⟩ := hres
  obtain ⟨kind, identity⟩ := scan
  cases identity with
  | item codeHash raw =>
    cases kind with
    | origin o =>
      refine Reaches.ask (reserved_steady _ _) (fun _ => projected_steady _ _) fun j hj h _ => ?_
      obtain ⟨-, row, hrow, hcode, ho⟩ := h.spec
      refine ⟨⟨_, h.holds.mem, h.holds.pending, h.unqueued, rfl, rfl, rfl, row, ?_, hcode.symm,
        ho.symm, ho.symm⟩, ⟨⟨h.holds.mem, h.holds.pending⟩, h.unqueued, nofun, .inr ⟨nofun, ?_⟩⟩⟩
      · exact List.mem_filter.2 ⟨hrow, decide_eq_true hcode⟩
      · exact resultOf_inserted ⟨codeHash, _, _, _, o, o⟩ List.mem_cons_self
    | unknown =>
      exact Reaches.pure (projected_steady _ _) fun j _ h =>
        ⟨h.holds, h.unqueued, nofun, .inl ⟨rfl, h.spec.2⟩⟩
    | duplicate claim =>
      refine Reaches.pure (projected_steady _ _) fun j _ h =>
        ⟨h.holds, h.unqueued, h.spec.1, .inr ⟨nofun, ?_⟩⟩
      have hwin : j.resultOf codeHash = some claim := h.spec.1 claim rfl
      rw [hwin]
      rfl
  | knownBox sscc children =>
    refine Reaches.ask (reserved_steady _ _) (fun _ => projected_steady _ _) fun j hj h _ => ?_
    obtain ⟨hwinner, hne, hall⟩ := h.spec
    refine ⟨⟨_, h.holds.mem, h.holds.pending, h.unqueued, rfl, rfl, rfl, rfl⟩,
      ⟨⟨h.holds.mem, h.holds.pending⟩, h.unqueued, fun claim hclaim => ?_, hne, fun row hrow => ?_⟩⟩
    · have hverdict : kind.verdict = .duplicate := by
        cases kind with
        | duplicate _ => rfl
        | origin _ => exact nomatch hclaim
        | unknown => exact nomatch hclaim
      refine (congrArg firstClaim (List.filterMap_congr fun row hrow => ?_)).trans
        (hwinner claim hclaim)
      obtain ⟨c, hc⟩ := Option.isSome_iff_exists.1 (hall hverdict row hrow)
      rw [hc]
      exact resultOf_insert _ hc
    · exact resultOf_inserted ⟨row.codeHash, _, _, _, row.origin, row.origin⟩
        (List.mem_map_of_mem hrow)
  | oldBox sscc =>
    have hpure : Reaches inventory (fun j => j.Reserved inventory ⟨kind, .oldBox sscc⟩
        (reservation input ⟨kind, .oldBox sscc⟩ date sequence)) (pure ())
        fun _ j => j.Projected inventory ⟨kind, .oldBox sscc⟩
          (reservation input ⟨kind, .oldBox sscc⟩ date sequence) :=
      Reaches.pure (projected_steady _ _) fun j _ h =>
        ⟨h.holds, h.unqueued, h.spec.1, h.spec.2⟩
    cases kind <;> exact hpure

/-! ## The verdict -/

theorem projection_verdict (scan : ValidScan) (eventId : Uuid) :
    match verdictFromProjection scan (j.ownedProjectionSummary eventId) with
    | some (.origin o) =>
      ∃ r ∈ j.results, r.firstAcceptedEventId = eventId ∧ r.originClassification = o
    | some .duplicate => j.Unclaimed eventId ∧
        (scan.identity.isKnownBox = true ∨ scan.kind.verdict ≠ .unknown)
    | some .unknown => False
    | none => j.Unclaimed eventId ∧ scan.identity.isKnownBox = false ∧
        scan.kind.verdict = .unknown := by
  have hcount : ∀ o : OriginClassification,
      0 < (j.results.filter (·.firstAcceptedEventId = eventId)).countP
        (·.originClassification = o) →
      ∃ r ∈ j.results, r.firstAcceptedEventId = eventId ∧ r.originClassification = o := by
    intro o hpos
    obtain ⟨r, hr, hid, ho⟩ := countP_owned_pos.1 hpos
    exact ⟨r, hr, hid, of_decide_eq_true ho⟩
  unfold verdictFromProjection
  by_cases hexpected : 0 < (j.ownedProjectionSummary eventId).expected
  · rw [if_pos hexpected]
    exact hcount .expected hexpected
  · rw [if_neg hexpected]
    by_cases hprotected : 0 < (j.ownedProjectionSummary eventId).protected
    · rw [if_pos hprotected]
      exact hcount .protected hprotected
    · rw [if_neg hprotected]
      by_cases hineligible : 0 < (j.ownedProjectionSummary eventId).ineligible
      · rw [if_pos hineligible]
        exact hcount .knownIneligible hineligible
      · rw [if_neg hineligible]
        have hnone : j.Unclaimed eventId := by
          intro r hr hid
          cases ho : r.originClassification
          · exact hexpected (countP_owned_pos.2 ⟨r, hr, hid, decide_eq_true ho⟩)
          · exact hprotected (countP_owned_pos.2 ⟨r, hr, hid, decide_eq_true ho⟩)
          · exact hineligible (countP_owned_pos.2 ⟨r, hr, hid, decide_eq_true ho⟩)
        by_cases hdup : scan.identity.isKnownBox = true ∨ scan.kind.verdict ≠ .unknown
        · rw [if_pos hdup]
          exact ⟨hnone, hdup⟩
        · rw [if_neg hdup]
          rw [not_or, not_not, Bool.not_eq_true] at hdup
          exact ⟨hnone, hdup⟩

/-- After the verdict was found. -/
structure Journal.Decided (inventory : Inventory) (j : Journal) (e : EventRow) (verdict : Verdict)
    (first : Option LocalClaim) : Prop where
  holds : j.Holds e
  unqueued : j.Unqueued e.eventId
  covered : j.Covered inventory e
  justified : j.Justified inventory e verdict
  winner : verdict = .duplicate → ∃ claim, first = some claim ∧
    (e.duplicateWinner = none ∨ e.duplicateWinner = some claim)

theorem decided_steady (e : EventRow) (verdict : Verdict) (first : Option LocalClaim) :
    (journalContract inventory).Stable fun j => j.Decided inventory e verdict first :=
  steady fun _ _ _ h => ⟨⟨h.holds.mem, h.holds.pending⟩, h.unqueued, h.covered, by
    cases verdict <;> exact h.justified, h.winner⟩

theorem Journal.Projected.covered (hj : j.Whole inventory)
    (h : j.Projected inventory scan e) (hid : e.identity = scan.identity.normalized) :
    j.Covered inventory e := by
  refine h.holds.covered hj fun row hrow => ?_
  have hfound := h.found
  unfold EventRow.claims at hrow
  rw [hid] at hrow
  cases hidentity : scan.identity with
  | item codeHash raw =>
    rw [hidentity] at hrow hfound
    obtain ⟨hmem, hcode⟩ := List.mem_filter.1 hrow
    have hcode : row.codeHash = codeHash := of_decide_eq_true hcode
    rcases hfound with ⟨-, hnone⟩ | ⟨-, hsome⟩
    · exact absurd hcode (hnone row hmem)
    · rw [hcode]
      exact hsome
  | knownBox sscc children =>
    rw [hidentity] at hrow hfound
    exact hfound.2 row hrow
  | oldBox sscc =>
    rw [hidentity] at hrow
    exact absurd hrow List.not_mem_nil

/-- The claim that wins a duplicate that is not an unknown code. -/
theorem Journal.Projected.decided (hj : j.Whole inventory)
    (h : j.Projected inventory scan e) (hid : e.identity = scan.identity.normalized)
    (hwinner : e.duplicateWinner = scan.kind.duplicateWinner) (hu : j.Unclaimed e.eventId)
    (hdup : scan.identity.isKnownBox = true ∨ scan.kind.verdict ≠ .unknown) :
    j.Decided inventory e .duplicate (j.firstProjectionWinner inventory scan.identity) := by
  have hfound := h.found
  have hwins := h.winner
  rw [firstProjectionWinner_eq hj h.holds hu]
  have hrep : (j.winnerIn inventory scan.identity).isSome = true ∧ j.Represented inventory e := by
    unfold Represented
    rw [hid]
    cases hidentity : scan.identity with
    | item codeHash raw =>
      rw [hidentity] at hfound hdup
      rcases hfound with ⟨hunknown, -⟩ | ⟨-, hsome⟩
      · rcases hdup with hbox | hne
        · exact nomatch hbox
        · exact absurd hunknown hne
      · exact ⟨hsome, hu, .inl (resultOf_isSome.1 hsome)⟩
    | knownBox sscc children =>
      rw [hidentity] at hfound
      obtain ⟨hne, hall⟩ := hfound
      refine ⟨?_, hu, hne, fun row hrow => resultOf_isSome.1 (hall row hrow)⟩
      obtain ⟨row, rest, hcons⟩ := List.exists_cons_of_ne_nil hne
      have hrow : row ∈ inventory.children sscc := by
        rw [hcons]
        exact List.mem_cons_self
      obtain ⟨claim, hclaim⟩ := Option.isSome_iff_exists.1 (hall row hrow)
      rw [Option.isSome_iff_ne_none]
      intro hnone
      have hmem : claim ∈ (inventory.children sscc).filterMap (j.resultOf ·.codeHash) :=
        List.mem_filterMap.2 ⟨row, hrow, hclaim⟩
      rw [firstClaim_eq_none.1 hnone] at hmem
      exact absurd hmem List.not_mem_nil
    | oldBox sscc =>
      rw [hidentity] at hfound hdup
      rcases hdup with hbox | hne
      · exact nomatch hbox
      · exact absurd hfound hne
  obtain ⟨claim, hclaim⟩ := Option.isSome_iff_exists.1 hrep.1
  refine ⟨h.holds, h.unqueued, h.covered hj hid, hrep.2, fun _ => ⟨claim, hclaim, ?_⟩⟩
  rw [hwinner]
  cases hdw : scan.kind.duplicateWinner with
  | none => exact .inl rfl
  | some c => exact .inr ((hwins c hdw).symm.trans hclaim)

theorem firstEvent_mem {events : List EventRow} (h : firstEvent events = some e) : e ∈ events := by
  induction events generalizing e with
  | nil => exact nomatch h
  | cons x rest ih =>
    unfold firstEvent at h
    split at h
    · obtain rfl := Option.some.inj h
      exact List.mem_cons_self
    · next first hfirst =>
      split at h
      · obtain rfl := Option.some.inj h
        exact List.mem_cons_of_mem _ (ih hfirst)
      · obtain rfl := Option.some.inj h
        exact List.mem_cons_self

theorem Journal.Holds.observed (hj : j.Whole inventory) (he : j.Holds e)
    {claim : LocalClaim} (hfirst : j.firstUnknownObservation e.identity = some claim)
    (hne : claim.eventId ≠ e.eventId) : j.Observed e.identity := by
  obtain ⟨o, ho, rfl⟩ := Option.map_eq_some_iff.1 hfirst
  obtain ⟨hmem, hcond⟩ := List.mem_filter.1 (firstEvent_mem ho)
  simp only [Bool.and_eq_true, decide_eq_true_eq] at hcond
  obtain ⟨⟨hid, hlive⟩, hverdict⟩ := hcond
  rcases EventRow.live_iff.1 hlive with hp | hc
  · exact absurd (congrArg EventRow.eventId (hj.pending_eq hmem he.mem hp he.pending)) hne
  · exact ⟨o, hmem, hid, hc, hverdict⟩

theorem decide_ends (hid : e.identity = scan.identity.normalized)
    (hwinner : e.duplicateWinner = scan.kind.duplicateWinner) (summary : ProjectionSummary) :
    Reaches inventory (fun j => j.Projected inventory scan e ∧
        summary = j.ownedProjectionSummary e.eventId)
      (decideVerdict scan e summary) fun v j => j.Decided inventory e v.1 v.2 := by
  have hsummary : (journalContract inventory).Stable fun j => j.Projected inventory scan e ∧
      summary = j.ownedProjectionSummary e.eventId :=
    (projected_steady scan e).and (steady fun _ _ _ h => h)
  have hverdict : ∀ j : Journal, summary = j.ownedProjectionSummary e.eventId →
      match verdictFromProjection scan summary with
      | some (.origin o) =>
        ∃ r ∈ j.results, r.firstAcceptedEventId = e.eventId ∧ r.originClassification = o
      | some .duplicate => j.Unclaimed e.eventId ∧
          (scan.identity.isKnownBox = true ∨ scan.kind.verdict ≠ .unknown)
      | some .unknown => False
      | none => j.Unclaimed e.eventId ∧ scan.identity.isKnownBox = false ∧
          scan.kind.verdict = .unknown := by
    rintro j rfl
    exact projection_verdict scan e.eventId
  unfold decideVerdict
  cases hv : verdictFromProjection scan summary with
  | none =>
    simp only [hv] at hverdict ⊢
    refine Reaches.bind (B := fun first j => (j.Projected inventory scan e ∧
        j.Unclaimed e.eventId ∧ scan.identity.isKnownBox = false ∧ scan.kind.verdict = .unknown) ∧
        first = j.firstUnknownObservation e.identity)
      (Reaches.ask hsummary (fun _ => ((projected_steady scan e).and (steady fun _ _ _ h => h)).and
        (steady fun _ _ _ h => h)) fun j _ h _ => ⟨trivial, ⟨h.1, hverdict j h.2⟩, rfl⟩)
      fun first => ?_
    refine Reaches.pure (decided_steady _ _ _) fun j hj h => ?_
    obtain ⟨⟨hproj, hu, hbox, hunknown⟩, hfirst⟩ := h
    by_cases hother : first.any (fun claim => decide (claim.eventId ≠ e.eventId)) = true
    · rw [if_pos hother]
      obtain ⟨claim, hclaim, hne⟩ : ∃ claim, first = some claim ∧ claim.eventId ≠ e.eventId := by
        cases first with
        | none => exact nomatch hother
        | some claim => exact ⟨claim, rfl, of_decide_eq_true hother⟩
      have hobs := hproj.holds.observed hj (hfirst.symm.trans hclaim) hne
      refine ⟨hproj.holds, hproj.unqueued, hproj.covered hj hid, ⟨hu, ?_⟩, fun _ =>
        ⟨claim, hclaim, .inl ?_⟩⟩
      · rw [hid] at hobs ⊢
        cases hidentity : scan.identity with
        | item codeHash raw =>
          rw [hidentity] at hobs
          exact .inr hobs
        | knownBox sscc children =>
          rw [hidentity] at hbox
          exact nomatch hbox
        | oldBox sscc =>
          rw [hidentity] at hobs
          exact hobs
      · rw [hwinner]
        cases hkind : scan.kind with
        | duplicate claim =>
          rw [hkind] at hunknown
          exact nomatch hunknown
        | origin o => rfl
        | unknown => rfl
    · rw [if_neg hother]
      exact ⟨hproj.holds, hproj.unqueued, hproj.covered hj hid, hu, nofun⟩
  | some verdict =>
    simp only [hv] at hverdict ⊢
    cases verdict with
    | duplicate =>
      refine Reaches.bind (B := fun first j => j.Decided inventory e .duplicate first)
        (Reaches.ask hsummary (fun _ => decided_steady _ _ _) fun j hj h _ => ⟨trivial, ?_⟩)
        fun first => Reaches.pure (decided_steady _ _ _) fun _ _ h => h
      obtain ⟨hu, hdup⟩ := hverdict j h.2
      exact h.1.decided hj hid hwinner hu hdup
    | origin o =>
      exact Reaches.pure (decided_steady _ _ _) fun j hj h =>
        ⟨h.1.holds, h.1.unqueued, h.1.covered hj hid, hverdict j h.2, nofun⟩
    | unknown => exact Reaches.absurd fun j _ h => hverdict j h.2

/-! ## Storing the verdict -/

theorem Journal.Decided.change (hj : j.Whole inventory) {verdict : Verdict}
    {first : Option LocalClaim} (h : j.Decided inventory e verdict first)
    {q : EventRow → Bool} {f : EventRow → EventRow} (hq : q e = true) (hsame : (f e).Same e)
    (hp : (f e).isPending = true)
    (hw : verdict = .duplicate → ∃ claim, first = some claim ∧
      ((f e).duplicateWinner = none ∨ (f e).duplicateWinner = some claim)) :
    (j.change e.eventId q f).Decided inventory (f e) verdict first := by
  have hmem : ∀ {x : EventRow}, x ∈ (j.change e.eventId q f).events ↔
      x = f e ∨ x ∈ j.events ∧ x.eventId ≠ e.eventId :=
    mem_change hj h.holds.mem h.holds.pending hq
  have hother : ∀ {o : EventRow}, o ∈ j.events → o.isCommitted = true → o.eventId ≠ e.eventId := by
    intro o ho hc hid
    obtain rfl := hj.ids.eq ho h.holds.mem hid
    have hpending := h.holds.pending
    rw [EventRow.not_pending_of_committed hc] at hpending
    exact nomatch hpending
  have hobs : ∀ identity, j.Observed identity → (j.change e.eventId q f).Observed identity := by
    rintro identity ⟨o, ho, hid, hc, hv⟩
    exact ⟨o, hmem.2 (.inr ⟨ho, hother ho hc⟩), hid, hc, hv⟩
  refine ⟨⟨hmem.2 (.inl rfl), hp⟩, ?_, ?_, ?_, hw⟩
  · rw [hsame.eventId]
    exact h.unqueued
  · refine h.covered.mono hsame (fun _ hr => hr) fun o ho => ?_
    by_cases hid : o.eventId = e.eventId
    · obtain rfl := hj.ids.eq ho h.holds.mem hid
      exact ⟨f o, hmem.2 (.inl rfl), hsame⟩
    · exact ⟨o, hmem.2 (.inr ⟨ho, hid⟩), same_refl o⟩
  · have hjust := h.justified
    cases verdict with
    | origin o =>
      unfold Justified
      rw [hsame.eventId]
      exact hjust
    | unknown =>
      unfold Justified
      rw [hsame.eventId]
      exact hjust
    | duplicate =>
      obtain ⟨hu, hrep⟩ := hjust
      unfold Justified Represented
      rw [hsame.eventId, hsame.identity]
      refine ⟨hu, ?_⟩
      cases hidentity : e.identity with
      | item codeHash =>
        rw [hidentity] at hrep
        exact hrep.imp_right (hobs _)
      | knownBox sscc =>
        rw [hidentity] at hrep
        exact hrep
      | oldBox sscc =>
        rw [hidentity] at hrep
        exact hobs _ hrep

def EventRow.withWinner (e : EventRow) (verdict : Verdict) (first : Option LocalClaim) : EventRow :=
  if verdict = .duplicate then { e with duplicateWinner := first } else e

theorem keep_ends (e : EventRow) (verdict : Verdict) (first : Option LocalClaim) :
    Reaches inventory (fun j => j.Decided inventory e verdict first)
      (keepWinner e.eventId verdict first)
      fun _ j => j.Decided inventory (e.withWinner verdict first) verdict first := by
  unfold keepWinner EventRow.withWinner
  by_cases hdup : verdict = .duplicate
  · rw [if_pos hdup, if_pos hdup]
    subst hdup
    cases first with
    | none =>
      refine Reaches.absurd fun j _ h => ?_
      obtain ⟨claim, hclaim, -⟩ := h.winner rfl
      exact nomatch hclaim
    | some winner =>
      have hkept : ∀ kept : EventRow, kept = { e with duplicateWinner := some winner } →
          Reaches inventory (fun j => j.Decided inventory e .duplicate (some winner))
            (persistDuplicateWinner e.eventId (some winner))
            fun _ j => j.Decided inventory kept .duplicate (some winner) := by
        intro kept heq
        have hid : kept.eventId = e.eventId := by rw [heq]
        unfold persistDuplicateWinner
        refine Reaches.bind (B := fun _ j => j.Decided inventory kept .duplicate (some winner))
          (Reaches.ask (decided_steady _ _ _) (fun _ => decided_steady _ _ _)
            fun j hj h _ => ⟨h.unqueued, ?_⟩) fun _ => ?_
        · obtain ⟨claim, hclaim, hold⟩ := h.winner rfl
          obtain rfl := Option.some.inj hclaim
          rw [heq]
          refine h.change hj (f := fun x => { x with duplicateWinner := some winner }) ?_
            ⟨rfl, rfl, rfl, rfl, rfl⟩ h.holds.pending fun _ => ⟨winner, rfl, .inr rfl⟩
          rw [Bool.or_eq_true, decide_eq_true_iff, decide_eq_true_iff]
          exact hold
        · rw [← hid]
          refine Reaches.bind (B := fun event j =>
              j.Decided inventory kept .duplicate (some winner) ∧ event = some kept)
            (Reaches.ask (decided_steady _ _ _)
              (fun _ => (decided_steady _ _ _).and (Contract.Stable.const _))
              fun j hj h _ => ⟨trivial, h, existingEvent_eq hj h.holds.mem⟩) fun event => ?_
          refine Reaches.require (decided_steady _ _ _) (fun _ _ h _ => h.1) fun j _ h hfalse => ?_
          have hwin : kept.duplicateWinner = some winner := by rw [heq]
          rw [h.2, Option.any_some, decide_eq_true hwin] at hfalse
          exact nomatch hfalse
      exact hkept _ rfl
  · rw [if_neg hdup, if_neg hdup]
    exact Reaches.pure (decided_steady _ _ _) fun _ _ h => h

def EventRow.withVerdict (e : EventRow) (verdict : Verdict) (first : Option LocalClaim) :
    EventRow :=
  { e.withWinner verdict first with localVerdict := verdict }

theorem withWinner_eventId (e : EventRow) (verdict : Verdict) (first : Option LocalClaim) :
    (e.withWinner verdict first).eventId = e.eventId := by
  unfold EventRow.withWinner
  split <;> rfl

theorem withVerdict_eventId (e : EventRow) (verdict : Verdict) (first : Option LocalClaim) :
    (e.withVerdict verdict first).eventId = e.eventId := withWinner_eventId e verdict first

theorem store_ends (e : EventRow) (verdict : Verdict) (first : Option LocalClaim) :
    Reaches inventory (fun j => j.Decided inventory e verdict first)
      (storeVerdict e.eventId verdict first) fun stored j =>
        stored = e.withVerdict verdict first ∧ j.Decided inventory stored verdict first := by
  unfold storeVerdict
  refine Reaches.bind (keep_ends e verdict first) fun _ => ?_
  set kept := e.withWinner verdict first with hkept
  have hid : kept.eventId = e.eventId := withWinner_eventId e verdict first
  rw [← hid]
  refine Reaches.bind (B := fun _ j => j.Decided inventory (e.withVerdict verdict first) verdict first)
    (Reaches.ask (decided_steady _ _ _) (fun _ => decided_steady _ _ _)
      fun j hj h _ => ⟨h.unqueued, ?_⟩) fun _ => ?_
  · exact h.change hj (f := fun x => { x with localVerdict := verdict }) rfl
      ⟨rfl, rfl, rfl, rfl, rfl⟩ h.holds.pending h.winner
  · refine Reaches.bind (B := fun event j =>
        j.Decided inventory (e.withVerdict verdict first) verdict first ∧
          event = some (e.withVerdict verdict first))
      (Reaches.ask (decided_steady _ _ _)
        (fun _ => (decided_steady _ _ _).and (Contract.Stable.const _))
        fun j hj h _ => ⟨trivial, h, existingEvent_eq hj h.holds.mem⟩) fun event => ?_
    cases event with
    | none => exact Reaches.absurd fun _ _ h => nomatch h.2
    | some found =>
      by_cases hfound : found = e.withVerdict verdict first
      · rw [hfound]
        refine Reaches.bind (B := fun _ j =>
            j.Decided inventory (e.withVerdict verdict first) verdict first)
          (Reaches.require (decided_steady _ _ _) (fun _ _ h _ => h.1) fun j _ h hfalse => ?_)
          fun _ => Reaches.pure ((Contract.Stable.const _).and (decided_steady _ _ _))
            fun _ _ h => ⟨rfl, h⟩
        have hdup : (verdict ≠ .duplicate) ∨
            (e.withVerdict verdict first).duplicateWinner = first := by
          by_cases hv : verdict = .duplicate
          · right
            unfold EventRow.withVerdict EventRow.withWinner
            rw [if_pos hv]
          · exact .inl hv
        have hstored : verdictStored verdict first (e.withVerdict verdict first) = true := by
          have hv : (e.withVerdict verdict first).localVerdict = verdict := rfl
          unfold verdictStored
          rw [h.1.holds.pending, decide_eq_true hv, Bool.true_and, Bool.true_and, Bool.or_eq_true,
            decide_eq_true_iff, decide_eq_true_iff]
          exact hdup
        rw [hstored] at hfalse
        exact nomatch hfalse
      · exact Reaches.absurd fun _ _ h => hfound (Option.some.inj h.2)

/-! ## Queueing and commit -/

theorem queue_ends {verdict : Verdict} {first : Option LocalClaim}
    (hverdict : e.localVerdict = verdict) :
    Reaches inventory (fun j => j.Decided inventory e verdict first) (queueEvent e verdict)
      fun _ j => j.Holds e ∧ e.queueRow ∈ j.queued := by
  subst hverdict
  have hqueued : (journalContract inventory).Stable fun j => j.Holds e ∧ e.queueRow ∈ j.queued :=
    (holds_steady e).and (steady fun _ _ _ h => h)
  unfold queueEvent
  refine Reaches.bind (B := fun _ j => j.Holds e ∧ e.queueRow ∈ j.queued)
    (Reaches.ask (decided_steady _ _ _) (fun _ => hqueued) fun j hj h _ => ?_) fun _ => ?_
  · refine ⟨⟨e, h.holds.mem, h.holds.pending, h.unqueued, rfl, h.covered, h.justified⟩, ?_⟩
    have hnot : ¬j.isQueued e.queueRow.eventId = true := fun hq => by
      have hfalse : j.isQueued e.queueRow.eventId = false := not_isQueued hj h.unqueued
      rw [hfalse] at hq
      exact nomatch hq
    change (j.insertOutbox e.queueRow).Holds e ∧ e.queueRow ∈ (j.insertOutbox e.queueRow).queued
    unfold Journal.insertOutbox
    rw [if_neg hnot]
    exact ⟨⟨h.holds.mem, h.holds.pending⟩, List.mem_append_right _ List.mem_cons_self⟩
  · refine Reaches.bind (B := fun row j => (j.Holds e ∧ e.queueRow ∈ j.queued) ∧
        row = some e.queueRow)
      (Reaches.ask hqueued (fun _ => hqueued.and (Contract.Stable.const _))
        fun j hj h hm => ⟨trivial, h, ?_⟩) fun row => ?_
    · rcases h.1.outboxRow hj hm with ⟨hrow, -⟩ | ⟨-, hu⟩
      · exact hrow
      · exact absurd h.2 (not_queued_of hu)
    · refine Reaches.require hqueued (fun _ _ h _ => h.1) fun j _ h hfalse => ?_
      have hrow : rowMatches e e.localVerdict e.queueRow = true := by
        unfold rowMatches EventRow.queueRow
        rw [decide_eq_true rfl, decide_eq_true rfl]
        rfl
      rw [h.2, Option.any_some, hrow] at hfalse
      exact nomatch hfalse

theorem commit_ends {input : RecordInventoryScanInput} (hres : IsReservation input scan e) :
    Reaches inventory (fun j => j.Reserved inventory scan e) (commitScan input scan e)
      fun _ => Journal.Settled := by
  have hid : e.identity = scan.identity.normalized := by
    obtain ⟨_, _, -, rfl⟩ := hres
    rfl
  have hwinner : e.duplicateWinner = scan.kind.duplicateWinner := by
    obtain ⟨_, _, -, rfl⟩ := hres
    rfl
  have hevent : e.eventId = input.eventId := by
    obtain ⟨_, _, -, rfl⟩ := hres
    rfl
  have hdate : e.activeProductionDate ≠ "" := by
    obtain ⟨_, _, hne, rfl⟩ := hres
    exact hne
  have hsteady := @reserved_steady inventory scan e
  unfold commitScan
  refine Reaches.bind (B := fun _ j => j.Reserved inventory scan e)
    (Reaches.require hsteady (fun _ _ h _ => h) fun j _ _ hfalse => ?_) fun _ => ?_
  · rw [hres.exact] at hfalse
    exact nomatch hfalse
  refine Reaches.bind (B := fun _ j => j.Reserved inventory scan e)
    (Reaches.require hsteady (fun _ _ h _ => h) fun j _ h hfalse => ?_) fun _ => ?_
  · rw [h.holds.pending] at hfalse
    exact nomatch hfalse
  refine Reaches.bind (B := fun _ j => j.Reserved inventory scan e)
    (Reaches.require hsteady (fun _ _ h _ => h) fun j _ h hfalse => ?_) fun _ => ?_
  · exact absurd hdate (of_decide_eq_false hfalse)
  refine Reaches.bind (project_ends hres) fun _ => ?_
  rw [← hevent]
  refine Reaches.bind (B := fun summary j => j.Projected inventory scan e ∧
      summary = j.ownedProjectionSummary e.eventId)
    (Reaches.ask (projected_steady scan e)
      (fun _ => (projected_steady scan e).and (steady fun _ _ _ h => h))
      fun _ _ h _ => ⟨trivial, h, rfl⟩) fun summary => ?_
  refine Reaches.bind (decide_ends hid hwinner summary) fun v => ?_
  obtain ⟨verdict, first⟩ := v
  refine Reaches.bind (store_ends e verdict first) fun stored => ?_
  by_cases hstored : stored = e.withVerdict verdict first
  · subst hstored
    refine Reaches.bind ((@queue_ends inventory _ _ first rfl).imp fun _ _ h => h.2) fun _ => ?_
    have hfin := @finalize_ends inventory (e.withVerdict verdict first)
    rw [withVerdict_eventId] at hfin
    exact Reaches.bind hfin fun _ => Reaches.pure settled_steady fun _ _ h => h
  · exact Reaches.absurd fun _ _ h => hstored h.1

/-! ## The whole call -/

theorem recordReconciled_ends (input : RecordInventoryScanInput) :
    Reaches inventory (fun j => j.Settled ∧ j.Fresh input.eventId)
      (recordReconciled inventory input none) fun _ => Journal.Settled := by
  have hsteady : (journalContract inventory).Stable fun j => j.Settled ∧ j.Fresh input.eventId :=
    steady fun _ _ _ h => h
  unfold recordReconciled
  refine Reaches.bind (facts_ends hsteady input) fun facts => ?_
  cases hscan : classifyFromFacts inventory input facts with
  | invalid reason => exact Reaches.pure settled_steady fun _ _ h => h.1.1
  | valid scan =>
    refine Reaches.imp (P := fun j => j.Ready inventory input.eventId scan) ?_ fun j hj h => ?_
    · refine Reaches.bind (guard_ends input scan facts) fun mismatch => ?_
      cases mismatch with
      | some outcome => exact Reaches.pure settled_steady fun _ _ h => h.settled
      | none =>
        refine Reaches.bind (reserve_ends input scan) fun e => ?_
        by_cases hres : IsReservation input scan e
        · exact (commit_ends hres).imp fun _ _ h => h.2
        · exact Reaches.absurd fun _ _ h => hres h.1
    · obtain ⟨⟨hsettled, hfresh⟩, rfl⟩ := h
      exact ⟨hsettled, hfresh, classify_spec hj hscan⟩

theorem replay_ends (scan : ValidScan) (e : EventRow) :
    Reaches inventory Journal.Settled (replay scan e) fun _ => Journal.Settled :=
  Reaches.bind (B := fun _ => Journal.Settled)
    (Reaches.ask settled_steady (fun _ => settled_steady) fun _ _ h _ => ⟨trivial, h⟩)
    fun _ => Reaches.pure settled_steady fun _ _ h => h

/-- **A scan of a journal in which nothing is pending leaves nothing pending.** -/
theorem record_ends (retries : ℕ) (input : RecordInventoryScanInput) :
    Reaches inventory Journal.Settled (recordInventoryScan inventory retries input)
      fun _ => Journal.Settled := by
  have hread : ∀ event : Option EventRow, (journalContract inventory).Stable fun j =>
      (j.Settled ∧ (event = none → j.Fresh input.eventId)) ∧ ∀ e ∈ event, e.isPending = false :=
    fun _ => steady fun _ _ _ h => h
  unfold recordInventoryScan
  refine Reaches.bind (B := fun (event : Option EventRow) j =>
      (j.Settled ∧ (event = none → j.Fresh input.eventId)) ∧ ∀ e ∈ event, e.isPending = false)
    (Reaches.ask settled_steady hread fun j _ h _ => ⟨trivial, ⟨h, fun hnone => ?_⟩,
      fun e he => h e (existingEvent_some he).1⟩) fun event => ?_
  · exact existingEvent_none hnone
  refine Reaches.bind (B := fun _ j => (j.Settled ∧ (event = none → j.Fresh input.eventId)) ∧
      ∀ e ∈ event, e.isPending = false) ?_ fun _ => ?_
  · unfold checkLeaving
    split
    · refine Reaches.bind (B := fun _ j => (j.Settled ∧ (event = none → j.Fresh input.eventId)) ∧
          ∀ e ∈ event, e.isPending = false)
        (Reaches.ask (hread event) (fun _ => hread event) fun _ _ h _ => ⟨trivial, h⟩) fun leaving => ?_
      exact Reaches.require (hread event) (fun _ _ h _ => h) fun _ _ h _ => h.1.1
    · exact Reaches.pure (hread event) fun _ _ h => h
  refine Reaches.bind (facts_ends (hread event) input) fun facts => ?_
  cases classifyFromFacts inventory input facts with
  | invalid reason => exact Reaches.pure settled_steady fun _ _ h => h.1.1.1
  | valid scan =>
    cases event with
    | none =>
      refine Reaches.imp (P := fun j => j.Settled ∧ j.Fresh input.eventId) ?_
        fun _ _ h => ⟨h.1.1.1, h.1.1.2 rfl⟩
      exact Reaches.bind (reconcile_idle retries _ (steady fun _ _ _ h => h))
        fun _ => recordReconciled_ends input
    | some e =>
      refine Reaches.bind (B := fun _ j => j.Settled ∧ e.isPending = false)
        (Reaches.require (settled_steady.and (Contract.Stable.const _))
          (fun _ _ h _ => ⟨h.1.1.1, h.1.2 e rfl⟩) fun _ _ h _ => h.1.1.1) fun _ => ?_
      cases hstate : e.commitState with
      | failed => exact Reaches.throw fun _ _ h => h.1
      | committed => exact (replay_ends scan e).imp fun _ _ h => h.1
      | pending =>
        refine Reaches.absurd fun _ _ h => ?_
        have hp := h.2
        unfold EventRow.isPending at hp
        rw [hstate] at hp
        exact nomatch hp

end Markiro.InventoryJournal
