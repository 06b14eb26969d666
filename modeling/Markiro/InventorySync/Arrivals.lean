import Markiro.InventorySync.Readable

/-!
# Claims do not depend on arrival

In a check-mode inventory the codes, the claims of the events and their verdicts are settled by the
events that were taken in, in whichever batches and order (`Settled`):

1. a claim that displaces a winner marks the claim it was won by as lost (`Judged.step`);
2. a batch that is applied settles its events with those before (`Settled.applied`);
3. a batch that is answered again changes nothing (`Settled.served`).
-/

namespace Markiro.InventorySync

open Results

/-! ## The claims of a batch -/

def ClaimOutcome.Won (results : List CodeResult) (c : ClaimOutcome) : Prop :=
  ∃ y ∈ results, y.codeHash = c.codeHash ∧ y.firstAcceptedEventId = c.sourceEventId

/-- A claim is marked as such exactly when its event has won the code. -/
def Judged (outcomes : List ClaimOutcome) (results : List CodeResult) : Prop :=
  ∀ c ∈ outcomes, c.status = .claimed ↔ c.Won results

def ClaimOutcome.key (c : ClaimOutcome) : Uuid × Hash := (c.sourceEventId, c.codeHash)

section

variable {task : Task} {env : Env} {D : Uuid} {e : Event} {g : ClaimTarget} {s s' : Claiming}

/-- **One claim keeps the claims judged**, when none is recorded for its event yet. -/
theorem Judged.step (h : Judged s.tables.claimOutcomes s.tables.codeResults)
    (hnew : ∀ c ∈ s.tables.claimOutcomes, c.sourceEventId ≠ e.eventId)
    (hstep : ClaimStep task env D e g s s') :
    Judged s'.tables.claimOutcomes s'.tables.codeResults := by
  have hunique := s.tables.kept.scans.currentClaims
  cases hstep with
  | fresh scannedAt t hms _ hrows =>
    show Judged t.claimOutcomes t.codeResults
    rw [hrows]
    intro c hc
    rw [h c hc]
    constructor
    · rintro ⟨y, hy, hw⟩
      exact ⟨y, List.mem_append_left _ hy, hw⟩
    · rintro ⟨y, hy, hh, hfirst⟩
      rcases List.mem_append.1 hy with hy | hy
      · exact ⟨y, hy, hh, hfirst⟩
      · rw [List.mem_singleton.1 hy] at hfirst
        exact absurd hfirst.symm (hnew c hc)
  | displaced current scannedAt t hcurrent hhash hfirst hms hrows =>
    have hresults : t.codeResults = Table.update (·.codeHash = g.codeHash)
        (·.wonBy g env D e scannedAt) s.tables.codeResults := by
      rw [hrows]
      rfl
    have houtcomes : t.claimOutcomes = Table.update
        (fun c => c.sourceEventId = current.firstAcceptedEventId ∧ c.codeHash = g.codeHash)
        (·.lostTo D e scannedAt) s.tables.claimOutcomes := by
      rw [hrows]
      rfl
    -- the code has a new winner, the others keep theirs
    have hwon : ∀ c ∈ s.tables.claimOutcomes, c.Won t.codeResults ↔
        c.codeHash ≠ g.codeHash ∧ c.Won s.tables.codeResults := by
      intro c hc
      unfold ClaimOutcome.Won
      rw [hresults]
      constructor
      · rintro ⟨y, hy, hh, hf⟩
        obtain ⟨z, hz, rfl⟩ := Table.mem_update.1 hy
        split_ifs at hh hf with hzg
        · exact absurd hf.symm (hnew c hc)
        · exact ⟨fun hcg => hzg (decide_eq_true (hh.trans hcg)), z, hz, hh, hf⟩
      · rintro ⟨hcg, y, hy, hh, hf⟩
        exact ⟨y, Table.mem_update_of_not hy (decide_eq_false fun hyg => hcg (hh.symm.trans hyg)),
          hh, hf⟩
    show Judged t.claimOutcomes t.codeResults
    rw [houtcomes]
    intro c' hc'
    obtain ⟨c, hc, rfl⟩ := Table.mem_update.1 hc'
    split_ifs with hsel
    · refine iff_of_false nofun fun hw => ?_
      have hcg : c.codeHash = g.codeHash := (of_decide_eq_true hsel).2
      exact ((hwon c hc).1 hw).1 hcg
    · rw [h c hc, hwon c hc]
      refine ⟨fun hw => ⟨fun hcg => ?_, hw⟩, fun hw => hw.2⟩
      obtain ⟨y, hy, hh, hf⟩ := hw
      obtain rfl := hunique.eq hy hcurrent (hh.trans (hcg.trans hhash.symm))
      exact hsel (decide_eq_true ⟨hf.symm, hcg⟩)
  | kept => exact h

/-- The recorded claims after some claims that started at `before`: the same ones, and unchanged but
for the events that were displaced. -/
structure Moved (before : List ClaimOutcome) (s : Claiming) : Prop where
  keys : s.tables.claimOutcomes.map (·.key) = before.map (·.key)
  untouched : ∀ id, id ∉ s.displacedEvents →
    s.tables.claimOutcomes.filter (·.sourceEventId = id) = before.filter (·.sourceEventId = id)

theorem Moved.step {before : List ClaimOutcome} (h : Moved before s)
    (hstep : ClaimStep task env D e g s s') : Moved before s' := by
  cases hstep with
  | fresh scannedAt t hms hnew hrows =>
    have houtcomes : t.claimOutcomes = s.tables.claimOutcomes := by rw [hrows]
    exact ⟨by show t.claimOutcomes.map _ = _; rw [houtcomes, h.keys],
      fun id hid => by
        show t.claimOutcomes.filter _ = _
        rw [houtcomes, h.untouched id hid]⟩
  | displaced current scannedAt t hcurrent hhash hfirst hms hrows =>
    have houtcomes : t.claimOutcomes = Table.update
        (fun c => c.sourceEventId = current.firstAcceptedEventId ∧ c.codeHash = g.codeHash)
        (·.lostTo D e scannedAt) s.tables.claimOutcomes := by
      rw [hrows]
      rfl
    constructor
    · show t.claimOutcomes.map _ = _
      rw [houtcomes]
      exact (Table.map_update (f := (·.lostTo D e scannedAt)) fun _ _ => rfl).trans h.keys
    · intro id hid
      show t.claimOutcomes.filter _ = _
      have hne : current.firstAcceptedEventId ≠ id := fun he =>
        hid (mem_setKey.2 (.inl he.symm))
      rw [houtcomes, Table.filter_update_of_not, h.untouched id]
      · exact fun hin => hid (mem_setKey.2 (.inr ⟨hin, hne.symm⟩))
      · intro c hc
        have hsource : c.sourceEventId = current.firstAcceptedEventId := (of_decide_eq_true hc).1
        exact ⟨decide_eq_false (hsource ▸ hne), decide_eq_false (hsource ▸ hne)⟩
  | kept => exact h

end

/-! ## Events of a check-mode inventory -/

def Event.targets (d : Digests) (task : Task) (e : Event) : List ClaimTarget :=
  match validateAndExpand d task e with
  | .ok targets => targets
  | .error _ => []

def Event.Valid (d : Digests) (task : Task) (e : Event) : Prop :=
  ∃ targets, validateAndExpand d task e = .ok targets

instance (d : Digests) (task : Task) (e : Event) : Decidable (e.Valid d task) :=
  decidable_of_iff ((validateAndExpand d task e).toOption.isSome = true) <| by
    unfold Event.Valid
    cases validateAndExpand d task e with
    | ok targets => exact iff_of_true rfl ⟨targets, rfl⟩
    | error c => exact iff_of_false Bool.false_ne_true nofun

section

variable {d : Digests} {task : Task} {e : Event}

theorem Event.Valid.kind (h : e.Valid d task) (haccepted : e.Accepted)
    (hmode : task.mode = .check) :
    (e.kind = .item ∨ e.kind = .knownBox) ∧ e.repack = none := by
  obtain ⟨targets, h⟩ := h
  unfold validateAndExpand at h
  obtain ⟨_, hcheck, -⟩ := bind_eq_ok.1 h
  unfold checkMode at hcheck
  split_ifs at hcheck with h1
  have hrepack : e.repack = none := by
    by_contra hne
    exact h1 ⟨hmode, .inr hne⟩
  refine ⟨?_, hrepack⟩
  have hagrees := haccepted.repack
  unfold Event.repackAgrees at hagrees
  rw [hrepack] at hagrees
  cases hk : e.kind with
  | item => exact .inl rfl
  | knownBox => exact .inr rfl
  | oldBox => exact absurd ⟨hmode, .inl hk⟩ h1
  | repackAction => exact absurd hk hagrees

theorem Event.Valid.claims (h : e.Valid d task) (haccepted : e.Accepted)
    (hmode : task.mode = .check) : e.targets d task ≠ [] := by
  obtain ⟨hkind, -⟩ := h.kind haccepted hmode
  obtain ⟨targets, h⟩ := h
  have hshaped := validateAndExpand_shaped haccepted h
  unfold Event.targets
  rw [h]
  rcases hkind with hkind | hkind
  · obtain ⟨g, rfl, -⟩ := hshaped.item hkind
    exact List.cons_ne_nil _ _
  · exact hshaped.known hkind

theorem Expanded.Sound.targets_eq {x : Expanded} (h : x.Sound d task) :
    x.claims = x.event.targets d task := by
  unfold Event.targets Expanded.claims
  exact congrArg (fun r => match r with | .ok targets => targets | .error _ => []) h.targets

theorem Expanded.Sound.valid {x : Expanded} (h : x.Sound d task) (hv : x.event.Valid d task) :
    x.rejected = false := by
  obtain ⟨targets, hv⟩ := hv
  unfold Expanded.rejected
  rw [h.targets, hv]

end

/-! ## Outcomes and verdicts -/

def verdictOf (outcomes : List ClaimOutcome) (eventId : Uuid) : Verdict :=
  if outcomes.any (fun c => c.sourceEventId == eventId && c.status == .claimed) then .applied
  else .duplicate

theorem verdictOf_congr {outcomes outcomes' : List ClaimOutcome} {id : Uuid}
    (h : outcomes'.filter (·.sourceEventId = id) = outcomes.filter (·.sourceEventId = id)) :
    verdictOf outcomes' id = verdictOf outcomes id := by
  have key : ∀ l : List ClaimOutcome, l.any (fun c => c.sourceEventId == id && c.status == .claimed) =
      (l.filter (·.sourceEventId = id)).any (·.status == .claimed) := by
    intro l
    rw [List.any_filter]
    rfl
  unfold verdictOf
  rw [key, key, h]

section

variable {d : Digests} {task : Task} {env : Env} {D : Uuid} {b : EventBatch} {t t' : Tables}
  {xs : List Expanded}

theorem outcomeOf_check {x : Expanded} {o : EventOutcome} (hrej : x.rejected = false)
    (hkind : x.event.kind = .item ∨ x.event.kind = .knownBox) (h : outcomeOf t x = .ok (o, t')) :
    ∃ winners, List.Forall₂ (fun (g : ClaimTarget) y => y ∈ t.codeResults ∧ y.codeHash = g.codeHash)
        x.claims winners ∧
      t'.toRows = setVerdict x.event.eventId
        (verdictOf (winners.map (claimOutcomeRow x.event.eventId)) x.event.eventId)
        { t.toRows with
          claimOutcomes := t.claimOutcomes ++ winners.map (claimOutcomeRow x.event.eventId) } := by
  unfold outcomeOf at h
  rw [hrej, if_neg Bool.false_ne_true] at h
  obtain ⟨winners, hw, h⟩ := bind_eq_ok.1 h
  obtain ⟨t1, h1, h⟩ := bind_eq_ok.1 h
  obtain ⟨t2, h2, h⟩ := bind_eq_ok.1 h
  obtain ⟨-, rfl⟩ := pair_eq_ok.1 h
  have hverdict : (if (winners.map (claimAgainst x.event.eventId)).any (·.status = .claimed) ||
      x.event.kind = .oldBox || x.event.kind = .repackAction then Verdict.applied
      else .duplicate) =
      verdictOf (winners.map (claimOutcomeRow x.event.eventId)) x.event.eventId := by
    have hold : decide (x.event.kind = .oldBox) = false := by
      rcases hkind with hk | hk <;> rw [hk] <;> rfl
    have haction : decide (x.event.kind = .repackAction) = false := by
      rcases hkind with hk | hk <;> rw [hk] <;> rfl
    have hany : (winners.map (claimAgainst x.event.eventId)).any (·.status = .claimed) =
        (winners.map (claimOutcomeRow x.event.eventId)).any
          (fun c => c.sourceEventId == x.event.eventId && c.status == .claimed) := by
      rw [List.any_map, List.any_map]
      refine List.any_congr rfl fun y => ?_
      unfold claimAgainst claimOutcomeRow
      dsimp only [Function.comp_apply]
      rw [beq_self_eq_true, Bool.true_and]
      split_ifs <;> rfl
    rw [hold, haction, Bool.or_false, Bool.or_false, hany]
    rfl
  refine ⟨winners, (mapM_eq_ok.1 hw).imp fun g y hgy => ?_, ?_⟩
  · cases hfind : t.codeResults.find? (·.codeHash = g.codeHash) with
    | none =>
      simp only [hfind] at hgy
      cases hgy
    | some y' =>
      simp only [hfind] at hgy
      obtain rfl := Except.ok.inj hgy
      have hfound := List.find?_some hfind
      exact ⟨List.mem_of_find?_eq_some hfind, of_decide_eq_true hfound⟩
  · rw [Tables.change_ok.1 h2, hverdict]
    split_ifs at h1 with hnil
    · obtain rfl := Except.ok.inj h1
      rw [hnil, List.map_nil, List.append_nil]
    · rw [Tables.change_ok.1 h1]

/-- What the outcomes of the events of a batch leave. -/
structure Recounted (xs : List Expanded) (t t' : Tables) : Prop where
  keys : ∀ k, k ∈ t'.claimOutcomes.map (·.key) ↔ k ∈ t.claimOutcomes.map (·.key) ∨
    ∃ x ∈ xs, ∃ g ∈ x.claims, k = (x.event.eventId, g.codeHash)
  rows : ∀ c ∈ t'.claimOutcomes, c ∈ t.claimOutcomes ∨
    ∃ x ∈ xs, ∃ y ∈ t.codeResults, c = claimOutcomeRow x.event.eventId y
  others : ∀ id, (∀ x ∈ xs, x.event.eventId ≠ id) →
    t'.claimOutcomes.filter (·.sourceEventId = id) = t.claimOutcomes.filter (·.sourceEventId = id)
  verdicts : ∀ e ∈ t'.scanEvents, (e ∈ t.scanEvents ∧ ∀ x ∈ xs, x.event.eventId ≠ e.eventId) ∨
    (∃ x ∈ xs, x.event.eventId = e.eventId) ∧
      e.authoritativeVerdict = verdictOf t'.claimOutcomes e.eventId

theorem outcomesOf_check {os : List EventOutcome} (hxs : ∀ x ∈ xs, x.rejected = false ∧
      (x.event.kind = .item ∨ x.event.kind = .knownBox))
    (hids : (xs.map (·.event.eventId)).Nodup)
    (hnew : ∀ c ∈ t.claimOutcomes, ∀ x ∈ xs, c.sourceEventId ≠ x.event.eventId)
    (h : outcomesOf t xs = .ok (os, t')) : Recounted xs t t' := by
  induction xs generalizing t os with
  | nil =>
    obtain ⟨-, rfl⟩ := pair_eq_ok.1 h
    refine ⟨fun k => ⟨.inl, fun hk => hk.resolve_right ?_⟩, fun c hc => .inl hc, fun _ _ => rfl,
      fun e he => .inl ⟨he, fun _ hx => absurd hx List.not_mem_nil⟩⟩
    rintro ⟨x, hx, -⟩
    exact List.not_mem_nil hx
  | cons x xs ih =>
    rw [outcomesOf] at h
    obtain ⟨⟨o, t1⟩, h1, h⟩ := bind_eq_ok.1 h
    obtain ⟨⟨os1, t2⟩, h2, h⟩ := bind_eq_ok.1 h
    obtain ⟨-, rfl⟩ := pair_eq_ok.1 h
    obtain ⟨hrej, hkind⟩ := hxs x List.mem_cons_self
    obtain ⟨winners, hwinners, hrows⟩ := outcomeOf_check hrej hkind h1
    rw [List.map_cons, List.nodup_cons] at hids
    have houtcomes : t1.claimOutcomes =
        t.claimOutcomes ++ winners.map (claimOutcomeRow x.event.eventId) := by
      rw [hrows]
      rfl
    have hresults : t1.codeResults = t.codeResults := by
      rw [hrows]
      rfl
    have hother : ∀ x' ∈ xs, x'.event.eventId ≠ x.event.eventId := fun x' hx' he =>
      hids.1 (he ▸ List.mem_map_of_mem (f := fun x : Expanded => x.event.eventId) hx')
    have hrest := ih (t := t1) (fun x' hx' => hxs x' (List.mem_cons_of_mem _ hx')) hids.2
      (fun c hc x' hx' => by
        rw [houtcomes, List.mem_append] at hc
        rcases hc with hc | hc
        · exact hnew c hc x' (List.mem_cons_of_mem _ hx')
        · obtain ⟨y, -, rfl⟩ := List.mem_map.1 hc
          exact fun he => hother x' hx' he.symm) h2
    constructor
    · intro k
      rw [hrest.keys, houtcomes, List.map_append, List.mem_append, or_assoc]
      refine or_congr Iff.rfl ?_
      have hown : k ∈ (winners.map (claimOutcomeRow x.event.eventId)).map (·.key) ↔
          ∃ g ∈ x.claims, k = (x.event.eventId, g.codeHash) := by
        rw [List.map_map, List.mem_map]
        constructor
        · rintro ⟨y, hy, rfl⟩
          obtain ⟨g, hg, -, hh⟩ := forall₂_mem hwinners.flip hy
          exact ⟨g, hg, Prod.ext rfl hh⟩
        · rintro ⟨g, hg, rfl⟩
          obtain ⟨y, hy, -, hh⟩ := forall₂_mem hwinners hg
          exact ⟨y, hy, Prod.ext rfl hh⟩
      rw [hown]
      constructor
      · rintro (⟨g, hg, hk⟩ | ⟨x', hx', hk⟩)
        · exact ⟨x, List.mem_cons_self, g, hg, hk⟩
        · exact ⟨x', List.mem_cons_of_mem _ hx', hk⟩
      · rintro ⟨x', hx', hk⟩
        rcases List.mem_cons.1 hx' with rfl | hx'
        · exact .inl hk
        · exact .inr ⟨x', hx', hk⟩
    · intro c hc
      rcases hrest.rows c hc with hc | ⟨x', hx', y, hy, rfl⟩
      · rw [houtcomes, List.mem_append] at hc
        refine hc.imp_right fun hc => ?_
        obtain ⟨y, hy, rfl⟩ := List.mem_map.1 hc
        obtain ⟨g, -, hmem, -⟩ := forall₂_mem hwinners.flip hy
        exact ⟨x, List.mem_cons_self, y, hmem, rfl⟩
      · exact .inr ⟨x', List.mem_cons_of_mem _ hx', y, hresults ▸ hy, rfl⟩
    · intro id hid
      have hnil : (winners.map (claimOutcomeRow x.event.eventId)).filter
          (·.sourceEventId = id) = [] := by
        rw [List.filter_eq_nil_iff]
        intro c hc
        obtain ⟨y, -, rfl⟩ := List.mem_map.1 hc
        rw [decide_eq_true_eq]
        exact hid x List.mem_cons_self
      rw [hrest.others id fun x' hx' => hid x' (List.mem_cons_of_mem _ hx'), houtcomes,
        List.filter_append, hnil, List.append_nil]
    · intro e he
      rcases hrest.verdicts e he with ⟨he, hno⟩ | ⟨⟨x', hx', hid⟩, hv⟩
      · rw [show t1.scanEvents = Table.update (·.eventId = x.event.eventId) _ t.scanEvents by
          rw [hrows]; rfl] at he
        obtain ⟨e0, he0, rfl⟩ := Table.mem_update.1 he
        by_cases hsel : e0.eventId = x.event.eventId
        · rw [if_pos (decide_eq_true hsel)] at hno ⊢
          refine .inr ⟨⟨x, List.mem_cons_self, hsel.symm⟩, ?_⟩
          show verdictOf _ x.event.eventId = verdictOf _ e0.eventId
          rw [hsel]
          symm
          refine verdictOf_congr ?_
          have hnil : t.claimOutcomes.filter (·.sourceEventId = x.event.eventId) = [] := by
            rw [List.filter_eq_nil_iff]
            intro c hc
            rw [decide_eq_true_eq]
            exact hnew c hc x List.mem_cons_self
          rw [hrest.others _ fun x' hx' => hother x' hx', houtcomes, List.filter_append, hnil,
            List.nil_append]
        · rw [if_neg (by rwa [decide_eq_true_eq])] at hno ⊢
          refine .inl ⟨he0, fun x' hx' => ?_⟩
          rcases List.mem_cons.1 hx' with rfl | hx'
          · exact fun he => hsel he.symm
          · exact hno x' hx'
      · exact .inr ⟨⟨x', List.mem_cons_of_mem _ hx', hid⟩, hv⟩

theorem reviseVerdicts_events {ids : List Uuid} (h : ids.foldlM reviseVerdict t = .ok t') :
    t'.claimOutcomes = t.claimOutcomes ∧ t'.codeResults = t.codeResults ∧
      ∀ e ∈ t'.scanEvents, (e ∈ t.scanEvents ∧ e.eventId ∉ ids) ∨
        (∃ e0 ∈ t.scanEvents, e0.eventId = e.eventId) ∧
          e.authoritativeVerdict = verdictOf t.claimOutcomes e.eventId := by
  induction ids generalizing t with
  | nil =>
    obtain rfl := Except.ok.inj h
    exact ⟨rfl, rfl, fun e he => .inl ⟨he, List.not_mem_nil⟩⟩
  | cons id ids ih =>
    rw [List.foldlM_cons] at h
    obtain ⟨t1, h1, h⟩ := bind_eq_ok.1 h
    have hrows : t1.toRows = setVerdict id (verdictOf t.claimOutcomes id) t.toRows :=
      Tables.change_ok.1 h1
    obtain ⟨houtcomes, hresults, hevents⟩ := ih h
    have hsame : t1.claimOutcomes = t.claimOutcomes := by
      rw [hrows]
      rfl
    refine ⟨houtcomes.trans hsame, hresults.trans (by rw [hrows]; rfl), fun e he => ?_⟩
    rcases hevents e he with ⟨he, hno⟩ | ⟨⟨e1, he1, hid⟩, hv⟩
    · rw [show t1.scanEvents = Table.update (·.eventId = id) _ t.scanEvents by
        rw [hrows]; rfl] at he
      obtain ⟨e0, he0, rfl⟩ := Table.mem_update.1 he
      by_cases hsel : e0.eventId = id
      · rw [if_pos (decide_eq_true hsel)]
        refine .inr ⟨⟨e0, he0, rfl⟩, ?_⟩
        show verdictOf t.claimOutcomes id = verdictOf t.claimOutcomes e0.eventId
        rw [hsel]
      · rw [if_neg (by rwa [decide_eq_true_eq])] at hno ⊢
        exact .inl ⟨he0, fun hin => (List.mem_cons.1 hin).elim hsel hno⟩
    · refine .inr ⟨?_, hv.trans (by rw [hsame])⟩
      rw [show t1.scanEvents = Table.update (·.eventId = id) _ t.scanEvents by
        rw [hrows]; rfl] at he1
      obtain ⟨e0, he0, rfl⟩ := Table.mem_update.1 he1
      refine ⟨e0, he0, ?_⟩
      rw [← hid]
      split_ifs <;> rfl

end

end Markiro.InventorySync
